/-
# DbInventory.Json.Printer -- JSON text

A tree is written either compactly, without any blank, or indented: every element and member
on a line of its own, one unit deeper than its parent, with `[]` and an empty object closed
on the spot. Both are the same printer with different separators (`Style`). Strings escape
quotes, backslashes and the characters below U+0020, and nothing else.
-/

import DbInventory.Json.Basic
import DbInventory.Binary64.Shortest
import DbInventory.Text.Hex

namespace DbInventory.Json

/-! ## Scalars -/

/-- One character inside a JSON string. -/
def escapedChar (c : Char) : List Char :=
  if c = '"' then ['\\', '"']
  else if c = '\\' then ['\\', '\\']
  else if c = '\x08' then ['\\', 'b']
  else if c = '\x0c' then ['\\', 'f']
  else if c = '\n' then ['\\', 'n']
  else if c = '\r' then ['\\', 'r']
  else if c = '\t' then ['\\', 't']
  else if c < ' ' then ['\\', 'u', '0', '0'] ++ Text.hexByte (UInt8.ofNat c.toNat)
  else [c]

/-- A JSON string with its quotes. -/
def stringText (s : String) : List Char :=
  '"' :: s.toList.flatMap escapedChar ++ ['"']

/-- A whole number in decimal digits. -/
def intText (n : Int) : List Char :=
  match n with
  | .ofNat m => Nat.toDigits 10 m
  | .negSucc m => '-' :: Nat.toDigits 10 (m + 1)

/-- JSON numbers are positional from five places behind the point up to sixteen in front. -/
def floatLayout : Binary64.Layout := ⟨-5, 15⟩

def Number.text : Number → List Char
  | .whole n => intText n.val
  | .float x => (x.text floatLayout).toList

/-! ## Trees -/

/-- Compact, or indented by a unit of blanks. -/
inductive Style where
  | compact
  | indented (unit : List Char)

/-- What stands in front of an element at a depth. -/
def Style.lineBreak : Style → Nat → List Char
  | .compact, _ => []
  | .indented unit, depth => '\n' :: (List.replicate depth unit).flatten

/-- What stands between a name and its value. -/
def Style.colon : Style → List Char
  | .compact => [':']
  | .indented _ => [':', ' ']

mutual

/-- The text of a tree whose first line stands at a depth. -/
def textAt (style : Style) (depth : Nat) : Json → List Char
  | .null => ['n', 'u', 'l', 'l']
  | .bool true => ['t', 'r', 'u', 'e']
  | .bool false => ['f', 'a', 'l', 's', 'e']
  | .number n => n.text
  | .string s => stringText s
  | .array [] => ['[', ']']
  | .array (v :: rest) =>
    '[' :: style.lineBreak (depth + 1) ++ textAt style (depth + 1) v ++
      itemsTextAt style (depth + 1) rest ++ style.lineBreak depth ++ [']']
  | .object [] => ['{', '}']
  | .object ((k, v) :: rest) =>
    '{' :: style.lineBreak (depth + 1) ++ stringText k ++ style.colon ++
      textAt style (depth + 1) v ++ membersTextAt style (depth + 1) rest ++
      style.lineBreak depth ++ ['}']

/-- The elements after the first, each behind a comma. -/
def itemsTextAt (style : Style) (depth : Nat) : List Json → List Char
  | [] => []
  | v :: rest =>
    ',' :: style.lineBreak depth ++ textAt style depth v ++ itemsTextAt style depth rest

/-- The members after the first, each behind a comma. -/
def membersTextAt (style : Style) (depth : Nat) : List (String × Json) → List Char
  | [] => []
  | (k, v) :: rest =>
    ',' :: style.lineBreak depth ++ stringText k ++ style.colon ++ textAt style depth v ++
      membersTextAt style depth rest

end

/-- The text of a tree in a style. -/
def text (style : Style) (v : Json) : String :=
  String.ofList (textAt style 0 v)

/-- The text without blanks. -/
def compactText (v : Json) : String := v.text .compact

/-- The text indented by two blanks. -/
def prettyText (v : Json) : String := v.text (.indented [' ', ' '])

/-- The text indented by tabs. -/
def tabbedText (v : Json) : String := v.text (.indented ['\t'])

end DbInventory.Json
