/-
# DbInventory.Url.Punycode -- domain labels in ASCII

A label with characters outside ASCII is written with its ASCII characters first, and behind
them, as numbers to base 36, the places where the others are inserted in the order of their
code points. A digit ends a number if it is below a threshold that adapts to the numbers in
front of it. `decode` reads what `encode` writes, and other texts too: whoever reads a label has
to write it again and compare.
-/

import DbInventory.Text.Parts

namespace DbInventory.Punycode

/-- The digits are the letters and then the decimal digits. -/
def digit (n : Nat) : Char :=
  if n < 26 then Char.ofNat ('a'.toNat + n) else Char.ofNat ('0'.toNat + (n - 26))

/-- The threshold of a digit place. -/
def threshold (place bias : Nat) : Nat :=
  if place ≤ bias then 1 else if bias + 26 ≤ place then 26 else place - bias

/-- A number; the digits place by place, up to one below its threshold. -/
def number : (rounds : Nat) → (place bias n : Nat) → List Char
  | 0, _, _, n => [digit n]
  | rounds + 1, place, bias, n =>
    let t := threshold place bias
    if n < t then [digit n]
    else digit (t + (n - t) % (36 - t)) :: number rounds (place + 36) bias ((n - t) / (36 - t))

/-- Divides down for the adapted bias. -/
def settle : (rounds : Nat) → (delta shift : Nat) → Nat
  | 0, _, shift => shift
  | rounds + 1, delta, shift =>
    if 455 < delta then settle rounds (delta / 35) (shift + 36)
    else shift + 36 * delta / (delta + 38)

/-- The bias behind a number, when `count` characters have been placed. -/
def adapt (delta count : Nat) (first : Bool) : Nat :=
  let scaled := if first then delta / 700 else delta / 2
  settle scaled (scaled + scaled / count) 0

/-- What has been written, and where the next insertion is counted from. -/
structure State where
  output : List Char
  delta : Nat
  bias : Nat
  placed : Nat

/-- Goes over one character of the label while the characters `code` are inserted. -/
def State.pass (basic code : Nat) (s : State) (c : Char) : State :=
  if c.toNat < code then { s with delta := s.delta + 1 }
  else if c.toNat = code then
    { output := s.output ++ number s.delta 36 s.bias s.delta
      delta := 0
      bias := adapt s.delta (s.placed + 1) (s.placed = basic)
      placed := s.placed + 1 }
  else s

/-- Inserts the characters of the given codes, which increase; all codes below `next` are
done. -/
def insertAll (label : List Char) (basic : Nat) : (next : Nat) → List Nat → State → State
  | _, [], s => s
  | next, code :: codes, s =>
    let s := { s with delta := s.delta + (code - next) * (s.placed + 1) }
    let s := label.foldl (State.pass basic code) s
    insertAll label basic (code + 1) codes { s with delta := s.delta + 1 }

def isBasic (c : Char) : Bool := c.toNat < 0x80

/-- The ASCII form of a label. -/
def encode (label : List Char) : List Char :=
  let basic := label.filter isBasic
  let codes := ((label.filter (!isBasic ·)).map Char.toNat).mergeSort.eraseDups
  let start := if basic.isEmpty then [] else basic ++ ['-']
  (insertAll label basic.length 0x80 codes
    { output := start, delta := 0, bias := 72, placed := basic.length }).output

/-! ## Reading -/

def digitValue? (c : Char) : Option Nat :=
  if 'a' ≤ c ∧ c ≤ 'z' then some (c.toNat - 'a'.toNat)
  else if '0' ≤ c ∧ c ≤ '9' then some (c.toNat - '0'.toNat + 26)
  else none

/-- The number whose digits stand in front, the first of them `weight` times, and the text
behind it. -/
def readNumber? (bias : Nat) : (place weight : Nat) → List Char → Option (Nat × List Char)
  | _, _, [] => none
  | place, weight, c :: s => do
    let d ← digitValue? c
    let t := threshold place bias
    if d < t then some (d * weight, s)
    else
      let (n, s) ← readNumber? bias (place + 36) (weight * (36 - t)) s
      some (d * weight + n, s)

/-- Inserts the characters of the numbers that are left; each number takes at least one digit,
so there are as many rounds as digits. -/
def insertNumbers? (basic : Nat) : (rounds : Nat) → (code place bias : Nat) →
    (label digits : List Char) → Option (List Char)
  | _, _, _, _, label, [] => some label
  | 0, _, _, _, _, _ => none
  | rounds + 1, code, place, bias, label, digits => do
    let (delta, rest) ← readNumber? bias 36 1 digits
    let count := label.length + 1
    let code := code + (place + delta) / count
    let place := (place + delta) % count
    if code.isValidChar then
      insertNumbers? basic rounds code (place + 1) (adapt delta count (label.length = basic))
        (label.insertIdx place (Char.ofNat code)) rest
    else none

/-- The label of an ASCII form. -/
def decode (s : List Char) : Option (List Char) :=
  let parts := Text.parts '-' s
  let basic := Text.joinParts '-' parts.dropLast
  let digits := parts.getLast?.getD []
  insertNumbers? basic.length digits.length 0x80 0 72 basic digits

end DbInventory.Punycode
