/-
# DbInventory.Text.Decimal -- whole numbers in arguments

A whole number is written with at least one decimal digit and may have a sign in front; zeros
in front of it do not count.
-/

import DbInventory.WordInt

namespace DbInventory.Text

/-- The number of decimal digits, taken one after the other. -/
def decimalValue (digits : List Char) : Nat :=
  digits.foldl (fun n c => 10 * n + (c.toNat - '0'.toNat)) 0

/-- The number of a text of digits. -/
def natOfDecimal? (digits : List Char) : Option Nat :=
  if digits ≠ [] ∧ digits.all Char.isDigit then some (decimalValue digits) else none

/-- The number of digits behind an optional sign. -/
def intOfDecimal? (s : List Char) : Option Int :=
  match s with
  | '-' :: digits => (natOfDecimal? digits).map fun n => -(n : Int)
  | '+' :: digits => (natOfDecimal? digits).map fun n => (n : Int)
  | digits => (natOfDecimal? digits).map fun n => (n : Int)

/-- The signed word of a text, if the number fits one. -/
def int64OfDecimal? (s : String) : Option Int64 :=
  (intOfDecimal? s.toList).bind fun n =>
    if minSigned ≤ n ∧ n < signedLimit then some (Int64.ofInt n) else none

end DbInventory.Text
