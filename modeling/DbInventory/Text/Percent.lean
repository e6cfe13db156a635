/-
# DbInventory.Text.Percent -- bytes written behind percent signs

A character that may not stand for itself is written as its UTF-8 bytes, each as a percent
sign and two upper-case hexadecimal digits. Reading takes any percent sign with two digits
behind it as a byte, and leaves all other percent signs as they are.
-/

import DbInventory.Text.Hex
import DbInventory.Text.Utf8

namespace DbInventory.Text

/-- The upper-case digit of a value below sixteen. -/
def upperHexDigit (n : Nat) : Char :=
  if n < 10 then Char.ofNat ('0'.toNat + n) else Char.ofNat ('A'.toNat + (n - 10))

/-- A byte behind a percent sign. -/
def percentByte (b : UInt8) : List Char :=
  ['%', upperHexDigit (b.toNat / 16), upperHexDigit (b.toNat % 16)]

/-- The characters that stand for themselves, and the bytes of the others. -/
def percentEncode (plain : Char → Bool) (s : List Char) : List Char :=
  s.flatMap fun c => if plain c then [c] else (String.utf8EncodeChar c).flatMap percentByte

/-- The bytes of a text. -/
def percentDecode : List Char → List UInt8
  | '%' :: a :: b :: s =>
    match hexValue a, hexValue b with
    | some high, some low => UInt8.ofNat (16 * high + low) :: percentDecode s
    | _, _ => 0x25 :: percentDecode (a :: b :: s)
  | c :: s => String.utf8EncodeChar c ++ percentDecode s
  | [] => []
termination_by s => s.length

end DbInventory.Text
