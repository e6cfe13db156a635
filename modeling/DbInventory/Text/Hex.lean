/-
# DbInventory.Text.Hex -- hexadecimal digits

Digests, escapes and code points are written in lower-case hexadecimal digits, and escapes
are read in either case.
-/

namespace DbInventory.Text

/-- The digit of a value below sixteen, in lower case. -/
def hexDigit (n : Nat) : Char :=
  if n < 10 then Char.ofNat ('0'.toNat + n) else Char.ofNat ('a'.toNat + (n - 10))

/-- The value of a digit in either case. -/
def hexValue (c : Char) : Option Nat :=
  if '0' ≤ c ∧ c ≤ '9' then some (c.toNat - '0'.toNat)
  else if 'a' ≤ c ∧ c ≤ 'f' then some (c.toNat - 'a'.toNat + 10)
  else if 'A' ≤ c ∧ c ≤ 'F' then some (c.toNat - 'A'.toNat + 10)
  else none

/-- A byte as two digits. -/
def hexByte (b : UInt8) : List Char :=
  [hexDigit (b.toNat / 16), hexDigit (b.toNat % 16)]

/-- Bytes as two digits each. -/
def hexBytes (bytes : List UInt8) : List Char :=
  bytes.flatMap hexByte

/-- The bytes of pairs of digits; none if a digit is missing or is not one. -/
def bytesOfHex : List Char → Option (List UInt8)
  | [] => some []
  | [_] => none
  | a :: b :: rest => do
    let high ← hexValue a
    let low ← hexValue b
    let bytes ← bytesOfHex rest
    pure (UInt8.ofNat (16 * high + low) :: bytes)

theorem hexValue_hexDigit : ∀ n < 16, hexValue (hexDigit n) = some n := by decide

theorem length_hexBytes (bytes : List UInt8) : (hexBytes bytes).length = 2 * bytes.length := by
  induction bytes with
  | nil => rfl
  | cons b rest ih =>
    simp only [hexBytes, List.flatMap_cons, List.length_append] at *
    simp [ih, hexByte]
    omega

/-- Hexadecimal text determines the bytes. -/
theorem bytesOfHex_hexBytes (bytes : List UInt8) : bytesOfHex (hexBytes bytes) = some bytes := by
  induction bytes with
  | nil => rfl
  | cons b rest ih =>
    have hb : b.toNat < 256 := b.toNat_lt
    have : hexBytes (b :: rest) =
        hexDigit (b.toNat / 16) :: hexDigit (b.toNat % 16) :: hexBytes rest := rfl
    rw [this, bytesOfHex, hexValue_hexDigit _ (by omega), hexValue_hexDigit _ (by omega), ih]
    have hsum : 16 * (b.toNat / 16) + b.toNat % 16 = b.toNat := by omega
    show some (UInt8.ofNat (16 * (b.toNat / 16) + b.toNat % 16) :: rest) = _
    rw [hsum, UInt8.ofNat_toNat]

end DbInventory.Text
