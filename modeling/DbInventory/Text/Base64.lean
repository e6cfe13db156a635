/-
# DbInventory.Text.Base64 -- bytes as base-64 digits

Three bytes are written as four digits of six bits each, the highest first. A shorter last
group has as many digits as its bits need, and marks of padding in place of the others.
-/

namespace DbInventory.Text

/-- The digits in the order of their values. -/
def base64Digits : List Char :=
  "ABCDEFGHIJKLMNOPQRSTUVWXYZabcdefghijklmnopqrstuvwxyz0123456789+/".toList

/-- The digit of the lowest six bits. -/
def base64Digit (n : Nat) : Char := base64Digits.getD (n % 64) '='

/-- The digits of bytes, group by group. -/
def base64 : List UInt8 → List Char
  | a :: b :: c :: rest =>
    let n := a.toNat * 65536 + b.toNat * 256 + c.toNat
    base64Digit (n / 262144) :: base64Digit (n / 4096) :: base64Digit (n / 64) ::
      base64Digit n :: base64 rest
  | [a, b] =>
    let n := a.toNat * 65536 + b.toNat * 256
    [base64Digit (n / 262144), base64Digit (n / 4096), base64Digit (n / 64), '=']
  | [a] =>
    let n := a.toNat * 65536
    [base64Digit (n / 262144), base64Digit (n / 4096), '=', '=']
  | [] => []

end DbInventory.Text
