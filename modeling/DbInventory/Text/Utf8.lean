/-
# DbInventory.Text.Utf8 -- texts as bytes

The bytes of a text, and the text of any bytes: a sequence that is not well-formed shows as
replacement characters, one for each longest part that could have started a character.
-/

namespace DbInventory.Text

/-- The UTF-8 bytes of characters. -/
def utf8Chars (s : List Char) : List UInt8 :=
  s.flatMap String.utf8EncodeChar

/-- The UTF-8 bytes of a text. -/
def utf8 (s : String) : List UInt8 := utf8Chars s.toList

@[simp]
theorem utf8Chars_append (s t : List Char) : utf8Chars (s ++ t) = utf8Chars s ++ utf8Chars t :=
  List.flatMap_append

theorem utf8_append (s t : String) : utf8 (s ++ t) = utf8 s ++ utf8 t := by
  simp [utf8]

/-- The bytes of a text tell the text. -/
theorem utf8_injective {s t : String} (h : utf8 s = utf8 t) : s = t := by
  rw [← String.toByteArray_inj, ← String.utf8Encode_toList, ← String.utf8Encode_toList]
  exact congrArg List.toByteArray h

/-! ## Reading bytes -/

/-- What a byte starts: how many bytes follow it, its own bits, and the range of the first
byte that may follow. -/
structure Lead where
  following : Nat
  bits : Nat
  lowest : Nat
  highest : Nat

/-- The first bytes of characters. The range of the next byte excludes overlong forms,
surrogates and numbers above U+10FFFF. -/
def lead? (b : Nat) : Option Lead :=
  if b < 0x80 then some ⟨0, b, 0, 0⟩
  else if 0xC2 ≤ b ∧ b ≤ 0xDF then some ⟨1, b - 0xC0, 0x80, 0xBF⟩
  else if b = 0xE0 then some ⟨2, 0, 0xA0, 0xBF⟩
  else if b = 0xED then some ⟨2, 0xD, 0x80, 0x9F⟩
  else if 0xE1 ≤ b ∧ b ≤ 0xEF then some ⟨2, b - 0xE0, 0x80, 0xBF⟩
  else if b = 0xF0 then some ⟨3, 0, 0x90, 0xBF⟩
  else if 0xF1 ≤ b ∧ b ≤ 0xF3 then some ⟨3, b - 0xF0, 0x80, 0xBF⟩
  else if b = 0xF4 then some ⟨3, 4, 0x80, 0x8F⟩
  else none

/-- The character that stands for bytes that are none. -/
def replacement : Char := '\uFFFD'

/-- The characters of bytes, behind a character that has begun (its missing bytes, its bits so
far and the range of the next byte) or between characters. -/
def decodeFrom : Option Lead → List UInt8 → List Char
  | none, [] => []
  | some _, [] => [replacement]
  | none, b :: bytes =>
    match lead? b.toNat with
    | none => replacement :: decodeFrom none bytes
    | some l =>
      if l.following = 0 then Char.ofNat l.bits :: decodeFrom none bytes
      else decodeFrom (some l) bytes
  | some l, b :: bytes =>
    if l.lowest ≤ b.toNat ∧ b.toNat ≤ l.highest then
      let bits := 64 * l.bits + (b.toNat - 0x80)
      if l.following = 1 then Char.ofNat bits :: decodeFrom none bytes
      else decodeFrom (some ⟨l.following - 1, bits, 0x80, 0xBF⟩) bytes
    else
      match lead? b.toNat with
      | none => replacement :: replacement :: decodeFrom none bytes
      | some l =>
        if l.following = 0 then replacement :: Char.ofNat l.bits :: decodeFrom none bytes
        else replacement :: decodeFrom (some l) bytes

/-- The text of bytes. -/
def decodeUtf8 (bytes : List UInt8) : String :=
  String.ofList (decodeFrom none bytes)

/-- The text of bytes without a byte order mark in front. -/
def decodeMarkedUtf8 (bytes : List UInt8) : String :=
  match bytes with
  | 0xEF :: 0xBB :: 0xBF :: rest => decodeUtf8 rest
  | bytes => decodeUtf8 bytes

end DbInventory.Text
