/-
# DbInventory.Proofs.Text.Utf8 -- texts survive their bytes

The bytes of a text are read as the text (`Text.decodeUtf8_utf8`). Nothing has to be replaced
on the way: the first byte of a character says how many bytes follow, each of these has six bits
of it, and the range that the first byte leaves for the second one holds every character that
begins so. A byte order mark is not part of a text, so a text that begins with one loses it
where marks are looked for (`Text.decodeMarkedUtf8_utf8`).
-/

import DbInventory.Text.Utf8
import Mathlib.Data.List.Basic

namespace DbInventory.Text

variable {l : Lead} {b n : Nat} {bytes : List UInt8}

/-! ## One byte after the other -/

/-- A first byte that is followed by others. -/
theorem decodeFrom_lead (hb : b < 256) (hlead : lead? b = some l) (hmore : l.following ≠ 0) :
    decodeFrom none (UInt8.ofNat b :: bytes) = decodeFrom (some l) bytes := by
  simp only [decodeFrom, UInt8.toNat_ofNat_of_lt' hb, hlead, if_neg hmore]

/-- The last byte of a character. -/
theorem decodeFrom_last (hb : b < 256) (hrange : l.lowest ≤ b ∧ b ≤ l.highest)
    (hlast : l.following = 1) :
    decodeFrom (some l) (UInt8.ofNat b :: bytes) =
      Char.ofNat (64 * l.bits + (b - 0x80)) :: decodeFrom none bytes := by
  simp only [decodeFrom, UInt8.toNat_ofNat_of_lt' hb, if_pos hrange, if_pos hlast]

/-- A byte of a character that is not its last. -/
theorem decodeFrom_next (hb : b < 256) (hrange : l.lowest ≤ b ∧ b ≤ l.highest)
    (hmore : l.following ≠ 1) :
    decodeFrom (some l) (UInt8.ofNat b :: bytes) =
      decodeFrom (some ⟨l.following - 1, 64 * l.bits + (b - 0x80), 0x80, 0xBF⟩) bytes := by
  simp only [decodeFrom, UInt8.toNat_ofNat_of_lt' hb, if_pos hrange, if_neg hmore]

/-- A first byte, with what is known of the byte behind it. -/
structure Begins (b following bits next : Nat) (l : Lead) : Prop where
  lead : lead? b = some l
  following : l.following = following
  bits : l.bits = bits
  range : l.lowest ≤ next ∧ next ≤ l.highest

theorem exists_begins_two (h : 0x7F < n) (h' : n ≤ 0x7FF) :
    ∃ l, Begins (n / 64 + 0xC0) 1 (n / 64) (n % 64 + 0x80) l := by
  refine ⟨⟨1, n / 64, 0x80, 0xBF⟩, ?_, rfl, rfl, by dsimp only; omega⟩
  rw [lead?, if_neg (by omega), if_pos (by omega), Nat.add_sub_cancel]

/-- The first of three bytes; its range leaves out the overlong forms and the surrogates. -/
theorem exists_begins_three (h : 0x7FF < n) (h' : n ≤ 0xFFFF) (hvalid : n < 0xD800 ∨ 0xDFFF < n) :
    ∃ l, Begins (n / 4096 + 0xE0) 2 (n / 4096) (n / 64 % 64 + 0x80) l := by
  by_cases hlow : n / 4096 = 0
  · refine ⟨⟨2, 0, 0xA0, 0xBF⟩, by rw [hlow]; rfl, rfl, hlow.symm, by dsimp only; omega⟩
  · by_cases hhigh : n / 4096 = 0xD
    · refine ⟨⟨2, 0xD, 0x80, 0x9F⟩, by rw [hhigh]; rfl, rfl, hhigh.symm, by dsimp only; omega⟩
    · refine ⟨⟨2, n / 4096, 0x80, 0xBF⟩, ?_, rfl, rfl, by dsimp only; omega⟩
      rw [lead?, if_neg (by omega), if_neg (by omega), if_neg (by omega), if_neg (by omega),
        if_pos (by omega), Nat.add_sub_cancel]

/-- The first of four bytes; its range leaves out what is behind the last character. -/
theorem exists_begins_four (h : 0xFFFF < n) (h' : n < 0x110000) :
    ∃ l, Begins (n / 262144 + 0xF0) 3 (n / 262144) (n / 4096 % 64 + 0x80) l := by
  by_cases hlow : n / 262144 = 0
  · refine ⟨⟨3, 0, 0x90, 0xBF⟩, by rw [hlow]; rfl, rfl, hlow.symm, by dsimp only; omega⟩
  · by_cases hhigh : n / 262144 = 4
    · refine ⟨⟨3, 4, 0x80, 0x8F⟩, by rw [hhigh]; rfl, rfl, hhigh.symm, by dsimp only; omega⟩
    · refine ⟨⟨3, n / 262144, 0x80, 0xBF⟩, ?_, rfl, rfl, by dsimp only; omega⟩
      rw [lead?, if_neg (by omega), if_neg (by omega), if_neg (by omega), if_neg (by omega),
        if_neg (by omega), if_neg (by omega), if_pos (by omega), Nat.add_sub_cancel]

/-! ## Characters and texts -/

/-- **The bytes of a character are read as the character**, whatever follows them. -/
theorem decodeFrom_utf8EncodeChar (c : Char) (bytes : List UInt8) :
    decodeFrom none (String.utf8EncodeChar c ++ bytes) = c :: decodeFrom none bytes := by
  have hvalid : c.val.toNat < 0xD800 ∨ 0xDFFF < c.val.toNat ∧ c.val.toNat < 0x110000 := c.valid
  have hc : Char.ofNat c.val.toNat = c := Char.ofNat_toNat c
  unfold String.utf8EncodeChar
  dsimp only
  generalize c.val.toNat = n at hvalid hc
  -- one case for each number of bytes; the bits of the bytes are the digits of base 64
  split_ifs with hone htwo hthree
  · have hlead : lead? n = some ⟨0, n, 0, 0⟩ := by rw [lead?, if_pos (by omega)]
    simp only [List.cons_append, List.nil_append, decodeFrom,
      UInt8.toNat_ofNat_of_lt' (show n < 256 by omega), hlead, if_true, hc]
  · obtain ⟨l, hlead, hfollowing, hbits, hrange⟩ := exists_begins_two (n := n) (by omega) htwo
    rw [Nat.mod_eq_of_lt (show n / 64 < 32 by omega), List.cons_append,
      decodeFrom_lead (by omega) hlead (by omega), List.cons_append,
      decodeFrom_last (by omega) hrange hfollowing, hbits, Nat.add_sub_cancel,
      Nat.div_add_mod, hc, List.nil_append]
  · obtain ⟨l, hlead, hfollowing, hbits, hrange⟩ :=
      exists_begins_three (n := n) (by omega) hthree (by omega)
    have hnumber : 64 * (64 * (n / 4096) + n / 64 % 64) + n % 64 = n := by omega
    rw [Nat.mod_eq_of_lt (show n / 4096 < 16 by omega), List.cons_append,
      decodeFrom_lead (by omega) hlead (by omega), List.cons_append,
      decodeFrom_next (by omega) hrange (by omega), List.cons_append,
      decodeFrom_last (by omega) (by dsimp only; omega) (by dsimp only; omega), hbits,
      Nat.add_sub_cancel, Nat.add_sub_cancel, hnumber, hc, List.nil_append]
  · obtain ⟨l, hlead, hfollowing, hbits, hrange⟩ :=
      exists_begins_four (n := n) (by omega) (by omega)
    have hnumber :
        64 * (64 * (64 * (n / 262144) + n / 4096 % 64) + n / 64 % 64) + n % 64 = n := by omega
    rw [Nat.mod_eq_of_lt (show n / 262144 < 8 by omega), List.cons_append,
      decodeFrom_lead (by omega) hlead (by omega), List.cons_append,
      decodeFrom_next (by omega) hrange (by omega), List.cons_append,
      decodeFrom_next (by omega) (by dsimp only; omega) (by dsimp only; omega), List.cons_append,
      decodeFrom_last (by omega) (by dsimp only; omega) (by dsimp only; omega), hbits,
      Nat.add_sub_cancel, Nat.add_sub_cancel, Nat.add_sub_cancel, hnumber, hc, List.nil_append]

theorem decodeFrom_utf8Chars (s : List Char) : decodeFrom none (utf8Chars s) = s := by
  induction s with
  | nil => rfl
  | cons c s ih =>
    show decodeFrom none (String.utf8EncodeChar c ++ utf8Chars s) = c :: s
    rw [decodeFrom_utf8EncodeChar, ih]

/-- **Texts survive their bytes.** -/
theorem decodeUtf8_utf8 (s : String) : decodeUtf8 (utf8 s) = s := by
  rw [decodeUtf8, utf8, decodeFrom_utf8Chars, String.ofList_toList]

/-- A text survives its bytes also where a mark is looked for, unless it begins with one. -/
theorem decodeMarkedUtf8_utf8 {s : String} (h : s.toList.head? ≠ some '\uFEFF') :
    decodeMarkedUtf8 (utf8 s) = s := by
  unfold decodeMarkedUtf8
  split
  · next rest hmark =>
    refine absurd ?_ h
    -- the mark is the bytes of one character, and that one is read first
    have hread : decodeFrom none (utf8 s) = '\uFEFF' :: decodeFrom none rest := by
      rw [hmark]
      exact decodeFrom_utf8EncodeChar '\uFEFF' rest
    rw [utf8, decodeFrom_utf8Chars] at hread
    rw [hread]
    rfl
  · exact decodeUtf8_utf8 s

end DbInventory.Text
