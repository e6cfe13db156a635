/-
# DbInventory.Proofs.Text.ByteOrder -- names are in the order of their bytes

Names are compared code point by code point. Their UTF-8 bytes compare alike
(`Text.utf8_lt_iff`): more bytes start with a larger first byte, and of equally many the first
that differ decide, as digits of base 64 do.
-/

import DbInventory.Dict
import DbInventory.Text.Utf8
import Mathlib.Data.List.Basic

namespace DbInventory.Text

/-- The number of a byte decides, and after equal bytes what follows. -/
theorem ofNat_cons_lt_iff {a b : Nat} (ha : a < 256) (hb : b < 256) {s t : List UInt8} :
    UInt8.ofNat a :: s < UInt8.ofNat b :: t ↔ a < b ∨ a = b ∧ s < t := by
  rw [List.cons_lt_cons_iff, UInt8.lt_iff_toNat_lt, ← UInt8.toNat_inj,
    UInt8.toNat_ofNat_of_lt' ha, UInt8.toNat_ofNat_of_lt' hb]

/-- The bytes of a smaller character are smaller, whatever follows them. -/
theorem utf8EncodeChar_append_lt {c d : Char} (h : c < d) (s t : List UInt8) :
    String.utf8EncodeChar c ++ s < String.utf8EncodeChar d ++ t := by
  have hlt : c.val.toNat < d.val.toNat := h
  have hmax : d.val.toNat < 0x110000 := by
    rcases d.valid with h | h <;> omega
  unfold String.utf8EncodeChar
  generalize c.val.toNat = m at hlt
  generalize d.val.toNat = n at hlt hmax
  -- the digits of base 64, from the last to the first
  have hlast : m / 64 < n / 64 ∨ m / 64 = n / 64 ∧ m % 64 < n % 64 := by omega
  have hthird : m / 64 < n / 64 →
      m / 4096 < n / 4096 ∨ m / 4096 = n / 4096 ∧ m / 64 % 64 < n / 64 % 64 := by omega
  have hsecond : m / 4096 < n / 4096 →
      m / 262144 < n / 262144 ∨ m / 262144 = n / 262144 ∧ m / 4096 % 64 < n / 4096 % 64 := by omega
  have hm : m / 262144 % 8 = m / 262144 := Nat.mod_eq_of_lt (by omega)
  have hn : n / 262144 % 8 = n / 262144 := Nat.mod_eq_of_lt (by omega)
  dsimp only
  rw [hm, hn]
  -- one case for each pair of lengths; the smaller character never has more bytes
  split_ifs
  all_goals try omega
  all_goals simp (disch := omega) only [List.cons_append, List.nil_append, ofNat_cons_lt_iff]
  all_goals omega

theorem utf8Chars_lt {s t : List Char} (h : s < t) : utf8Chars s < utf8Chars t := by
  induction s generalizing t with
  | nil =>
    cases t with
    | nil => exact absurd h (List.lt_irrefl _)
    | cons d t =>
      have hne : utf8Chars (d :: t) ≠ [] := by simp [utf8Chars]
      obtain ⟨b, bytes, hbytes⟩ := List.exists_cons_of_ne_nil hne
      rw [hbytes]
      exact List.nil_lt_cons b bytes
  | cons c s ih =>
    cases t with
    | nil => exact absurd h (List.not_lt_nil _)
    | cons d t =>
      show String.utf8EncodeChar c ++ utf8Chars s < String.utf8EncodeChar d ++ utf8Chars t
      rcases List.cons_lt_cons_iff.1 h with hlt | ⟨rfl, htail⟩
      · exact utf8EncodeChar_append_lt hlt _ _
      · exact List.append_left_lt (ih htail)

/-- **Texts are in the order of their bytes.** -/
theorem utf8_lt_iff {s t : String} : utf8 s < utf8 t ↔ s < t := by
  constructor
  · intro h
    by_contra hnot
    by_cases heq : s = t
    · subst heq
      exact List.lt_irrefl _ h
    · have hlt : t < s := Entries.lt_of_not_lt_of_ne hnot heq
      exact List.lt_asymm h (utf8Chars_lt hlt)
  · intro h
    exact utf8Chars_lt h

end DbInventory.Text
