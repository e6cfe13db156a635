/-
# DbInventory.Proofs.Text.Decimals -- decimal numbers in texts

A number is written in decimal digits, with a sign in front if it is negative (`mem_decimal`),
and its text tells the number (`decimal_inj`); a signed word can be read back from it
(`Text.int64OfDecimal?_decimal`). Where a number has a least count of digits, zeros
stand in front of it; `ShowsNumber` says of a text that it is such digits of a number.
-/

import DbInventory.Signing.Calendar
import DbInventory.Text.Decimal
import Mathlib.Algebra.Group.Nat.Defs

namespace DbInventory

variable {c : Char} {width n : Nat} {s t u v : String}

/-! ## Decimal numbers -/

theorem mem_natDecimal (h : c ∈ (toString n).toList) : c.isDigit = true := by
  rw [Nat.toString_eq_ofList_toDigits, String.toList_ofList] at h
  exact Nat.isDigit_of_mem_toDigits (by decide) (by decide) h

theorem value_natDecimal (n : Nat) : Nat.ofDigitChars 10 (toString n).toList 0 = n := by
  rw [Nat.toString_eq_ofList_toDigits, String.toList_ofList, Nat.ofDigitChars_ten_toDigits]

theorem natDecimal_inj {m n : Nat} : toString m = toString n ↔ m = n := by
  constructor
  · intro h
    rw [← value_natDecimal m, h, value_natDecimal]
  · rintro rfl
    rfl

/-- A decimal number is written in digits, with a sign in front if it is negative. -/
theorem mem_decimal {n : Int} (h : c ∈ (toString n).toList) : c = '-' ∨ c.isDigit = true := by
  cases n with
  | ofNat m => exact .inr (mem_natDecimal h)
  | negSucc m =>
    have hsign : (toString (Int.negSucc m)).toList = '-' :: (toString (m + 1)).toList :=
      String.toList_append
    rw [hsign, List.mem_cons] at h
    exact h.imp_right mem_natDecimal

theorem decimal_inj {m n : Int} : toString m = toString n ↔ m = n := by
  -- digits are never a sign, so a number without a sign is not one with a sign
  have hsign : ∀ {j k : Nat}, toString j ≠ "-" ++ toString (k + 1) := by
    intro j k h
    have hmem : '-' ∈ (toString j).toList := by
      rw [h, String.toList_append]
      exact List.mem_cons_self
    exact absurd (mem_natDecimal hmem) (by decide)
  constructor
  · intro h
    cases m with
    | ofNat j =>
      cases n with
      | ofNat k => exact congrArg Int.ofNat (natDecimal_inj.1 h)
      | negSucc k => exact absurd h hsign
    | negSucc j =>
      cases n with
      | ofNat k => exact absurd h.symm hsign
      | negSucc k =>
        have hdigits : toString (j + 1) = toString (k + 1) := (String.append_right_inj "-").1 h
        exact congrArg Int.negSucc (Nat.succ.inj (natDecimal_inj.1 hdigits))
  · rintro rfl
    rfl

/-! ## Reading decimals -/

namespace Text

theorem natOfDecimal?_decimal (n : Nat) : natOfDecimal? (toString n).toList = some n := by
  have hne : (toString n).toList ≠ [] := by
    rw [Nat.toString_eq_ofList_toDigits, String.toList_ofList]
    exact Nat.toDigits_ne_nil
  rw [natOfDecimal?, if_pos ⟨hne, List.all_eq_true.2 fun c hc => mem_natDecimal hc⟩]
  exact congrArg some (value_natDecimal n)

/-- Digits without a sign are a number that is not negative. -/
theorem intOfDecimal?_of_digits {digits : List Char} (h : ∀ c ∈ digits, c.isDigit = true)
    (hvalue : natOfDecimal? digits = some n) : intOfDecimal? digits = some (n : Int) := by
  unfold intOfDecimal?
  split
  · exact absurd (h '-' List.mem_cons_self) (by decide)
  · exact absurd (h '+' List.mem_cons_self) (by decide)
  · rw [hvalue]
    rfl

theorem intOfDecimal?_decimal (n : Int) : intOfDecimal? (toString n).toList = some n := by
  cases n with
  | ofNat m =>
    exact intOfDecimal?_of_digits (fun c hc => mem_natDecimal hc) (natOfDecimal?_decimal m)
  | negSucc m =>
    have hsign : (toString (Int.negSucc m)).toList = '-' :: (toString (m + 1)).toList :=
      String.toList_append
    rw [hsign, intOfDecimal?, natOfDecimal?_decimal]
    rfl

/-- **A signed word is read back from its decimal text.** -/
theorem int64OfDecimal?_decimal (n : Int64) : int64OfDecimal? (toString n.toInt) = some n := by
  rw [int64OfDecimal?, intOfDecimal?_decimal, Option.bind_some,
    if_pos ⟨Int64.le_toInt n, Int64.toInt_lt n⟩, Int64.ofInt_toInt]

/-- The text is decimal digits, with a sign in front or without one, and the number is their
value. -/
inductive IsDecimal : List Char → Int → Prop where
  | plain {digits : List Char} (hne : digits ≠ []) (h : ∀ c ∈ digits, c.isDigit = true) :
    IsDecimal digits (Nat.ofDigitChars 10 digits 0)
  | plus {digits : List Char} (hne : digits ≠ []) (h : ∀ c ∈ digits, c.isDigit = true) :
    IsDecimal ('+' :: digits) (Nat.ofDigitChars 10 digits 0)
  | minus {digits : List Char} (hne : digits ≠ []) (h : ∀ c ∈ digits, c.isDigit = true) :
    IsDecimal ('-' :: digits) (-(Nat.ofDigitChars 10 digits 0 : Int))

theorem natOfDecimal?_eq_some_iff {digits : List Char} :
    natOfDecimal? digits = some n ↔
      (digits ≠ [] ∧ ∀ c ∈ digits, c.isDigit = true) ∧ Nat.ofDigitChars 10 digits 0 = n := by
  have hvalue : decimalValue digits = Nat.ofDigitChars 10 digits 0 := rfl
  simp only [natOfDecimal?, hvalue, List.all_eq_true, Option.ite_none_right_eq_some,
    Option.some.injEq]

theorem intOfDecimal?_eq_some_iff {n : Int} {s : List Char} :
    intOfDecimal? s = some n ↔ IsDecimal s n := by
  constructor
  · intro h
    unfold intOfDecimal? at h
    split at h
    all_goals
      simp only [Option.map_eq_some_iff, Option.bind_eq_bind, Option.bind_eq_some_iff,
        Option.pure_def, Option.some.injEq] at h
      obtain ⟨_, ⟨m, hm, rfl⟩, rfl⟩ := h
      obtain ⟨⟨hne, hdigits⟩, rfl⟩ := natOfDecimal?_eq_some_iff.1 hm
    · exact .minus hne hdigits
    · exact .plus hne hdigits
    · exact .plain hne hdigits
  · intro h
    cases h with
    | plain hne h => exact intOfDecimal?_of_digits h (natOfDecimal?_eq_some_iff.2 ⟨⟨hne, h⟩, rfl⟩)
    | plus hne h =>
      rw [intOfDecimal?, natOfDecimal?_eq_some_iff.2 ⟨⟨hne, h⟩, rfl⟩]
      rfl
    | minus hne h =>
      rw [intOfDecimal?, natOfDecimal?_eq_some_iff.2 ⟨⟨hne, h⟩, rfl⟩]
      rfl

/-- **A text is read as a signed word** if it is the decimal text of its number. -/
theorem int64OfDecimal?_eq_some_iff {n : Int64} :
    int64OfDecimal? s = some n ↔ IsDecimal s.toList n.toInt := by
  rw [int64OfDecimal?, Option.bind_eq_some_iff, ← intOfDecimal?_eq_some_iff]
  constructor
  · rintro ⟨m, hm, h⟩
    rw [Option.ite_none_right_eq_some, Option.some.injEq] at h
    obtain ⟨⟨hlower, hupper⟩, rfl⟩ := h
    rw [hm, Int64.toInt_ofInt_of_le hlower hupper]
  · intro h
    refine ⟨n.toInt, h, ?_⟩
    rw [if_pos ⟨Int64.le_toInt n, Int64.toInt_lt n⟩, Int64.ofInt_toInt]

end Text

/-! ## Ends of one length -/

/-- Texts with ends of one length are told apart where the ends begin. -/
theorem append_inj_of_length (hlength : u.length = v.length) : s ++ u = t ++ v ↔ s = t ∧ u = v := by
  constructor
  · intro h
    have hchars := congrArg String.toList h
    rw [String.toList_append, String.toList_append] at hchars
    obtain ⟨hfront, hend⟩ :=
      List.append_inj' hchars (by rwa [String.length_toList, String.length_toList])
    exact ⟨String.toList_injective hfront, String.toList_injective hend⟩
  · rintro ⟨rfl, rfl⟩
    rfl

/-! ## Least counts of digits -/

/-- The text is digits of a number, at least as many as a width and no more than that is
needed. -/
structure ShowsNumber (width n : Nat) (s : String) : Prop where
  digits : ∀ c ∈ s.toList, c.isDigit = true
  value : Nat.ofDigitChars 10 s.toList 0 = n
  length : s.length = width ∨ width < s.length ∧ s = toString n

/-- A number that fits its width has exactly as many digits. -/
theorem ShowsNumber.length_eq (h : ShowsNumber width n s) (hwidth : 0 < width)
    (hfits : n < 10 ^ width) : s.length = width := by
  rcases h.length with hlength | ⟨hmore, rfl⟩
  · exact hlength
  · rw [← Nat.length_toDigits_le_iff (by decide) hwidth] at hfits
    rw [Nat.toString_eq_ofList_toDigits, String.length_ofList] at hmore
    omega

end DbInventory
