/-
# DbInventory.Proofs.Digest.Bursts -- a checksum shows short changes

Dividing out a bit is linear over exclusive or, and it takes no state but zero to zero
(`stepBit_xor`, `eq_zero_of_stepBit`): so taking in bytes can be undone, and two states that are
different stay different whatever bytes follow (`run_state_inj`). Up to four bytes go into the
state as one word, which is divided out afterwards (`run_eq_stepBits`), and the word tells its
bytes. So two inputs of one length that differ in a window of four bytes only have different
checksums (`checksum_ne`), and a listing whose text changes within such a window changes its
identifier (`listingId_ne_of_differsWithin`).
-/

import DbInventory.Instance.ListingId
import DbInventory.Proofs.Text.Decimals
import Mathlib.Algebra.Group.Nat.Defs

namespace DbInventory

namespace Crc32

/-! ## One bit -/

theorem and_one_eq_one_iff {c : UInt32} : c &&& 1 = 1 ↔ c.toNat % 2 = 1 := by
  rw [← UInt32.toNat_inj, UInt32.toNat_and]
  exact (Nat.and_one_is_mod _).symm ▸ Iff.rfl

theorem toNat_half (c : UInt32) : (c >>> 1).toNat = c.toNat / 2 := by
  rw [UInt32.toNat_shiftRight]
  exact Nat.shiftRight_eq_div_pow _ 1

theorem stepBit_of_odd {c : UInt32} (h : c.toNat % 2 = 1) :
    stepBit c = (c >>> 1) ^^^ polynomial := if_pos (and_one_eq_one_iff.2 h)

theorem stepBit_of_even {c : UInt32} (h : ¬c.toNat % 2 = 1) : stepBit c = c >>> 1 :=
  if_neg (mt and_one_eq_one_iff.1 h)

/-- **Dividing out a bit is linear.** -/
theorem stepBit_xor (c d : UInt32) : stepBit (c ^^^ d) = stepBit c ^^^ stepBit d := by
  have hparity : (c ^^^ d).toNat % 2 = 1 ↔ ¬(c.toNat % 2 = 1 ↔ d.toNat % 2 = 1) := by
    rw [UInt32.toNat_xor]
    exact Nat.xor_mod_two_eq_one
  by_cases hc : c.toNat % 2 = 1 <;> by_cases hd : d.toNat % 2 = 1
  · -- two polynomials cancel
    rw [stepBit_of_even (by rw [hparity]; simp [hc, hd]), stepBit_of_odd hc, stepBit_of_odd hd,
      UInt32.shiftRight_xor, UInt32.xor_comm (d >>> 1), UInt32.xor_assoc,
      ← UInt32.xor_assoc polynomial, UInt32.xor_self, UInt32.zero_xor]
  · rw [stepBit_of_odd (hparity.2 (by simp [hc, hd])), stepBit_of_odd hc, stepBit_of_even hd,
      UInt32.shiftRight_xor, UInt32.xor_assoc, UInt32.xor_assoc, UInt32.xor_comm polynomial]
  · rw [stepBit_of_odd (hparity.2 (by simp [hc, hd])), stepBit_of_even hc, stepBit_of_odd hd,
      UInt32.shiftRight_xor, UInt32.xor_assoc]
  · rw [stepBit_of_even (by rw [hparity]; simp [hc, hd]), stepBit_of_even hc, stepBit_of_even hd,
      UInt32.shiftRight_xor]

/-- The polynomial has its highest bit set, which a shifted state has not: so it is never
what is left of a state. -/
theorem eq_zero_of_stepBit {c : UInt32} (h : stepBit c = 0) : c = 0 := by
  have hbound : c.toNat < 4294967296 := c.toNat_lt
  by_cases hc : c.toNat % 2 = 1
  · rw [stepBit_of_odd hc, UInt32.xor_eq_zero_iff, ← UInt32.toNat_inj, toNat_half] at h
    have hpolynomial : polynomial.toNat = 3988292384 := rfl
    omega
  · rw [stepBit_of_even hc, ← UInt32.toNat_inj, toNat_half] at h
    rw [← UInt32.toNat_inj]
    have hzero : (0 : UInt32).toNat = 0 := rfl
    omega

/-! ## A number of bits -/

theorem stepBits_xor (n : Nat) (c d : UInt32) :
    stepBits n (c ^^^ d) = stepBits n c ^^^ stepBits n d := by
  induction n generalizing c d with
  | zero => rfl
  | succ n ih => rw [stepBits, stepBits, stepBits, stepBit_xor, ih]

theorem stepBits_add (m n : Nat) (c : UInt32) :
    stepBits (m + n) c = stepBits n (stepBits m c) := by
  induction m generalizing c with
  | zero => rw [Nat.zero_add, stepBits]
  | succ m ih => rw [Nat.succ_add, stepBits, stepBits, ih]

theorem eq_zero_of_stepBits {n : Nat} {c : UInt32} (h : stepBits n c = 0) : c = 0 := by
  induction n generalizing c with
  | zero => exact h
  | succ n ih => exact eq_zero_of_stepBit (ih h)

/-- **Dividing out bits can be undone.** -/
theorem stepBits_inj {n : Nat} {c d : UInt32} : stepBits n c = stepBits n d ↔ c = d := by
  rw [← UInt32.xor_eq_zero_iff, ← stepBits_xor]
  constructor
  · intro h
    exact UInt32.xor_eq_zero_iff.1 (eq_zero_of_stepBits h)
  · rintro rfl
    rw [UInt32.xor_self]
    exact stepBits_xor n 0 0 ▸ UInt32.xor_self

/-- Bits that are all clear are shifted out and leave nothing behind. -/
theorem toNat_stepBits {n : Nat} {c : UInt32} (h : c.toNat % 2 ^ n = 0) :
    (stepBits n c).toNat = c.toNat / 2 ^ n := by
  induction n generalizing c with
  | zero => rw [stepBits, Nat.pow_zero, Nat.div_one]
  | succ n ih =>
    rw [Nat.pow_succ, Nat.mul_comm, Nat.mod_mul] at h
    have heven : c.toNat % 2 = 0 := by omega
    have hrest : c.toNat / 2 % 2 ^ n = 0 := by omega
    have hstep : stepBit c = c >>> 1 := stepBit_of_even (by omega)
    rw [stepBits, hstep, ih (by rwa [toNat_half]), toNat_half, Nat.div_div_eq_div_mul,
      Nat.pow_succ, Nat.mul_comm 2]

/-! ## Bytes -/

theorem stepByte_inj {c d : UInt32} {b : UInt8} : stepByte c b = stepByte d b ↔ c = d := by
  rw [stepByte, stepByte, stepBits_inj, UInt32.xor_left_inj]

/-- **States that are different stay different**, whatever bytes follow. -/
theorem run_state_inj {c d : UInt32} {bytes : List UInt8} : run c bytes = run d bytes ↔ c = d := by
  induction bytes generalizing c d with
  | nil => rfl
  | cons b bytes ih =>
    have hstep := @ih (stepByte c b) (stepByte d b)
    rw [stepByte_inj] at hstep
    exact hstep

/-- The word of bytes, the lowest first. -/
def word : List UInt8 → UInt32
  | [] => 0
  | b :: bytes => b.toUInt32 ^^^ (word bytes <<< 8)

theorem toNat_shifted (c : UInt32) : (c <<< 8).toNat = c.toNat * 256 % 4294967296 := by
  rw [UInt32.toNat_shiftLeft]
  exact congrArg (· % 4294967296) (Nat.shiftLeft_eq _ 8)

theorem word_lt {bytes : List UInt8} (h : bytes.length ≤ 4) :
    (word bytes).toNat < 256 ^ bytes.length := by
  induction bytes with
  | nil => decide
  | cons b bytes ih =>
    rw [List.length_cons] at h ⊢
    have hb : b.toNat < 256 := b.toNat_lt
    have hrest := ih (by omega)
    have hpow : (256 : Nat) ^ (bytes.length + 1) = 2 ^ (8 * (bytes.length + 1)) := by
      rw [Nat.pow_mul]
    have hone : 256 ≤ 256 ^ (bytes.length + 1) := Nat.le_self_pow (by omega) 256
    rw [word, UInt32.toNat_xor, UInt8.toNat_toUInt32, toNat_shifted, hpow]
    refine Nat.xor_lt_two_pow (by omega) (Nat.lt_of_le_of_lt (Nat.mod_le _ _) ?_)
    rw [← hpow, Nat.pow_succ]
    omega

/-- Three bytes leave room for a fourth below them. -/
theorem toNat_shifted_word {bytes : List UInt8} (h : bytes.length ≤ 3) :
    (word bytes <<< 8).toNat = (word bytes).toNat * 256 := by
  have hword : (word bytes).toNat < 256 ^ bytes.length := word_lt (by omega)
  have hroom : 256 ^ bytes.length ≤ 256 ^ 3 := Nat.pow_le_pow_right (by decide) h
  rw [toNat_shifted, Nat.mod_eq_of_lt]
  omega

/-- A word tells its bytes. -/
theorem word_inj {s t : List UInt8} (hlength : s.length = t.length) (hs : s.length ≤ 4)
    (h : word s = word t) : s = t := by
  induction s generalizing t with
  | nil => exact (List.eq_nil_of_length_eq_zero hlength.symm).symm
  | cons b s ih =>
    obtain _ | ⟨b', t⟩ := t
    · cases hlength
    simp only [List.length_cons] at hlength hs
    have hshift : ∀ {w : List UInt8}, w.length ≤ 3 → (word w <<< 8).toNat % 2 ^ 8 = 0 := by
      intro w hw
      rw [toNat_shifted_word hw]
      exact Nat.mul_mod_left _ 256
    -- the lowest byte of the word is the first of the bytes
    have hlowest : ∀ {a : UInt8} {w : List UInt8}, w.length ≤ 3 →
        (word (a :: w)).toNat % 2 ^ 8 = a.toNat := by
      intro a w hw
      have ha : a.toNat < 2 ^ 8 := a.toNat_lt
      rw [word, UInt32.toNat_xor, Nat.xor_mod_two_pow, hshift hw, UInt8.toNat_toUInt32,
        Nat.mod_eq_of_lt ha, Nat.xor_zero]
    have hfirst : b.toNat = b'.toNat := by
      rw [← hlowest (w := s) (by omega), h, hlowest (by omega)]
    obtain rfl : b = b' := UInt8.toNat_inj.1 hfirst
    rw [word, word, UInt32.xor_right_inj, ← UInt32.toNat_inj, toNat_shifted_word (by omega),
      toNat_shifted_word (by omega)] at h
    have hrest : word s = word t := UInt32.toNat_inj.1 (by omega)
    rw [ih (by omega) (by omega) hrest]

/-- **Up to four bytes go in as one word.** A byte behind the first one may as well be added to
the state eight bits further up, before the first one is divided out. -/
theorem run_eq_stepBits {bytes : List UInt8} (h : bytes.length ≤ 4) (c : UInt32) :
    run c bytes = stepBits (8 * bytes.length) (c ^^^ word bytes) := by
  induction bytes generalizing c with
  | nil => rw [word, UInt32.xor_zero]; rfl
  | cons b bytes ih =>
    rw [List.length_cons] at h ⊢
    have hshifted : stepBits 8 (word bytes <<< 8) = word bytes := by
      have hroom : (word bytes <<< 8).toNat = (word bytes).toNat * 256 :=
        toNat_shifted_word (by omega)
      rw [← UInt32.toNat_inj, toNat_stepBits (by rw [hroom]; exact Nat.mul_mod_left _ 256), hroom]
      exact Nat.mul_div_left _ (by decide)
    calc run c (b :: bytes)
        = stepBits (8 * bytes.length) (stepByte c b ^^^ word bytes) := ih (by omega) _
      _ = stepBits (8 * bytes.length) (stepBits 8 (c ^^^ b.toUInt32 ^^^ (word bytes <<< 8))) := by
          rw [stepBits_xor 8 _ (word bytes <<< 8), hshifted, stepByte]
      _ = stepBits (8 * (bytes.length + 1)) (c ^^^ word (b :: bytes)) := by
          rw [← stepBits_add, word, UInt32.xor_assoc, Nat.mul_succ, Nat.add_comm]

/-- From one state, up to four bytes are told by the state behind them. -/
theorem run_bytes_inj {c : UInt32} {s t : List UInt8} (hlength : s.length = t.length)
    (hs : s.length ≤ 4) (h : run c s = run c t) : s = t := by
  rw [run_eq_stepBits hs, run_eq_stepBits (by omega), hlength, stepBits_inj,
    UInt32.xor_right_inj] at h
  exact word_inj hlength hs h

end Crc32

/-! ## Windows -/

/-- Two inputs have one length and are different, but only inside a window of some width. -/
structure DiffersWithin {α : Type} (width : Nat) (s t : List α) : Prop where
  length_eq : s.length = t.length
  ne : s ≠ t
  window : ∃ start, ∀ k, s[k]? ≠ t[k]? → start ≤ k ∧ k < start + width

namespace DiffersWithin

variable {α : Type} {width : Nat} {s t : List α}

theorem of_parts {front v w back : List α} (hlength : v.length = w.length)
    (hwidth : v.length ≤ width) (hne : v ≠ w) :
    DiffersWithin width (front ++ v ++ back) (front ++ w ++ back) where
  length_eq := by simp [hlength]
  ne h := hne (List.append_cancel_left (List.append_cancel_right h))
  window := by
    refine ⟨front.length, fun k hk => Classical.byContradiction fun hout => hk ?_⟩
    rw [List.append_assoc, List.append_assoc]
    rcases Nat.lt_or_ge k front.length with hfront | hfront
    · rw [List.getElem?_append_left hfront, List.getElem?_append_left hfront]
    · rw [List.getElem?_append_right hfront, List.getElem?_append_right hfront,
        List.getElem?_append_right (by omega), List.getElem?_append_right (by omega), hlength]

/-- The parts in front of the window, inside it and behind it. -/
theorem exists_parts (h : DiffersWithin width s t) :
    ∃ front v w back, s = front ++ v ++ back ∧ t = front ++ w ++ back ∧
      v.length = w.length ∧ v.length ≤ width ∧ v ≠ w := by
  obtain ⟨start, hwindow⟩ := h.window
  have hsame : ∀ k, k < start ∨ start + width ≤ k → s[k]? = t[k]? := by
    intro k hk
    refine Classical.byContradiction fun hne => ?_
    have hin := hwindow k hne
    omega
  have hfront : s.take start = t.take start := by
    apply List.ext_getElem?
    intro k
    rw [List.getElem?_take, List.getElem?_take]
    split
    · exact hsame k (by omega)
    · rfl
  have hback : (s.drop start).drop width = (t.drop start).drop width := by
    apply List.ext_getElem?
    intro k
    rw [List.drop_drop, List.drop_drop, List.getElem?_drop, List.getElem?_drop]
    exact hsame _ (by omega)
  have hsplit : ∀ l : List α,
      l = l.take start ++ (l.drop start).take width ++ (l.drop start).drop width := by
    intro l
    rw [List.append_assoc, List.take_append_drop, List.take_append_drop]
  refine ⟨s.take start, (s.drop start).take width, (t.drop start).take width,
    (s.drop start).drop width, hsplit s, ?_, ?_, ?_, ?_⟩
  · rw [hfront, hback]
    exact hsplit t
  · simp [h.length_eq]
  · exact List.length_take_le _ _
  · intro heq
    apply h.ne
    rw [hsplit s, hfront, heq, hback]
    exact (hsplit t).symm

/-- What stands in front and behind makes no difference. -/
theorem append (h : DiffersWithin width s t) (front back : List α) :
    DiffersWithin width (front ++ s ++ back) (front ++ t ++ back) := by
  obtain ⟨inner, v, w, rest, rfl, rfl, hlength, hwidth, hne⟩ := h.exists_parts
  have hparts : DiffersWithin width (front ++ inner ++ v ++ (rest ++ back))
      (front ++ inner ++ w ++ (rest ++ back)) := of_parts hlength hwidth hne
  simpa only [List.append_assoc] using hparts

end DiffersWithin

/-- **A checksum shows every change within four bytes.** -/
theorem Crc32.checksum_ne {s t : List UInt8} (h : DiffersWithin 4 s t) :
    checksum s ≠ checksum t := by
  obtain ⟨front, v, w, back, rfl, rfl, hlength, hwidth, hne⟩ := h.exists_parts
  intro heq
  rw [checksum, checksum, UInt32.xor_left_inj, run_append, run_append, run_append, run_append,
    run_state_inj] at heq
  exact hne (run_bytes_inj hlength hwidth heq)

/-! ## Listings -/

theorem listingText_append (ids ids' : List String) :
    listingText (ids ++ ids') = listingText ids ++ listingText ids' := by
  apply String.toList_injective
  simp [listingText, String.toList_append]

theorem utf8_listingText_replaced (front back : List String) (id : String) :
    Text.utf8 (listingText (front ++ id :: back)) =
      Text.utf8 (listingText front) ++ Text.utf8 id ++
        (Text.utf8 "-" ++ Text.utf8 (listingText back)) := by
  have hsingle : listingText [id] = id ++ "-" := by
    apply String.toList_injective
    simp [listingText]
  rw [← List.singleton_append, listingText_append, listingText_append, hsingle]
  simp only [Text.utf8_append, List.append_assoc]

theorem listingId_inj {ids ids' : List String} :
    listingId ids = listingId ids' ↔
      Crc32.checksum (Text.utf8 (listingText ids)) =
        Crc32.checksum (Text.utf8 (listingText ids')) := by
  rw [← UInt32.toNat_inj, ← natDecimal_inj]
  rfl

/-- **The identifier of a listing shows local changes.** Two listings whose texts have one length
and differ within four bytes only have different identifiers. So has a listing in which one
identifier is replaced by another one of the same length that differs within four bytes. -/
theorem listingId_ne_of_differsWithin :
    (∀ ids ids' : List String,
      DiffersWithin 4 (Text.utf8 (listingText ids)) (Text.utf8 (listingText ids')) →
        listingId ids ≠ listingId ids') ∧
    ∀ (front back : List String) (id id' : String),
      DiffersWithin 4 (Text.utf8 id) (Text.utf8 id') →
        listingId (front ++ id :: back) ≠ listingId (front ++ id' :: back) := by
  have htexts : ∀ ids ids' : List String,
      DiffersWithin 4 (Text.utf8 (listingText ids)) (Text.utf8 (listingText ids')) →
        listingId ids ≠ listingId ids' := by
    intro ids ids' h
    rw [ne_eq, listingId_inj]
    exact Crc32.checksum_ne h
  refine ⟨htexts, ?_⟩
  intro front back id id' h
  apply htexts
  rw [utf8_listingText_replaced, utf8_listingText_replaced]
  exact h.append _ _

/-- Four characters of one identifier are replaced, between an instance without an identifier
and another one. -/
theorem listingId_ne_of_differsWithin_renamed :
    DiffersWithin 4 (Text.utf8 "mssql-0001x") (Text.utf8 "mssql-9876x") ∧
    listingId ["", "mssql-0001x", "mssql-2"] ≠ listingId ["", "mssql-9876x", "mssql-2"] := by
  have hdiffers : DiffersWithin 4 (Text.utf8 "mssql-" ++ Text.utf8 "0001" ++ Text.utf8 "x")
      (Text.utf8 "mssql-" ++ Text.utf8 "9876" ++ Text.utf8 "x") :=
    .of_parts (by decide +kernel) (by decide +kernel) (by decide +kernel)
  rw [← Text.utf8_append, ← Text.utf8_append, ← Text.utf8_append, ← Text.utf8_append] at hdiffers
  exact ⟨hdiffers, listingId_ne_of_differsWithin.2 [""] ["mssql-2"] _ _ hdiffers⟩

end DbInventory
