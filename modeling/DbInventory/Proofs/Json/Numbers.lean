/-
# DbInventory.Proofs.Json.Numbers -- numbers read and passed over

A number ends where no number goes on: what it is depends only on the digits that it takes, as
long as the text behind it starts with the same character or with none that a number may go on
with. Where a number can be read it can be passed over, since both follow one grammar.
-/

import DbInventory.Proofs.Json.Local

namespace DbInventory.Json

variable {s rest rest' : List Char}

/-! ## Digits -/

/-- What holds of the next character holds of the next one of a text in its place, if it holds
of all that no number goes on with. -/
theorem Follows.head {p : Char → Prop} (hp : ∀ c, continuesNumber c = false → p c)
    (hfollows : Follows rest rest') {t : List Char} (ht : ∀ c ∈ (t ++ rest).head?, p c) :
    ∀ c ∈ (t ++ rest').head?, p c := by
  cases t with
  | cons d t => exact ht
  | nil =>
    intro c hc
    rcases hfollows with hhead | hstops
    · exact ht c (by rwa [List.nil_append, ← show rest'.head? = rest.head? from hhead])
    · exact hp c (hstops c hc)

/-- No digit comes next. -/
def NoDigit (s : List Char) : Prop := ∀ c ∈ s.head?, isDigit c = false

/-- No exponent comes next. -/
def NoScale (s : List Char) : Prop := ∀ c ∈ s.head?, ¬(c = 'e' ∨ c = 'E')

/-- No point comes next. -/
def NoPoint (s : List Char) : Prop := ∀ c ∈ s.head?, c ≠ '.'

theorem exists_of_not_head {p : Char → Prop} (h : ¬∀ c ∈ s.head?, p c) :
    ∃ c t, s = c :: t ∧ ¬p c := by
  cases s with
  | nil => exact absurd (fun c hc => nomatch hc) h
  | cons c t =>
    refine ⟨c, t, rfl, fun hc => h ?_⟩
    intro d hd
    obtain rfl : c = d := by simpa using hd
    exact hc

theorem exists_of_not_noScale (h : ¬NoScale s) : ∃ c t, s = c :: t ∧ (c = 'e' ∨ c = 'E') := by
  obtain ⟨c, t, hs, hc⟩ := exists_of_not_head h
  exact ⟨c, t, hs, Classical.not_not.1 hc⟩

theorem exists_of_not_noPoint (h : ¬NoPoint s) : ∃ t, s = '.' :: t := by
  obtain ⟨c, t, hs, hc⟩ := exists_of_not_head h
  rw [Classical.not_not] at hc
  exact ⟨t, hc ▸ hs⟩

theorem not_isDigit_of_stop {c : Char} (h : continuesNumber c = false) : isDigit c = false := by
  simp only [continuesNumber, Bool.or_eq_false_iff] at h
  exact h.1.1.1

theorem not_scale_of_stop {c : Char} (h : continuesNumber c = false) : ¬(c = 'e' ∨ c = 'E') := by
  rintro (rfl | rfl) <;> cases h

theorem not_point_of_stop {c : Char} (h : continuesNumber c = false) : c ≠ '.' := by
  rintro rfl
  cases h

theorem noDigit_nil : NoDigit [] := by
  intro c hc
  cases hc

theorem noDigit_cons {c : Char} (h : isDigit c = false) : NoDigit (c :: s) := by
  intro d hd
  obtain rfl : c = d := by simpa using hd
  exact h

theorem noDigit_dropWhile (s : List Char) : NoDigit (s.dropWhile isDigit) := by
  intro c hc
  have hnot := List.head?_dropWhile_not isDigit s
  rw [Option.mem_def] at hc
  rw [hc] at hnot
  exact hnot

theorem isDigit_of_mem_takeWhile {c : Char} (h : c ∈ s.takeWhile isDigit) : isDigit c = true :=
  List.all_eq_true.1 List.all_takeWhile c h

theorem dropWhile_digits {digits : List Char} (hdigits : ∀ c ∈ digits, isDigit c = true)
    (hrest : NoDigit rest) : (digits ++ rest).dropWhile isDigit = rest := by
  rw [List.dropWhile_append_of_pos hdigits]
  cases rest with
  | nil => rfl
  | cons c rest => exact List.dropWhile_cons_of_neg (by simp [hrest c rfl])

theorem takeWhile_digits {digits : List Char} (hdigits : ∀ c ∈ digits, isDigit c = true)
    (hrest : NoDigit rest) : (digits ++ rest).takeWhile isDigit = digits := by
  rw [List.takeWhile_append_of_pos hdigits]
  cases rest with
  | nil => exact List.append_nil digits
  | cons c rest =>
    rw [List.takeWhile_cons_of_neg (by simp [hrest c rfl])]
    exact List.append_nil digits

/-- No digit follows a zero in front of the point. -/
theorem readIntegerDigits_zero_eq_ok_iff {digits : List Char} :
    readIntegerDigits ('0' :: s) = .ok (digits, rest) ↔
      NoDigit s ∧ digits = ['0'] ∧ rest = s := by
  cases s with
  | nil => simp [readIntegerDigits, noDigit_nil, eq_comm]
  | cons d u =>
    by_cases hd : isDigit d = true
    · simp [readIntegerDigits, NoDigit, hd]
    · have hnone : NoDigit (d :: u) := noDigit_cons (by simpa using hd)
      simp [readIntegerDigits, hd, hnone, eq_comm]

/-- The digits in front of the point, whatever stands behind them. -/
theorem exists_of_readIntegerDigits {digits : List Char}
    (h : readIntegerDigits s = .ok (digits, rest)) :
    digits ≠ [] ∧ s = digits ++ rest ∧ NoDigit rest ∧
      ∀ rest', NoDigit rest' → readIntegerDigits (digits ++ rest') = .ok (digits, rest') := by
  cases s with
  | nil => cases h
  | cons c s =>
    by_cases hzero : c = '0'
    · subst hzero
      obtain ⟨hs, rfl, rfl⟩ := readIntegerDigits_zero_eq_ok_iff.1 h
      refine ⟨by simp, rfl, hs, ?_⟩
      intro rest' hrest'
      exact readIntegerDigits_zero_eq_ok_iff.2 ⟨hrest', rfl, rfl⟩
    · by_cases hdigit : isDigit c = true
      · simp only [readIntegerDigits, if_neg hzero, if_pos hdigit, Except.ok.injEq,
          Prod.mk.injEq] at h
        obtain ⟨rfl, rfl⟩ := h
        refine ⟨by simp, ?_, noDigit_dropWhile s, ?_⟩
        · rw [List.cons_append, List.takeWhile_append_dropWhile]
        · intro rest' hrest'
          have hall : ∀ d ∈ s.takeWhile isDigit, isDigit d = true :=
            fun d hd => isDigit_of_mem_takeWhile hd
          rw [List.cons_append]
          simp only [readIntegerDigits, if_neg hzero, if_pos hdigit, takeWhile_digits hall hrest',
            dropWhile_digits hall hrest']
      · simp [readIntegerDigits, hzero, hdigit] at h

/-- The digits behind the point. -/
theorem readFractionDigits_eq_ok_iff {digits : List Char} :
    readFractionDigits s = .ok (digits, rest) ↔
      digits ≠ [] ∧ digits = s.takeWhile isDigit ∧ rest = s.dropWhile isDigit := by
  cases s with
  | nil =>
    constructor
    · intro h
      cases h
    · rintro ⟨hne, hdigits, -⟩
      exact absurd hdigits hne
  | cons c s =>
    unfold readFractionDigits
    cases hdigits : (c :: s).takeWhile isDigit with
    | nil =>
      constructor
      · intro h
        cases h
      · rintro ⟨hne, h, -⟩
        exact absurd h hne
    | cons d ds =>
      simp only [Except.ok.injEq, Prod.mk.injEq]
      constructor
      · rintro ⟨rfl, rfl⟩
        exact ⟨List.cons_ne_nil d ds, rfl, rfl⟩
      · rintro ⟨-, rfl, rfl⟩
        exact ⟨rfl, rfl⟩

theorem exists_of_readFractionDigits {digits : List Char}
    (h : readFractionDigits s = .ok (digits, rest)) :
    digits ≠ [] ∧ s = digits ++ rest ∧ NoDigit rest ∧
      ∀ rest', NoDigit rest' → readFractionDigits (digits ++ rest') = .ok (digits, rest') := by
  obtain ⟨hne, rfl, rfl⟩ := readFractionDigits_eq_ok_iff.1 h
  refine ⟨hne, List.takeWhile_append_dropWhile.symm, noDigit_dropWhile s, ?_⟩
  intro rest' hrest'
  have hall : ∀ d ∈ s.takeWhile isDigit, isDigit d = true :=
    fun d hd => isDigit_of_mem_takeWhile hd
  exact readFractionDigits_eq_ok_iff.2
    ⟨hne, (takeWhile_digits hall hrest').symm, (dropWhile_digits hall hrest').symm⟩

/-! ## Exponents -/

/-- The digits of an exponent have come to their end. -/
theorem readExponentTail_of_noDigit (vanishes : Bool) (n : Nat) (h : NoDigit s) :
    readExponentTail vanishes n s = .ok (some n, s) := by
  cases s with
  | nil => rfl
  | cons c s => simp [readExponentTail, h c rfl]

theorem exists_of_readExponentTail {vanishes : Bool} {n : Nat} {k : Option Nat}
    (h : readExponentTail vanishes n s = .ok (k, rest)) :
    ∃ digits, (∀ c ∈ digits, isDigit c = true) ∧ s = digits ++ rest ∧ NoDigit rest ∧
      ∀ rest', NoDigit rest' → readExponentTail vanishes n (digits ++ rest') = .ok (k, rest') := by
  induction s generalizing n with
  | nil =>
    cases h
    exact ⟨[], by simp, rfl, noDigit_nil, fun _ => readExponentTail_of_noDigit vanishes n⟩
  | cons c s ih =>
    by_cases hdigit : isDigit c = true
    -- an exponent that is too large is read on to its end, or refused
    · by_cases hlarge : maxExponentDigits < 10 * n + digitValue c
      · by_cases hvanishes : vanishes = true
        · simp only [readExponentTail, if_pos hdigit, if_pos hlarge, if_pos hvanishes,
            Except.ok.injEq, Prod.mk.injEq] at h
          obtain ⟨rfl, rfl⟩ := h
          have hall : ∀ d ∈ s.takeWhile isDigit, isDigit d = true :=
            fun d hd => isDigit_of_mem_takeWhile hd
          refine ⟨c :: s.takeWhile isDigit, ?_, ?_, noDigit_dropWhile s, ?_⟩
          · exact List.forall_mem_cons.2 ⟨hdigit, hall⟩
          · rw [List.cons_append, List.takeWhile_append_dropWhile]
          · intro rest' hrest'
            rw [List.cons_append]
            simp only [readExponentTail, if_pos hdigit, if_pos hlarge, if_pos hvanishes,
              dropWhile_digits hall hrest']
        · simp [readExponentTail, hdigit, hlarge, hvanishes] at h
      · simp only [readExponentTail, if_pos hdigit, if_neg hlarge] at h
        obtain ⟨digits, hdigits, rfl, hrest, hagain⟩ := ih h
        refine ⟨c :: digits, List.forall_mem_cons.2 ⟨hdigit, hdigits⟩, rfl, hrest, ?_⟩
        intro rest' hrest'
        rw [List.cons_append]
        simp only [readExponentTail, if_pos hdigit, if_neg hlarge]
        exact hagain rest' hrest'
    · have hnone : NoDigit (c :: s) := noDigit_cons (by simpa using hdigit)
      rw [readExponentTail_of_noDigit vanishes n hnone] at h
      cases h
      exact ⟨[], by simp, rfl, hnone, fun _ => readExponentTail_of_noDigit vanishes n⟩

/-- An exponent behind its sign. -/
def readUnsignedExponent (negative isZero : Bool) : Reader (Option Int) := fun s =>
  match s with
  | [] => .error (.here .eofInValue [])
  | c :: s =>
    if isDigit c then do
      let (n, s) ← readExponentTail (isZero || negative) (digitValue c) s
      .ok (n.map fun n => if negative then -(n : Int) else n, s)
    else .error (.next .invalidNumber (c :: s))

/-- Whether a minus sign is in front, and what is behind the sign. -/
def splitSign : List Char → Bool × List Char
  | '-' :: s => (true, s)
  | '+' :: s => (false, s)
  | s => (false, s)

theorem readExponent_eq (isZero : Bool) (s : List Char) :
    readExponent isZero s = readUnsignedExponent (splitSign s).1 isZero (splitSign s).2 := by
  unfold readExponent
  split
  next negative u hsign =>
    rw [show splitSign s = (negative, u) from hsign]
    rfl

theorem skipExponent_eq (s : List Char) :
    skipExponent s =
      match (splitSign s).2 with
      | [] => .error (.here .invalidNumber [])
      | c :: s =>
        if isDigit c then .ok (s.dropWhile isDigit)
        else .error (.next .invalidNumber (c :: s)) := by
  rcases s with _ | ⟨c, s⟩
  · rfl
  · by_cases hminus : c = '-'
    · subst hminus
      rfl
    · by_cases hplus : c = '+'
      · subst hplus
        rfl
      · simp [skipExponent, splitSign, hminus, hplus]

/-- A sign in front of digits, whatever stands behind them. -/
theorem exists_sign (s : List Char) :
    ∃ sign, s = sign ++ (splitSign s).2 ∧
      ∀ c u u', (splitSign s).2 = c :: u → isDigit c = true →
        splitSign (sign ++ c :: u') = ((splitSign s).1, c :: u') := by
  rcases s with _ | ⟨c, s⟩
  · exact ⟨[], rfl, fun c u u' h => nomatch h⟩
  · by_cases hminus : c = '-'
    · subst hminus
      exact ⟨['-'], rfl, fun _ _ _ _ _ => rfl⟩
    · by_cases hplus : c = '+'
      · subst hplus
        exact ⟨['+'], rfl, fun _ _ _ _ _ => rfl⟩
      · have hsplit : ∀ u, splitSign (c :: u) = (false, c :: u) := by
          intro u
          simp [splitSign, hminus, hplus]
        refine ⟨[], by rw [hsplit]; rfl, ?_⟩
        intro d u u' hd _
        rw [hsplit] at hd
        obtain ⟨rfl, -⟩ := List.cons.inj hd
        rw [List.nil_append, hsplit, hsplit]

theorem exists_of_readExponent {isZero : Bool} {k : Option Int}
    (h : readExponent isZero s = .ok (k, rest)) :
    ∃ t, s = t ++ rest ∧ NoDigit rest ∧ skipExponent s = .ok rest ∧
      ∀ rest', NoDigit rest' → readExponent isZero (t ++ rest') = .ok (k, rest') := by
  obtain ⟨sign, hs, hagain⟩ := exists_sign s
  rw [readExponent_eq] at h
  cases hu : (splitSign s).2 with
  | nil => rw [hu] at h; cases h
  | cons c u =>
    rw [hu] at h hs
    by_cases hdigit : isDigit c = true
    · simp only [readUnsignedExponent, if_pos hdigit, bind_eq_ok, Prod.exists] at h
      obtain ⟨n, r, htail, h⟩ := h
      simp only [Except.ok.injEq, Prod.mk.injEq] at h
      obtain ⟨rfl, rfl⟩ := h
      obtain ⟨digits, hdigits, rfl, hrest, htail'⟩ := exists_of_readExponentTail htail
      refine ⟨sign ++ c :: digits, by rw [List.append_assoc]; exact hs, hrest, ?_, ?_⟩
      · rw [skipExponent_eq, hu]
        simp only [if_pos hdigit, dropWhile_digits hdigits hrest]
      · intro rest' hrest'
        rw [List.append_assoc, List.cons_append, readExponent_eq,
          hagain c _ (digits ++ rest') hu hdigit]
        simp only [readUnsignedExponent, if_pos hdigit, htail' rest' hrest', bind, Except.bind]
    · simp [readUnsignedExponent, hdigit] at h

/-! ## Numbers -/

/-- What a number is does not depend on what stands behind it. -/
theorem finishFloat_eq_ok_iff {negative : Bool} {significand : Nat} {exponent : Int}
    {x : Number} :
    finishFloat negative significand exponent s = .ok (x, rest) ↔
      ((Binary64.ofDecimal negative significand exponent).map Number.float = some x ∧
        s = rest) := by
  unfold finishFloat
  cases Binary64.ofDecimal negative significand exponent with
  | none => simp
  | some y => simp

theorem finishWhole_congr {negative : Bool} {significand : Nat} {x : Number}
    (h : finishWhole negative significand s = .ok (x, rest)) :
    s = rest ∧ ∀ rest', finishWhole negative significand rest' = .ok (x, rest') := by
  unfold finishWhole at h ⊢
  split at h
  next hzero =>
    obtain ⟨hx, rfl⟩ := finishFloat_eq_ok_iff.1 h
    refine ⟨rfl, fun rest' => ?_⟩
    rw [if_pos hzero]
    exact finishFloat_eq_ok_iff.2 ⟨hx, rfl⟩
  next hzero =>
    simp only [if_neg hzero]
    split at h
    next n hn =>
      simp only [Except.ok.injEq, Prod.mk.injEq] at h
      obtain ⟨rfl, rfl⟩ := h
      exact ⟨rfl, fun rest' => rfl⟩
    next hn =>
      obtain ⟨hx, rfl⟩ := finishFloat_eq_ok_iff.1 h
      exact ⟨rfl, fun rest' => finishFloat_eq_ok_iff.2 ⟨hx, rfl⟩⟩

theorem finishScaled_of_noScale {negative : Bool} {significand : Nat} {exponent : Int}
    (h : NoScale s) :
    finishScaled negative significand exponent s = finishFloat negative significand exponent s := by
  cases s with
  | nil => rfl
  | cons c s => exact if_neg (h c rfl)

/-- A number with the shift of its exponent. The exponent may have been dropped, but what is left
of the text is the same. -/
def finishShifted (negative : Bool) (significand : Nat) (exponent : Int) (shift : Option Int) :
    Reader Number := fun s =>
  match shift with
  | some shift => finishFloat negative significand (exponent + shift) s
  | none => finishFloat negative 0 0 s

theorem finishShifted_congr {negative : Bool} {significand : Nat} {exponent : Int}
    {shift : Option Int} {x : Number}
    (h : finishShifted negative significand exponent shift s = .ok (x, rest)) :
    s = rest ∧
      ∀ rest', finishShifted negative significand exponent shift rest' = .ok (x, rest') := by
  unfold finishShifted at h ⊢
  cases shift with
  | none =>
    obtain ⟨hx, rfl⟩ := finishFloat_eq_ok_iff.1 h
    exact ⟨rfl, fun rest' => finishFloat_eq_ok_iff.2 ⟨hx, rfl⟩⟩
  | some shift =>
    obtain ⟨hx, rfl⟩ := finishFloat_eq_ok_iff.1 h
    exact ⟨rfl, fun rest' => finishFloat_eq_ok_iff.2 ⟨hx, rfl⟩⟩

theorem finishScaled_of_scale {negative : Bool} {significand : Nat} {exponent : Int} {c : Char}
    (hc : c = 'e' ∨ c = 'E') (s : List Char) :
    finishScaled negative significand exponent (c :: s) =
      readExponent (significand == 0) s >>= fun p =>
        finishShifted negative significand exponent p.1 p.2 :=
  if_pos hc

theorem skipScale_of_noScale (h : NoScale s) : skipScale s = .ok s := by
  cases s with
  | nil => rfl
  | cons c s => exact if_neg (h c rfl)

theorem exists_of_finishScaled {negative : Bool} {significand : Nat} {exponent : Int}
    {x : Number} (h : finishScaled negative significand exponent s = .ok (x, rest)) :
    ∃ t, (t = [] → NoScale s) ∧ s = t ++ rest ∧ skipScale s = .ok rest ∧
      ∀ rest', Follows rest rest' →
        finishScaled negative significand exponent (t ++ rest') = .ok (x, rest') := by
  by_cases hscale : NoScale s
  · rw [finishScaled_of_noScale hscale] at h
    obtain ⟨hx, rfl⟩ := finishFloat_eq_ok_iff.1 h
    refine ⟨[], fun _ => hscale, rfl, skipScale_of_noScale hscale, ?_⟩
    intro rest' hrest'
    have hscale' : NoScale ([] ++ rest') := hrest'.head (fun c => not_scale_of_stop) hscale
    rw [finishScaled_of_noScale hscale']
    exact finishFloat_eq_ok_iff.2 ⟨hx, rfl⟩
  · obtain ⟨c, u, rfl, hc⟩ := exists_of_not_noScale hscale
    simp only [finishScaled_of_scale hc, bind_eq_ok, Prod.exists] at h
    obtain ⟨shift, r, hshift, h⟩ := h
    obtain ⟨t, rfl, hrest, hskip, hagain⟩ := exists_of_readExponent hshift
    obtain ⟨rfl, hfloat⟩ := finishShifted_congr h
    refine ⟨c :: t, by simp, rfl, ?_, ?_⟩
    · rw [skipScale, if_pos hc, hskip]
    · intro rest' hrest'
      have hdigit : NoDigit ([] ++ rest') := hrest'.head (fun c => not_isDigit_of_stop) hrest
      rw [List.cons_append, finishScaled_of_scale hc, bind_eq_ok]
      exact ⟨(shift, rest'), hagain rest' hdigit, hfloat rest'⟩

/-- The rest of a number behind the digits in front of the point. -/
def finishNumber (negative : Bool) (digits : List Char) : Reader Number := fun s =>
  match s with
  | '.' :: t => do
    let (fraction, t) ← readFractionDigits t
    let (all, ignored) := absorb (absorb 0 digits).1 fraction
    let places := fraction.length - ignored.length
    finishScaled negative all (((absorb 0 digits).2.length : Int) - places) t
  | s =>
    if (absorb 0 digits).2.isEmpty && !(s.head? == some 'e' || s.head? == some 'E') then
      finishWhole negative (absorb 0 digits).1 s
    else finishScaled negative (absorb 0 digits).1 (absorb 0 digits).2.length s

theorem readNumber_eq (negative : Bool) (s : List Char) :
    readNumber negative s =
      (do let (digits, s) ← readIntegerDigits s
          finishNumber negative digits s) := by
  rfl

/-- The text starts with no exponent, as it is tested. -/
theorem noScale_iff : (!(s.head? == some 'e' || s.head? == some 'E')) = true ↔ NoScale s := by
  unfold NoScale
  cases s with
  | nil => simp
  | cons c s => simp

theorem finishNumber_of_noPoint {negative : Bool} {digits : List Char} (h : NoPoint s) :
    finishNumber negative digits s =
      if (absorb 0 digits).2.isEmpty && !(s.head? == some 'e' || s.head? == some 'E') then
        finishWhole negative (absorb 0 digits).1 s
      else finishScaled negative (absorb 0 digits).1 (absorb 0 digits).2.length s := by
  cases s with
  | nil => rfl
  | cons c s => simp [finishNumber, h c rfl]

/-- A whole number: few digits, and no exponent behind them. -/
theorem finishNumber_of_whole {negative : Bool} {digits : List Char} (hpoint : NoPoint s)
    (hdigits : (absorb 0 digits).2.isEmpty = true) (hscale : NoScale s) :
    finishNumber negative digits s = finishWhole negative (absorb 0 digits).1 s := by
  rw [finishNumber_of_noPoint hpoint, hdigits, noScale_iff.2 hscale]
  rfl

/-- Any other number without a point. -/
theorem finishNumber_of_scaled {negative : Bool} {digits : List Char} (hpoint : NoPoint s)
    (h : ¬((absorb 0 digits).2.isEmpty = true ∧ NoScale s)) :
    finishNumber negative digits s =
      finishScaled negative (absorb 0 digits).1 (absorb 0 digits).2.length s := by
  rw [finishNumber_of_noPoint hpoint]
  apply if_neg
  rwa [Bool.and_eq_true, noScale_iff]

/-- The text behind a number whose digits in front of the point are passed. -/
def skipDecimals (s : List Char) : Except Fault (List Char) :=
  match s with
  | '.' :: t =>
    if (t.takeWhile isDigit).isEmpty then .error (.next .invalidNumber t)
    else skipScale (t.dropWhile isDigit)
  | s => skipScale s

theorem skipDecimals_of_noPoint (h : NoPoint s) : skipDecimals s = skipScale s := by
  cases s with
  | nil => rfl
  | cons c s => simp [skipDecimals, h c rfl]

theorem skipNumber_cons (c : Char) (s : List Char) :
    skipNumber (c :: s) = readIntegerDigits (c :: s) >>= fun r => skipDecimals r.2 := by
  unfold skipNumber
  cases readIntegerDigits (c :: s) with
  | error e => rfl
  | ok r => rfl

/-- The rest of a number that has no point. -/
theorem exists_of_finishNumber_noPoint {negative : Bool} {digits : List Char} {x : Number}
    (hpoint : NoPoint s) (h : finishNumber negative digits s = .ok (x, rest)) :
    ∃ t, s = t ++ rest ∧ skipDecimals s = .ok rest ∧ ∀ rest', Follows rest rest' →
      finishNumber negative digits (t ++ rest') = .ok (x, rest') := by
  rw [skipDecimals_of_noPoint hpoint]
  by_cases hwhole : (absorb 0 digits).2.isEmpty = true ∧ NoScale s
  · obtain ⟨hdigits, hscale⟩ := hwhole
    rw [finishNumber_of_whole hpoint hdigits hscale] at h
    -- nothing behind the digits belongs to the number, and the same is true of `rest'`
    obtain ⟨rfl, hagain⟩ := finishWhole_congr h
    refine ⟨[], rfl, skipScale_of_noScale hscale, ?_⟩
    intro rest' hrest'
    have hpoint' : NoPoint ([] ++ rest') := hrest'.head (fun c => not_point_of_stop) hpoint
    have hscale' : NoScale ([] ++ rest') := hrest'.head (fun c => not_scale_of_stop) hscale
    rw [finishNumber_of_whole hpoint' hdigits hscale']
    exact hagain rest'
  · rw [finishNumber_of_scaled hpoint hwhole] at h
    obtain ⟨t, hnil, rfl, hskip, hagain⟩ := exists_of_finishScaled h
    refine ⟨t, rfl, hskip, ?_⟩
    intro rest' hrest'
    have hpoint' : NoPoint (t ++ rest') := hrest'.head (fun c => not_point_of_stop) hpoint
    -- a number that is read on for its exponent, or for its many digits, is read on again
    have hwhole' : ¬((absorb 0 digits).2.isEmpty = true ∧ NoScale (t ++ rest')) := by
      rintro ⟨hdigits, hscale⟩
      apply hwhole
      refine ⟨hdigits, ?_⟩
      cases t with
      | nil => exact hnil rfl
      | cons c t => exact hscale
    rw [finishNumber_of_scaled hpoint' hwhole']
    exact hagain rest' hrest'

/-- The rest of a number that has a point. -/
theorem exists_of_finishNumber_point {negative : Bool} {digits : List Char} {x : Number}
    (h : finishNumber negative digits ('.' :: s) = .ok (x, rest)) :
    ∃ t, s = t ++ rest ∧ skipDecimals ('.' :: s) = .ok rest ∧ ∀ rest', Follows rest rest' →
      finishNumber negative digits ('.' :: t ++ rest') = .ok (x, rest') := by
  simp only [finishNumber, bind_eq_ok, Prod.exists] at h
  obtain ⟨fraction, m, hfraction, h⟩ := h
  obtain ⟨hne, rfl, hm, hagain⟩ := exists_of_readFractionDigits hfraction
  obtain ⟨-, htake, hdrop⟩ := readFractionDigits_eq_ok_iff.1 hfraction
  obtain ⟨t, -, rfl, hskip, hagain'⟩ := exists_of_finishScaled h
  refine ⟨fraction ++ t, by simp, ?_, ?_⟩
  · have hnonempty : ¬((fraction ++ (t ++ rest)).takeWhile isDigit).isEmpty = true := by
      rw [← htake]
      simpa using hne
    exact (if_neg hnonempty).trans (by rw [← hdrop, hskip])
  · intro rest' hrest'
    have hm' : NoDigit (t ++ rest') := hrest'.head (fun c => not_isDigit_of_stop) hm
    simp only [List.cons_append, List.append_assoc, finishNumber, bind_eq_ok, Prod.exists]
    exact ⟨fraction, t ++ rest', hagain _ hm', hagain' rest' hrest'⟩

/-- **A number depends on one character behind it**, and where it is read it is passed over. -/
theorem exists_of_readNumber {negative : Bool} {x : Number}
    (h : readNumber negative s = .ok (x, rest)) :
    ∃ t, t ≠ [] ∧ s = t ++ rest ∧ skipNumber s = .ok rest ∧ ∀ rest', Follows rest rest' →
      readNumber negative (t ++ rest') = .ok (x, rest') := by
  simp only [readNumber_eq, bind_eq_ok, Prod.exists] at h
  obtain ⟨digits, m, hdigits, h⟩ := h
  obtain ⟨hne, rfl, hm, hagain⟩ := exists_of_readIntegerDigits hdigits
  -- behind the digits there is a point or none, and no more digits in either case
  obtain ⟨t, rfl, hskip, hagain'⟩ : ∃ t, m = t ++ rest ∧ skipDecimals m = .ok rest ∧
      ∀ rest', Follows rest rest' →
        finishNumber negative digits (t ++ rest') = .ok (x, rest') := by
    by_cases hpoint : NoPoint m
    · exact exists_of_finishNumber_noPoint hpoint h
    · obtain ⟨m, rfl⟩ := exists_of_not_noPoint hpoint
      obtain ⟨t, rfl, hskip, hagain'⟩ := exists_of_finishNumber_point h
      exact ⟨'.' :: t, rfl, hskip, hagain'⟩
  refine ⟨digits ++ t, by simp [hne], by simp, ?_, ?_⟩
  · cases hs : digits ++ (t ++ rest) with
    | nil => simp [hne] at hs
    | cons c u =>
      rw [skipNumber_cons, ← hs]
      exact bind_eq_ok.2 ⟨_, hdigits, hskip⟩
  · intro rest' hrest'
    have hm' : NoDigit (t ++ rest') := hrest'.head (fun c => not_isDigit_of_stop) hm
    simp only [readNumber_eq, List.append_assoc, bind_eq_ok, Prod.exists]
    exact ⟨digits, t ++ rest', hagain _ hm', hagain' rest' hrest'⟩

theorem local_readNumber (negative : Bool) (x : Number) :
    Local fun s rest => readNumber negative s = .ok (x, rest) := by
  intro s rest h
  obtain ⟨t, ht, hs, -, hagain⟩ := exists_of_readNumber h
  exact ⟨t, ht, hs, hagain⟩

theorem skipNumber_of_readNumber {negative : Bool} {x : Number}
    (h : readNumber negative s = .ok (x, rest)) : skipNumber s = .ok rest := by
  obtain ⟨t, -, -, hskip, -⟩ := exists_of_readNumber h
  exact hskip

/-! ## Passing over numbers -/

theorem exists_of_skipExponent (h : skipExponent s = .ok rest) :
    ∃ t, s = t ++ rest ∧ NoDigit rest ∧
      ∀ rest', NoDigit rest' → skipExponent (t ++ rest') = .ok rest' := by
  obtain ⟨sign, hs, hagain⟩ := exists_sign s
  rw [skipExponent_eq] at h
  cases hu : (splitSign s).2 with
  | nil => rw [hu] at h; cases h
  | cons c u =>
    rw [hu] at h hs
    by_cases hdigit : isDigit c = true
    · simp only [if_pos hdigit, Except.ok.injEq] at h
      subst h
      have hall : ∀ d ∈ u.takeWhile isDigit, isDigit d = true :=
        fun d hd => isDigit_of_mem_takeWhile hd
      refine ⟨sign ++ c :: u.takeWhile isDigit, ?_, noDigit_dropWhile u, ?_⟩
      · rw [List.append_assoc, List.cons_append, List.takeWhile_append_dropWhile]
        exact hs
      · intro rest' hrest'
        rw [List.append_assoc, List.cons_append, skipExponent_eq,
          hagain c _ (u.takeWhile isDigit ++ rest') hu hdigit]
        simp only [if_pos hdigit, dropWhile_digits hall hrest']
    · simp [hdigit] at h

theorem exists_of_skipScale (h : skipScale s = .ok rest) :
    ∃ t, s = t ++ rest ∧ ∀ rest', Follows rest rest' → skipScale (t ++ rest') = .ok rest' := by
  by_cases hscale : NoScale s
  · rw [skipScale_of_noScale hscale] at h
    obtain rfl := Except.ok.inj h
    refine ⟨[], rfl, fun rest' hrest' => ?_⟩
    have hscale' : NoScale ([] ++ rest') := hrest'.head (fun c => not_scale_of_stop) hscale
    exact skipScale_of_noScale hscale'
  · obtain ⟨c, u, rfl, hc⟩ := exists_of_not_noScale hscale
    rw [skipScale, if_pos hc] at h
    obtain ⟨t, rfl, hrest, hagain⟩ := exists_of_skipExponent h
    refine ⟨c :: t, rfl, fun rest' hrest' => ?_⟩
    have hdigit : NoDigit ([] ++ rest') := hrest'.head (fun c => not_isDigit_of_stop) hrest
    rw [List.cons_append, skipScale, if_pos hc]
    exact hagain rest' hdigit

theorem exists_of_skipDecimals (h : skipDecimals s = .ok rest) :
    ∃ t, s = t ++ rest ∧ ∀ rest', Follows rest rest' → skipDecimals (t ++ rest') = .ok rest' := by
  by_cases hpoint : NoPoint s
  · rw [skipDecimals_of_noPoint hpoint] at h
    obtain ⟨t, rfl, hagain⟩ := exists_of_skipScale h
    refine ⟨t, rfl, fun rest' hrest' => ?_⟩
    have hpoint' : NoPoint (t ++ rest') := hrest'.head (fun c => not_point_of_stop) hpoint
    rw [skipDecimals_of_noPoint hpoint']
    exact hagain rest' hrest'
  · obtain ⟨u, rfl⟩ := exists_of_not_noPoint hpoint
    by_cases hempty : (u.takeWhile isDigit).isEmpty = true
    · simp [skipDecimals, hempty] at h
    · simp only [skipDecimals, if_neg hempty] at h
      obtain ⟨t, ht, hagain⟩ := exists_of_skipScale h
      refine ⟨'.' :: (u.takeWhile isDigit ++ t), ?_, fun rest' hrest' => ?_⟩
      · rw [List.cons_append, List.append_assoc, ← ht, List.takeWhile_append_dropWhile]
      · have hall : ∀ d ∈ u.takeWhile isDigit, isDigit d = true :=
          fun d hd => isDigit_of_mem_takeWhile hd
        have hdigit : NoDigit (t ++ rest') := by
          refine hrest'.head (fun c => not_isDigit_of_stop) ?_
          rw [← ht]
          exact noDigit_dropWhile u
        rw [List.cons_append, List.append_assoc]
        simp only [skipDecimals, takeWhile_digits hall hdigit, if_neg hempty,
          dropWhile_digits hall hdigit]
        exact hagain rest' hrest'

theorem local_skipNumber : Local fun s rest => skipNumber s = .ok rest := by
  intro s rest h
  cases s with
  | nil => cases h
  | cons c u =>
    rw [skipNumber_cons] at h
    obtain ⟨⟨digits, m⟩, hdigits, hskip⟩ := bind_eq_ok.1 h
    obtain ⟨hne, hs, hm, hagain⟩ := exists_of_readIntegerDigits hdigits
    obtain ⟨t, rfl, hagain'⟩ := exists_of_skipDecimals hskip
    refine ⟨digits ++ t, by simp [hne], by rw [hs, List.append_assoc], ?_⟩
    intro rest' hrest'
    have hm' : NoDigit (t ++ rest') := hrest'.head (fun c => not_isDigit_of_stop) hm
    cases hs' : digits ++ (t ++ rest') with
    | nil => simp [hne] at hs'
    | cons c u =>
      rw [List.append_assoc, hs', skipNumber_cons, ← hs']
      exact bind_eq_ok.2 ⟨_, hagain _ hm', hagain' rest' hrest'⟩

end DbInventory.Json
