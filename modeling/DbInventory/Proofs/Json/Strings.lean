/-
# DbInventory.Proofs.Json.Strings -- strings read and passed over

An escape looks at as many characters as it takes. So a string depends on nothing behind its
closing quote, and where a string can be read it can be passed over: the escapes of a surrogate
pair are then passed over one by one.
-/

import DbInventory.Proofs.Json.Local

namespace DbInventory.Json

variable {s rest t w w' : List Char} {n : Nat}

/-! ## Escapes -/

theorem hexEscape_append {code : Nat} (h : hexEscape (t ++ w) = .ok code) (ht : 4 ≤ t.length) :
    hexEscape (t ++ w') = .ok code := by
  obtain ⟨a, b, c, d, t, rfl⟩ : ∃ a b c d u, t = a :: b :: c :: d :: u := by
    match t, ht with
    | a :: b :: c :: d :: u, _ => exact ⟨a, b, c, d, u, rfl⟩
  simp only [List.cons_append, hexEscape] at h ⊢
  split at h
  · exact h
  · cases h

theorem length_of_hexEscape {code : Nat} (h : hexEscape s = .ok code) : 4 ≤ s.length := by
  match s, h with
  | _ :: _ :: _ :: _ :: _, _ => simp
  | [], h => simp [hexEscape, byteLength] at h
  | [_], h => simp [hexEscape] at h; split at h <;> cases h
  | [_, _], h => simp [hexEscape] at h; split at h <;> cases h
  | [_, _, _], h => simp [hexEscape] at h; split at h <;> cases h

/-- A second half is an escape behind a backslash. -/
theorem lowSurrogate_eq_ok_iff {code : Nat} :
    lowSurrogate s = .ok code ↔
      ∃ u, s = '\\' :: 'u' :: u ∧ hexEscape u = .ok code ∧ isLowSurrogate code = true := by
  unfold lowSurrogate
  match s with
  | [] => simp
  | c :: s =>
    by_cases hc : c = '\\'
    · subst hc
      match s with
      | [] => simp
      | d :: s =>
        by_cases hd : d = 'u'
        · subst hd
          simp only [if_true, bind_eq_ok]
          constructor
          · rintro ⟨low, hlow, h⟩
            split at h
            next hsurrogate =>
              obtain rfl := Except.ok.inj h
              exact ⟨s, rfl, hlow, hsurrogate⟩
            · cases h
          · rintro ⟨u, hu, hlow, hsurrogate⟩
            obtain rfl : s = u := by simpa using hu
            exact ⟨code, hlow, by rw [if_pos hsurrogate]⟩
        · simp [hd]
    · simp [hc]

/-- The escapes, each with its character and with how many characters it takes: a letter, one
code, or the codes of a surrogate pair. -/
inductive IsEscape : List Char → Char → Nat → Prop
  | letter {c e : Char} {s : List Char} (hc : c ≠ 'u') (h : letterEscape c = some e) :
    IsEscape (c :: s) e 1
  | code {s : List Char} {n : Nat} (h : hexEscape s = .ok n) (hlow : isLowSurrogate n = false)
    (hhigh : isHighSurrogate n = false) : IsEscape ('u' :: s) (Char.ofNat n) 5
  | pair {s u : List Char} {n m : Nat} (h : hexEscape s = .ok n)
    (hlow : isLowSurrogate n = false) (hhigh : isHighSurrogate n = true)
    (hdrop : s.drop 4 = '\\' :: 'u' :: u) (hm : hexEscape u = .ok m)
    (hsecond : isLowSurrogate m = true) :
    IsEscape ('u' :: s) (Char.ofNat (0x10000 + 0x400 * (n - 0xD800) + (m - 0xDC00))) 11

theorem readEscape_eq_ok_iff {c : Char} : readEscape s = .ok (c, n) ↔ IsEscape s c n := by
  constructor
  · intro h
    unfold readEscape at h
    match s with
    | [] => cases h
    | d :: s =>
      by_cases hd : d = 'u'
      · subst hd
        simp only [if_true, bind_eq_ok] at h
        obtain ⟨code, hcode, h⟩ := h
        split at h
        · cases h
        next hlow =>
          rw [Bool.not_eq_true] at hlow
          split at h
          next hhigh =>
            obtain ⟨low, hsecond, h⟩ := bind_eq_ok.1 h
            obtain ⟨u, hu, hcode', hsecond⟩ := lowSurrogate_eq_ok_iff.1 hsecond
            simp only [Except.ok.injEq, Prod.mk.injEq] at h
            obtain ⟨rfl, rfl⟩ := h
            exact .pair hcode hlow hhigh hu hcode' hsecond
          next hhigh =>
            rw [Bool.not_eq_true] at hhigh
            simp only [Except.ok.injEq, Prod.mk.injEq] at h
            obtain ⟨rfl, rfl⟩ := h
            exact .code hcode hlow hhigh
      · simp only [if_neg hd] at h
        cases hletter : letterEscape d with
        | none => simp [hletter] at h
        | some e =>
          simp only [hletter, Except.ok.injEq, Prod.mk.injEq] at h
          obtain ⟨rfl, rfl⟩ := h
          exact .letter hd hletter
  · intro h
    cases h with
    | letter hc h => simp [readEscape, hc, h]
    | code h hlow hhigh => simp [readEscape, h, hlow, hhigh, bind, Except.bind]
    | pair h hlow hhigh hdrop hm hsecond =>
      have hsurrogate := lowSurrogate_eq_ok_iff.2 ⟨_, hdrop, hm, hsecond⟩
      simp [readEscape, h, hlow, hhigh, hsurrogate, bind, Except.bind]

theorem IsEscape.le_length {c : Char} (h : IsEscape s c n) : n ≤ s.length := by
  cases h with
  | letter hc h => simp
  | code h hlow hhigh =>
    have hs := length_of_hexEscape h
    simp only [List.length_cons]
    omega
  | @pair s u _ _ h hlow hhigh hdrop hm hsecond =>
    have hu := length_of_hexEscape hm
    have hs : (s.drop 4).length = u.length + 2 := by simp [hdrop]
    rw [List.length_drop] at hs
    simp only [List.length_cons]
    omega

/-- An escape looks at no more than it takes. -/
theorem IsEscape.append {c : Char} (h : IsEscape (t ++ w) c n) (hn : n ≤ t.length) :
    IsEscape (t ++ w') c n := by
  cases t with
  | nil =>
    rw [List.nil_append] at h
    obtain rfl : n = 0 := Nat.le_zero.1 hn
    cases h
  | cons d t =>
    rw [List.length_cons] at hn
    rw [List.cons_append] at h ⊢
    cases h with
    | letter hc h => exact .letter hc h
    | code h hlow hhigh => exact .code (hexEscape_append h (by omega)) hlow hhigh
    | pair h hlow hhigh hdrop hm hsecond =>
      -- the second escape of a pair lies within the eleven characters as well
      obtain ⟨a, b, c, d, e, f, t, rfl⟩ : ∃ a b c d e f v, t = a :: b :: c :: d :: e :: f :: v := by
        match t, hn with
        | a :: b :: c :: d :: e :: f :: v, _ => exact ⟨a, b, c, d, e, f, v, rfl⟩
      simp only [List.cons_append, List.drop_succ_cons, List.drop_zero, List.cons.injEq] at hdrop
      obtain ⟨rfl, rfl, rfl⟩ := hdrop
      simp only [List.length_cons] at hn
      exact .pair (hexEscape_append h (by simp)) hlow hhigh rfl (hexEscape_append hm (by omega))
        hsecond

/-- Passing over an escape asks for less. -/
theorem skipEscape_eq_ok_iff :
    skipEscape s = .ok n ↔
      (∃ c u, s = c :: u ∧ c ≠ 'u' ∧ (letterEscape c).isSome ∧ n = 1) ∨
        ∃ u code, s = 'u' :: u ∧ hexEscape u = .ok code ∧ n = 5 := by
  constructor
  · intro h
    cases s with
    | nil => cases h
    | cons c s =>
      by_cases hc : c = 'u'
      · subst hc
        obtain ⟨code, hcode, hn⟩ := bind_eq_ok.1 h
        exact .inr ⟨s, code, rfl, hcode, (Except.ok.inj hn).symm⟩
      · simp only [skipEscape, if_neg hc] at h
        split at h
        next hletter => exact .inl ⟨c, s, rfl, hc, hletter, (Except.ok.inj h).symm⟩
        · cases h
  · rintro (⟨c, u, rfl, hc, hletter, rfl⟩ | ⟨u, code, rfl, hcode, rfl⟩)
    · simp [skipEscape, hc, hletter]
    · simp [skipEscape, hcode, bind, Except.bind]

theorem length_of_skipEscape (h : skipEscape s = .ok n) : n ≤ s.length := by
  rcases skipEscape_eq_ok_iff.1 h with ⟨c, u, rfl, -, -, rfl⟩ | ⟨u, code, rfl, hcode, rfl⟩
  · simp
  · have hu := length_of_hexEscape hcode
    simp only [List.length_cons]
    omega

theorem skipEscape_append (h : skipEscape (t ++ w) = .ok n) (hn : n ≤ t.length) :
    skipEscape (t ++ w') = .ok n := by
  have hpos : n ≠ 0 := by
    rcases skipEscape_eq_ok_iff.1 h with ⟨-, -, -, -, -, rfl⟩ | ⟨-, -, -, -, rfl⟩ <;> decide
  cases t with
  | nil => exact absurd (Nat.le_zero.1 hn) hpos
  | cons d t =>
    rw [List.length_cons] at hn
    rw [List.cons_append] at h
    apply skipEscape_eq_ok_iff.2
    rcases skipEscape_eq_ok_iff.1 h with ⟨c, u, hcu, hc, hletter, rfl⟩ | ⟨u, code, hcu, hcode, rfl⟩
    · obtain ⟨rfl, rfl⟩ := List.cons.inj hcu
      exact .inl ⟨d, t ++ w', rfl, hc, hletter, rfl⟩
    · obtain ⟨rfl, rfl⟩ := List.cons.inj hcu
      exact .inr ⟨t ++ w', code, rfl, hexEscape_append hcode (by omega), rfl⟩

/-! ## Strings -/

/-- A character that stands for itself. -/
def IsPlain (c : Char) : Prop := c ≠ '"' ∧ c ≠ '\\' ∧ ¬c < ' '

/-- A string up to behind its closing quote, with `n` characters of an escape still to pass. -/
inductive StringText : Nat → List Char → List Char → List Char → Prop
  | passed {n : Nat} {c : Char} {s chars rest : List Char} (h : StringText n s chars rest) :
    StringText (n + 1) (c :: s) chars rest
  | closed {s : List Char} : StringText 0 ('"' :: s) [] s
  | escape {e : Char} {n : Nat} {s chars rest : List Char} (hescape : IsEscape s e n)
    (h : StringText n s chars rest) : StringText 0 ('\\' :: s) (e :: chars) rest
  | plain {c : Char} {s chars rest : List Char} (hc : IsPlain c)
    (h : StringText 0 s chars rest) : StringText 0 (c :: s) (c :: chars) rest

theorem readChars_eq_ok_iff {chars : List Char} :
    readChars n s = .ok (chars, rest) ↔ StringText n s chars rest := by
  constructor
  · intro h
    induction s generalizing n chars with
    | nil => cases n <;> simp [readChars] at h
    | cons c s ih =>
      cases n with
      | succ n => exact .passed (ih h)
      | zero =>
        unfold readChars at h
        split at h
        next hquote =>
          cases h
          rw [hquote]
          exact .closed
        next hquote =>
          split at h
          next hbackslash =>
            simp only [bind_eq_ok, Prod.exists] at h
            obtain ⟨e, n, hescape, chars, r, hchars, h⟩ := h
            cases h
            rw [hbackslash]
            exact .escape (readEscape_eq_ok_iff.1 hescape) (ih hchars)
          next hbackslash =>
            split at h
            · cases h
            next hcontrol =>
              obtain ⟨chars, hchars, rfl⟩ := (bind_fst_eq_ok (g := fun l => c :: l)).1 h
              exact .plain ⟨hquote, hbackslash, hcontrol⟩ (ih hchars)
  · intro h
    induction h with
    | passed _ ih => exact ih
    | closed => rfl
    | escape hescape _ ih =>
      simp [readChars, readEscape_eq_ok_iff.2 hescape, ih, bind, Except.bind]
    | plain hc _ ih =>
      obtain ⟨hquote, hbackslash, hcontrol⟩ := hc
      simp [readChars, hquote, hbackslash, hcontrol, ih, bind, Except.bind]

/-- A string depends on nothing behind its closing quote. -/
theorem StringText.taken {chars : List Char} (h : StringText n s chars rest) :
    ∃ t, n < t.length ∧ s = t ++ rest ∧ ∀ rest', StringText n (t ++ rest') chars rest' := by
  induction h with
  | @passed n c s chars rest _ ih =>
    obtain ⟨t, hn, rfl, hagain⟩ := ih
    exact ⟨c :: t, by simpa using hn, rfl, fun rest' => .passed (hagain rest')⟩
  | closed => exact ⟨['"'], by simp, rfl, fun rest' => .closed⟩
  | escape hescape _ ih =>
    -- the escape lies within what the rest of the string takes
    obtain ⟨t, hn, rfl, hagain⟩ := ih
    refine ⟨'\\' :: t, by simp, rfl, fun rest' => ?_⟩
    exact .escape (hescape.append (Nat.le_of_lt hn)) (hagain rest')
  | @plain c s chars rest hc _ ih =>
    obtain ⟨t, -, rfl, hagain⟩ := ih
    exact ⟨c :: t, by simp, rfl, fun rest' => .plain hc (hagain rest')⟩

theorem readString_eq_ok_iff {x : String} :
    readString s = .ok (x, rest) ↔
      ∃ chars, StringText 0 s chars rest ∧ x = .ofList chars := by
  simp only [← readChars_eq_ok_iff]
  exact bind_fst_eq_ok (g := String.ofList)

theorem local_readString (x : String) : Local fun s rest => readString s = .ok (x, rest) := by
  intro s rest h
  obtain ⟨chars, hchars, rfl⟩ := readString_eq_ok_iff.1 h
  obtain ⟨t, ht, rfl, hagain⟩ := hchars.taken
  refine ⟨t, List.length_pos_iff.1 ht, rfl, fun rest' _ => ?_⟩
  exact readString_eq_ok_iff.2 ⟨chars, hagain rest', rfl⟩

/-- The same of a string that is passed over; its escapes only have to be well formed. -/
inductive SkippedText : Nat → List Char → List Char → Prop
  | passed {n : Nat} {c : Char} {s rest : List Char} (h : SkippedText n s rest) :
    SkippedText (n + 1) (c :: s) rest
  | closed {s : List Char} : SkippedText 0 ('"' :: s) s
  | escape {n : Nat} {s rest : List Char} (hescape : skipEscape s = .ok n)
    (h : SkippedText n s rest) : SkippedText 0 ('\\' :: s) rest
  | plain {c : Char} {s rest : List Char} (hc : IsPlain c) (h : SkippedText 0 s rest) :
    SkippedText 0 (c :: s) rest

theorem skipChars_eq_ok_iff : skipChars n s = .ok rest ↔ SkippedText n s rest := by
  constructor
  · intro h
    induction s generalizing n with
    | nil => cases n <;> simp [skipChars] at h
    | cons c s ih =>
      cases n with
      | succ n => exact .passed (ih h)
      | zero =>
        unfold skipChars at h
        split at h
        next hquote =>
          cases h
          rw [hquote]
          exact .closed
        next hquote =>
          split at h
          next hbackslash =>
            obtain ⟨n, hescape, hskip⟩ := bind_eq_ok.1 h
            rw [hbackslash]
            exact .escape hescape (ih hskip)
          next hbackslash =>
            split at h
            · cases h
            next hcontrol => exact .plain ⟨hquote, hbackslash, hcontrol⟩ (ih h)
  · intro h
    induction h with
    | passed _ ih => exact ih
    | closed => rfl
    | escape hescape _ ih => simp [skipChars, hescape, ih, bind, Except.bind]
    | plain hc _ ih =>
      obtain ⟨hquote, hbackslash, hcontrol⟩ := hc
      simp [skipChars, hquote, hbackslash, hcontrol, ih]

theorem SkippedText.taken (h : SkippedText n s rest) :
    ∃ t, n < t.length ∧ s = t ++ rest ∧ ∀ rest', SkippedText n (t ++ rest') rest' := by
  induction h with
  | @passed n c s rest _ ih =>
    obtain ⟨t, hn, rfl, hagain⟩ := ih
    exact ⟨c :: t, by simpa using hn, rfl, fun rest' => .passed (hagain rest')⟩
  | closed => exact ⟨['"'], by simp, rfl, fun rest' => .closed⟩
  | escape hescape _ ih =>
    obtain ⟨t, hn, rfl, hagain⟩ := ih
    refine ⟨'\\' :: t, by simp, rfl, fun rest' => ?_⟩
    exact .escape (skipEscape_append hescape (Nat.le_of_lt hn)) (hagain rest')
  | @plain c s rest hc _ ih =>
    obtain ⟨t, -, rfl, hagain⟩ := ih
    exact ⟨c :: t, by simp, rfl, fun rest' => .plain hc (hagain rest')⟩

theorem local_skipChars : Local fun s rest => skipChars 0 s = .ok rest := by
  intro s rest h
  obtain ⟨t, ht, rfl, hagain⟩ := (skipChars_eq_ok_iff.1 h).taken
  refine ⟨t, List.length_pos_iff.1 ht, rfl, fun rest' _ => ?_⟩
  exact skipChars_eq_ok_iff.2 (hagain rest')

/-! ## Passing over strings -/

theorem skipChars_eq_drop (h : n ≤ s.length) : skipChars n s = skipChars 0 (s.drop n) := by
  induction s generalizing n with
  | nil =>
    obtain rfl : n = 0 := Nat.le_zero.1 h
    rfl
  | cons c s ih =>
    cases n with
    | zero => rfl
    | succ n => exact ih (Nat.le_of_succ_le_succ h)

/-- Where an escape is read, it is passed over, the two halves of a pair one by one. -/
theorem IsEscape.skipChars_eq {c : Char} (h : IsEscape s c n) :
    ∃ m, skipEscape s = .ok m ∧ skipChars m s = skipChars n s := by
  have hlength := h.le_length
  cases h with
  | @letter c e s hc h =>
    exact ⟨1, skipEscape_eq_ok_iff.2 (.inl ⟨c, s, rfl, hc, by simp [h], rfl⟩), rfl⟩
  | @code s n h hlow hhigh =>
    exact ⟨5, skipEscape_eq_ok_iff.2 (.inr ⟨s, n, rfl, h, rfl⟩), rfl⟩
  | @pair s u n m h hlow hhigh hdrop hm hsecond =>
    refine ⟨5, skipEscape_eq_ok_iff.2 (.inr ⟨s, n, rfl, h, rfl⟩), ?_⟩
    have hescape := skipEscape_eq_ok_iff.2 (.inr ⟨u, m, rfl, hm, rfl⟩)
    have hu := length_of_skipEscape hescape
    -- five characters are passed over, and then the second half as an escape of its own
    have hrest : ('u' :: s).drop 11 = ('u' :: u).drop 5 := by
      rw [show 11 = 5 + 6 from rfl, ← List.drop_drop, List.drop_succ_cons, hdrop]
      rfl
    rw [skipChars_eq_drop hlength, hrest, ← skipChars_eq_drop hu, skipChars_eq_drop (by omega),
      List.drop_succ_cons, hdrop]
    simp [skipChars, hescape, bind, Except.bind]

/-- **Where a string is read, it is passed over.** -/
theorem StringText.skipChars_eq {chars : List Char} (h : StringText n s chars rest) :
    skipChars n s = .ok rest := by
  induction h with
  | passed _ ih => exact ih
  | closed => rfl
  | escape hescape _ ih =>
    obtain ⟨m, hm, hskip⟩ := hescape.skipChars_eq
    simp [skipChars, hm, hskip, ih, bind, Except.bind]
  | plain hc _ ih =>
    obtain ⟨hquote, hbackslash, hcontrol⟩ := hc
    simp [skipChars, hquote, hbackslash, hcontrol, ih]

theorem skipChars_of_readString {x : String} (h : readString s = .ok (x, rest)) :
    skipChars 0 s = .ok rest := by
  obtain ⟨chars, hchars, -⟩ := readString_eq_ok_iff.1 h
  exact hchars.skipChars_eq

end DbInventory.Json
