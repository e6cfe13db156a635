/-
# DbInventory.Proofs.Json.Skipping -- what passes over a value

Passing over a value is a walk with a stack of open brackets. `Skips` is that walk as a
derivation, without a bound on its steps: `skipValue` does the same (`skipValue_eq_ok_iff`). A
step takes a small value, that is a scalar or an empty pair of brackets, or it opens a bracket.

`ReadsValue` is what all readers of values have in common: they are local, and where they read
a value it can be passed over, whatever brackets are open around it.
-/

import DbInventory.Proofs.Json.Numbers
import DbInventory.Proofs.Json.Strings

namespace DbInventory.Json

variable {s m rest out : List Char} {frames base : List Frame} {frame : Frame}
  {o : Option (List Frame)}

/-! ## Behind a value -/

@[simp]
theorem afterValue_nil (s : List Char) : afterValue [] s = .ok (none, s) := rfl

theorem closer_ne_comma (frame : Frame) : frame.closer ≠ ',' := by
  cases frame <;> decide

/-- Behind a value inside brackets there is a comma and an element, or the innermost bracket
is closed. -/
theorem afterValue_cons_eq_ok_iff :
    afterValue (frame :: frames) s = .ok (o, rest) ↔
      (o = some (frame :: frames) ∧ ∃ t, skipBlanks s = ',' :: t ∧
        skipToElement frame t = .ok rest) ∨
      ∃ t, skipBlanks s = frame.closer :: t ∧ afterValue frames t = .ok (o, rest) := by
  rw [afterValue]
  cases skipBlanks s with
  | nil => simp
  | cons c t =>
    by_cases hcomma : c = ','
    · subst hcomma
      have hcloser : ',' ≠ frame.closer := (closer_ne_comma frame).symm
      simp only [if_true, bind_eq_ok, Except.ok.injEq, Prod.mk.injEq, List.cons.injEq, true_and,
        hcloser, false_and, exists_false, or_false]
      constructor
      · rintro ⟨u, hu, rfl, rfl⟩
        exact ⟨rfl, t, rfl, hu⟩
      · rintro ⟨rfl, u, rfl, hu⟩
        exact ⟨rest, hu, rfl, rfl⟩
    · by_cases hcloser : c = frame.closer
      · simp [hcloser, closer_ne_comma frame]
      · simp [hcomma, hcloser]

theorem skipToElement_object_eq_ok_iff :
    skipToElement .object s = .ok rest ↔
      ∃ t, skipBlanks s = '"' :: t ∧ ∃ m, skipChars 0 t = .ok m ∧ readColon m = .ok rest := by
  rw [skipToElement]
  cases skipBlanks s with
  | nil => simp
  | cons c t =>
    by_cases hquote : c = '"'
    · subst hquote
      simp [bind_eq_ok]
    · simp [hquote]

/-- A name and its colon. -/
theorem local_name : Local fun s rest => skipToElement .object s = .ok rest :=
  ((local_char '"').comp (local_skipChars.comp local_readColon)).congr
    fun _ _ => skipToElement_object_eq_ok_iff

/-- A comma, and the name of the next element in an object. -/
theorem local_comma (frame : Frame) :
    Local fun s rest => ∃ t, skipBlanks s = ',' :: t ∧ skipToElement frame t = .ok rest := by
  cases frame with
  | object => exact (local_char ',').comp local_name
  | list =>
    refine (local_char ',').congr fun s rest => ?_
    simp [skipToElement]

theorem local_afterValue (frame : Frame) (frames : List Frame) (o : Option (List Frame)) :
    Local fun s rest => afterValue (frame :: frames) s = .ok (o, rest) := by
  induction frames generalizing frame with
  | nil =>
    intro s rest h
    rcases afterValue_cons_eq_ok_iff.1 h with ⟨rfl, hcomma⟩ | ⟨u, hcloser, hnil⟩
    · refine (local_comma frame s rest hcomma).imp fun s rest hcomma => ?_
      exact afterValue_cons_eq_ok_iff.2 (.inl ⟨rfl, hcomma⟩)
    · simp only [afterValue_nil, Except.ok.injEq, Prod.mk.injEq] at hnil
      obtain ⟨rfl, rfl⟩ := hnil
      refine (local_char frame.closer s u hcloser).imp fun s rest hcloser => ?_
      exact afterValue_cons_eq_ok_iff.2 (.inr ⟨rest, hcloser, rfl⟩)
  | cons frame' frames ih =>
    intro s rest h
    rcases afterValue_cons_eq_ok_iff.1 h with ⟨rfl, hcomma⟩ | hcloser
    · refine (local_comma frame s rest hcomma).imp fun s rest hcomma => ?_
      exact afterValue_cons_eq_ok_iff.2 (.inl ⟨rfl, hcomma⟩)
    · -- the bracket closes, and what follows it is behind a value of the next frame
      have hrest := (local_char frame.closer).comp (ih frame') s rest hcloser
      exact hrest.imp fun s rest hcloser => afterValue_cons_eq_ok_iff.2 (.inr hcloser)

/-- Something that is read, and what follows it inside the open brackets. -/
theorem Local.then_afterValue {P : Taking} (h : Local P) (frames : List Frame)
    (o : Option (List Frame)) :
    Local fun s rest => ∃ m, P s m ∧ afterValue frames m = .ok (o, rest) := by
  cases frames with
  | cons frame frames => exact h.comp (local_afterValue frame frames o)
  | nil =>
    rintro s rest ⟨m, hP, hnil⟩
    simp only [afterValue_nil, Except.ok.injEq, Prod.mk.injEq] at hnil
    obtain ⟨rfl, rfl⟩ := hnil
    exact (h s m hP).imp fun s m hP => ⟨m, hP, rfl⟩

/-- Brackets around a value that stay open. -/
theorem afterValue_append_of_none (h : afterValue frames s = .ok (none, m)) :
    afterValue (frames ++ base) s = afterValue base m := by
  induction frames generalizing s with
  | nil =>
    simp only [afterValue_nil, Except.ok.injEq, Prod.mk.injEq, true_and] at h
    rw [h, List.nil_append]
  | cons frame frames ih =>
    rcases afterValue_cons_eq_ok_iff.1 h with ⟨h, -⟩ | ⟨t, ht, hafter⟩
    · cases h
    · rw [List.cons_append, afterValue, ht]
      simp only [if_neg (closer_ne_comma frame), if_true]
      exact ih hafter

theorem afterValue_append_of_some {frames' : List Frame}
    (h : afterValue frames s = .ok (some frames', m)) :
    afterValue (frames ++ base) s = .ok (some (frames' ++ base), m) := by
  induction frames generalizing s with
  | nil => cases h
  | cons frame frames ih =>
    rw [List.cons_append]
    rcases afterValue_cons_eq_ok_iff.1 h with ⟨h, hcomma⟩ | ⟨t, ht, hafter⟩
    · obtain rfl := Option.some.inj h
      exact afterValue_cons_eq_ok_iff.2 (.inl ⟨rfl, hcomma⟩)
    · exact afterValue_cons_eq_ok_iff.2 (.inr ⟨t, ht, ih hafter⟩)

/-! ## Steps -/

def Frame.opener : Frame → Char
  | .list => '['
  | .object => '{'

/-- A scalar, from behind its first character. -/
def skipScalar (c : Char) (s : List Char) : Except Fault (List Char) :=
  if c = 'n' then readLetters ['u', 'l', 'l'] s
  else if c = 't' then readLetters ['r', 'u', 'e'] s
  else if c = 'f' then readLetters ['a', 'l', 's', 'e'] s
  else if c = '"' then skipChars 0 s
  else if c = '-' then skipNumber s
  else if isDigit c then skipNumber (c :: s)
  else .error (.next .expectedValue (c :: s))

theorem skipScalar_ne_opener {c : Char} (h : skipScalar c s = .ok rest) (frame : Frame) :
    c ≠ frame.opener := by
  rintro rfl
  cases frame <;> simp [skipScalar, Frame.opener, isDigit] at h

theorem local_cons (c : Char) {P : Taking} (h : Local P) :
    Local fun s rest => ∃ t, s = c :: t ∧ P t rest :=
  (local_text (List.cons_ne_nil c [])).comp h

theorem local_readLetters {letters : List Char} (h : letters ≠ []) :
    Local fun s rest => readLetters letters s = .ok rest :=
  (local_text h).congr fun _ _ => readLetters_eq_ok_iff

theorem local_skipScalar (c : Char) :
    Local fun s rest => ∃ t, s = c :: t ∧ skipScalar c t = .ok rest := by
  unfold skipScalar
  by_cases hn : c = 'n'
  · simp only [if_pos hn]
    exact local_cons c (local_readLetters (List.cons_ne_nil _ _))
  by_cases ht : c = 't'
  · simp only [if_neg hn, if_pos ht]
    exact local_cons c (local_readLetters (List.cons_ne_nil _ _))
  by_cases hf : c = 'f'
  · simp only [if_neg hn, if_neg ht, if_pos hf]
    exact local_cons c (local_readLetters (List.cons_ne_nil _ _))
  by_cases hquote : c = '"'
  · simp only [if_neg hn, if_neg ht, if_neg hf, if_pos hquote]
    exact local_cons c local_skipChars
  by_cases hminus : c = '-'
  · simp only [if_neg hn, if_neg ht, if_neg hf, if_neg hquote, if_pos hminus]
    exact local_cons c local_skipNumber
  simp only [if_neg hn, if_neg ht, if_neg hf, if_neg hquote, if_neg hminus]
  rintro s rest ⟨t, rfl, h⟩
  by_cases hdigit : isDigit c = true
  · simp only [if_pos hdigit] at h ⊢
    obtain ⟨t', ht', hs, hagain⟩ := local_skipNumber _ _ h
    cases t' with
    | nil => exact absurd rfl ht'
    | cons d t' =>
      obtain ⟨rfl, rfl⟩ := List.cons.inj hs
      exact ⟨c :: t', ht', rfl, fun rest' hrest' => ⟨t' ++ rest', rfl, hagain rest' hrest'⟩⟩
  · simp [hdigit] at h

/-- A scalar or an empty pair of brackets. -/
def Small (s rest : List Char) : Prop :=
  (∃ c t, skipBlanks s = c :: t ∧ skipScalar c t = .ok rest) ∨
    ∃ (frame : Frame) (t : List Char), skipBlanks s = frame.opener :: t ∧
      skipBlanks t = frame.closer :: rest

/-- A bracket that opens in front of an element. -/
def Opens (frame : Frame) (s rest : List Char) : Prop :=
  ∃ t c u, skipBlanks s = frame.opener :: t ∧ skipBlanks t = c :: u ∧ c ≠ frame.closer ∧
    skipToElement frame (c :: u) = .ok rest

theorem local_small : Local Small := by
  refine Takes.or ?_ ?_
  · have hscalar : Local fun s rest => ∃ c t, s = c :: t ∧ skipScalar c t = .ok rest := by
      exact Takes.exists local_skipScalar
    exact hscalar.blanks
  · exact Takes.exists fun frame => (local_char frame.opener).comp (local_char frame.closer)

theorem opens_object_iff :
    Opens .object s rest ↔ ∃ t, skipBlanks s = '{' :: t ∧ skipToElement .object t = .ok rest := by
  constructor
  · rintro ⟨t, c, u, hopener, hc, -, hname⟩
    refine ⟨t, hopener, ?_⟩
    rw [skipToElement_object_eq_ok_iff] at hname ⊢
    rwa [← hc, skipBlanks_skipBlanks] at hname
  · rintro ⟨t, hopener, hname⟩
    obtain ⟨u, hquote, hrest⟩ := skipToElement_object_eq_ok_iff.1 hname
    refine ⟨t, '"', u, hopener, hquote, by decide, ?_⟩
    rw [skipToElement_object_eq_ok_iff, ← hquote, skipBlanks_skipBlanks]
    exact ⟨u, hquote, hrest⟩

/-- An opening bracket is taken up to the first element, which is looked at. -/
theorem peeks_opens (frame : Frame) : Peeks (Opens frame) := by
  cases frame with
  | object =>
    have hobject : Local fun s rest =>
        ∃ t, skipBlanks s = '{' :: t ∧ skipToElement .object t = .ok rest :=
      (local_char '{').comp local_name
    exact Local.peeks (hobject.congr fun _ _ => opens_object_iff)
  | list =>
    rintro s rest ⟨t, c, u, hopener, hc, hcloser, hlist⟩
    -- in a list nothing is taken behind the bracket, so the first character ahead has to stay
    obtain rfl : c :: u = rest := Except.ok.inj hlist
    obtain ⟨p, hp, rfl, hagain⟩ := local_char '[' s t hopener
    obtain ⟨b, hb, hskip⟩ := exists_blanks t
    refine ⟨p ++ b, by simp [hp], by rw [List.append_assoc, ← hc, ← hb], ?_⟩
    intro rest' hrest'
    cases rest' with
    | nil => cases hrest'
    | cons d u' =>
      obtain rfl : d = c := Option.some.inj hrest'
      refine ⟨b ++ d :: u', d, u', ?_, hskip [d] u (List.cons_ne_nil _ _) hc u', hcloser, rfl⟩
      rw [List.append_assoc]
      refine hagain _ (.inl ?_)
      rw [hb, hc]
      cases b with
      | nil => rfl
      | cons => rfl

theorem afterOpening_eq_ok_iff :
    afterOpening frame frames s = .ok (o, rest) ↔
      (∃ t, skipBlanks s = frame.closer :: t ∧ afterValue frames t = .ok (o, rest)) ∨
        (o = some (frame :: frames) ∧ ∃ c u, skipBlanks s = c :: u ∧ c ≠ frame.closer ∧
          skipToElement frame (c :: u) = .ok rest) := by
  rw [afterOpening]
  cases skipBlanks s with
  | nil => simp
  | cons c t =>
    by_cases hcloser : c = frame.closer
    · simp [hcloser]
    · simp only [if_neg hcloser]
      rw [bind_eq_ok]
      constructor
      · rintro ⟨u, hu, h⟩
        cases h
        exact .inr ⟨rfl, c, t, rfl, hcloser, hu⟩
      · rintro (⟨u, hu, -⟩ | ⟨rfl, d, u, hd, -, hu⟩)
        · exact absurd (List.cons.inj hu).1 hcloser
        · rw [hd]
          exact ⟨rest, hu, rfl⟩

theorem skipStep_eq (frames : List Frame) {c : Char} {t : List Char} (hs : skipBlanks s = c :: t) :
    skipStep frames s =
      if c = '[' then afterOpening .list frames t
      else if c = '{' then afterOpening .object frames t
      else skipScalar c t >>= afterValue frames := by
  have hbind : ∀ (p : Prop) [Decidable p] (x y : Except Fault (List Char)),
      ((if p then x else y) >>= afterValue frames) =
        if p then x >>= afterValue frames else y >>= afterValue frames := by
    intro p _ x y
    split <;> rfl
  rw [skipStep, hs]
  simp only [skipScalar, hbind]

/-- A step takes a small value and what follows it, or opens a bracket. -/
theorem skipStep_eq_ok_iff :
    skipStep frames s = .ok (o, rest) ↔
      (∃ m, Small s m ∧ afterValue frames m = .ok (o, rest)) ∨
        ∃ frame, o = some (frame :: frames) ∧ Opens frame s rest := by
  constructor
  · intro h
    cases hs : skipBlanks s with
    | nil => simp [skipStep, hs] at h
    | cons c t =>
      have hopening : ∀ frame : Frame, c = frame.opener →
          afterOpening frame frames t = .ok (o, rest) →
          (∃ m, Small s m ∧ afterValue frames m = .ok (o, rest)) ∨
            ∃ frame, o = some (frame :: frames) ∧ Opens frame s rest := by
        rintro frame rfl hopening
        rcases afterOpening_eq_ok_iff.1 hopening with ⟨u, hu, hafter⟩ | ⟨ho, d, u, hd, hne, hname⟩
        · exact .inl ⟨u, .inr ⟨frame, t, hs, hu⟩, hafter⟩
        · exact .inr ⟨frame, ho, t, d, u, hs, hd, hne, hname⟩
      rw [skipStep_eq frames hs] at h
      split at h
      next hlist => exact hopening .list hlist h
      next hlist =>
        split at h
        next hobject => exact hopening .object hobject h
        next hobject =>
          obtain ⟨m, hscalar, hafter⟩ := bind_eq_ok.1 h
          exact .inl ⟨m, .inl ⟨c, t, hs, hscalar⟩, hafter⟩
  · have hopening : ∀ (frame : Frame) t, skipBlanks s = frame.opener :: t →
        skipStep frames s = afterOpening frame frames t := by
      intro frame t hs
      rw [skipStep_eq frames hs]
      cases frame <;> rfl
    rintro (⟨m, ⟨c, t, hs, hscalar⟩ | ⟨frame, t, hs, hclose⟩, hafter⟩ |
      ⟨frame, ho, t, d, u, hs, hd, hne, hname⟩)
    · have hlist : c ≠ '[' := skipScalar_ne_opener hscalar .list
      have hobject : c ≠ '{' := skipScalar_ne_opener hscalar .object
      rw [skipStep_eq frames hs, if_neg hlist, if_neg hobject, bind_eq_ok]
      exact ⟨m, hscalar, hafter⟩
    · rw [hopening frame t hs]
      exact afterOpening_eq_ok_iff.2 (.inl ⟨m, hclose, hafter⟩)
    · rw [hopening frame t hs]
      exact afterOpening_eq_ok_iff.2 (.inr ⟨ho, d, u, hd, hne, hname⟩)

/-! ## The walk -/

/-- **Passing over a value** while brackets are open, step by step. -/
inductive Skips : List Frame → List Char → List Char → Prop
  | done {frames : List Frame} {s rest : List Char}
    (h : skipStep frames s = .ok (none, rest)) : Skips frames s rest
  | more {frames frames' : List Frame} {s m rest : List Char}
    (h : skipStep frames s = .ok (some frames', m)) (hrest : Skips frames' m rest) :
    Skips frames s rest

/-- What follows a value inside the open brackets, up to the end of all of them. -/
def Resumes (frames : List Frame) (s rest : List Char) : Prop :=
  afterValue frames s = .ok (none, rest) ∨
    ∃ frames' m, afterValue frames s = .ok (some frames', m) ∧ Skips frames' m rest

theorem resumes_nil (s : List Char) : Resumes [] s s := .inl rfl

theorem Skips.of_small (h : Small s m) (hrest : Resumes frames m rest) : Skips frames s rest := by
  rcases hrest with hnone | ⟨frames', t, hsome, hskips⟩
  · exact .done (skipStep_eq_ok_iff.2 (.inl ⟨m, h, hnone⟩))
  · exact .more (skipStep_eq_ok_iff.2 (.inl ⟨m, h, hsome⟩)) hskips

theorem Skips.of_opens (h : Opens frame s m) (hrest : Skips (frame :: frames) m rest) :
    Skips frames s rest :=
  .more (skipStep_eq_ok_iff.2 (.inr ⟨frame, rfl, h⟩)) hrest

theorem peeks_skipStep (frames : List Frame) (o : Option (List Frame)) :
    Peeks fun s rest => skipStep frames s = .ok (o, rest) := by
  intro s rest h
  rcases skipStep_eq_ok_iff.1 h with hsmall | ⟨frame, ho, hopens⟩
  · apply (Local.peeks (local_small.then_afterValue frames o) s rest hsmall).imp
    intro s rest hsmall
    exact skipStep_eq_ok_iff.2 (.inl hsmall)
  · apply (peeks_opens frame s rest hopens).imp
    intro s rest hopens
    exact skipStep_eq_ok_iff.2 (.inr ⟨frame, ho, hopens⟩)

theorem local_skipStep (frames : List Frame) :
    Local fun s rest => skipStep frames s = .ok (none, rest) := by
  intro s rest h
  rcases skipStep_eq_ok_iff.1 h with hsmall | ⟨frame, ho, -⟩
  · apply (local_small.then_afterValue frames none s rest hsmall).imp
    intro s rest hsmall
    exact skipStep_eq_ok_iff.2 (.inl hsmall)
  · cases ho

/-- **Passing over is local.** -/
theorem local_skips (frames : List Frame) : Local (Skips frames) := by
  intro s rest h
  induction h with
  | @done frames s rest h => exact (local_skipStep frames s rest h).imp fun s rest => .done
  | @more frames frames' s m rest h _ ih =>
    exact (peeks_skipStep frames (some frames') s m h).comp ih fun s m rest => .more

/-- A walk under some brackets goes on under the brackets around them. -/
theorem Skips.append (h : Skips frames s m) (hrest : Resumes base m rest) :
    Skips (frames ++ base) s rest := by
  induction h with
  | @done frames s m h =>
    rcases skipStep_eq_ok_iff.1 h with ⟨u, hsmall, hafter⟩ | ⟨frame, ho, -⟩
    · apply Skips.of_small hsmall
      unfold Resumes
      rw [afterValue_append_of_none hafter]
      exact hrest
    · cases ho
  | @more frames frames' s u m h _ ih =>
    rcases skipStep_eq_ok_iff.1 h with ⟨v, hsmall, hafter⟩ | ⟨frame, ho, hopens⟩
    · -- a small value leaves the brackets around it to the rest of the walk
      exact Skips.of_small hsmall
        (.inr ⟨frames' ++ base, u, afterValue_append_of_some hafter, ih hrest⟩)
    · obtain rfl := Option.some.inj ho
      exact Skips.of_opens hopens (ih hrest)

theorem skips_of_skipLoop {n : Nat} (h : skipLoop n frames s = .ok rest) :
    Skips frames s rest := by
  induction n generalizing frames s with
  | zero => cases h
  | succ n ih =>
    simp only [skipLoop, bind_eq_ok, Prod.exists] at h
    obtain ⟨o, m, hstep, h⟩ := h
    cases o with
    | none =>
      obtain rfl := Except.ok.inj h
      exact .done hstep
    | some frames' => exact .more hstep (ih h)

/-- As many steps as there are characters suffice, since every step takes one. -/
theorem Skips.skipLoop_eq (h : Skips frames s rest) {n : Nat} (hn : s.length < n) :
    skipLoop n frames s = .ok rest := by
  induction h generalizing n with
  | done h =>
    obtain ⟨n, rfl⟩ : ∃ k, n = k + 1 := ⟨n - 1, by omega⟩
    simp [skipLoop, h, bind, Except.bind]
  | @more frames frames' s m rest h _ ih =>
    obtain ⟨n, rfl⟩ : ∃ k, n = k + 1 := ⟨n - 1, by omega⟩
    -- the step has taken a character, so a step less is enough for the rest
    have hlt := (peeks_skipStep frames (some frames')).length_lt h
    simp only [skipLoop, h, bind, Except.bind]
    exact ih (by omega)

/-- **What is passed over is what a walk passes over.** -/
theorem skipValue_eq_ok_iff : skipValue s = .ok rest ↔ Skips [] s rest := by
  constructor
  · intro h
    exact skips_of_skipLoop h
  · intro h
    exact h.skipLoop_eq (Nat.lt_succ_self _)

theorem local_skipValue : Local fun s rest => skipValue s = .ok rest :=
  (local_skips []).congr fun _ _ => skipValue_eq_ok_iff

/-! ## Readers of values -/

/-- **A reader of values**: it is local, passes over blanks first, and what it reads can be
passed over under any open brackets. -/
structure ReadsValue {α : Type} (r : Reader α) : Prop where
  isLocal : ∀ x, Local fun s rest => r s = .ok (x, rest)
  blanks : ∀ {s m : List Char} {x : α}, r (skipBlanks s) = .ok (x, m) ↔ r s = .ok (x, m)
  passes : ∀ {s m : List Char} {x : α}, r s = .ok (x, m) →
    ∀ {frames rest}, Resumes frames m rest → Skips frames s rest

namespace ReadsValue

variable {α β : Type} {r : Reader α} {x : α}

theorem skipValue_eq (h : ReadsValue r) (hr : r s = .ok (x, rest)) : skipValue s = .ok rest :=
  skipValue_eq_ok_iff.2 (h.passes hr (resumes_nil rest))

theorem length_lt (h : ReadsValue r) (hr : r s = .ok (x, rest)) : rest.length < s.length :=
  (h.isLocal x).length_lt hr

/-- A reader that only looks at what another one has read. -/
theorem of_eq_ok_iff (h : ReadsValue r) {r' : Reader β} {f : α → Option β}
    (hr' : ∀ s y rest, r' s = .ok (y, rest) ↔ ∃ x, f x = some y ∧ r s = .ok (x, rest)) :
    ReadsValue r' := by
  refine ⟨?_, ?_, ?_⟩
  · intro y s rest hy
    obtain ⟨x, hf, hx⟩ := (hr' s y rest).1 hy
    exact (h.isLocal x s rest hx).imp fun s rest hx => (hr' s y rest).2 ⟨x, hf, hx⟩
  · intro s m y
    rw [hr', hr']
    exact exists_congr fun x => and_congr_right fun _ => h.blanks
  · intro s m y hy frames rest hrest
    obtain ⟨x, -, hx⟩ := (hr' s y m).1 hy
    exact h.passes hx hrest

theorem map (h : ReadsValue r) (f : α → β) :
    ReadsValue fun s => r s >>= fun p => .ok (f p.1, p.2) := by
  refine h.of_eq_ok_iff (fun s y rest => ?_) (f := fun x => some (f x))
  rw [bind_fst_eq_ok]
  constructor
  · rintro ⟨x, hx, rfl⟩
    exact ⟨x, rfl, hx⟩
  · rintro ⟨x, hf, hx⟩
    exact ⟨x, hx, (Option.some.inj hf).symm⟩

/-- A small value. -/
theorem of_small (hlocal : ∀ x, Local fun s rest => r s = .ok (x, rest))
    (hblanks : ∀ {s m x}, r (skipBlanks s) = .ok (x, m) ↔ r s = .ok (x, m))
    (hsmall : ∀ {s x rest}, r s = .ok (x, rest) → Small s rest) : ReadsValue r :=
  ⟨hlocal, hblanks, fun hr _ _ hrest => Skips.of_small (hsmall hr) hrest⟩

end ReadsValue

end DbInventory.Json
