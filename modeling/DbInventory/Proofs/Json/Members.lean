/-
# DbInventory.Proofs.Json.Members -- objects read member by member

`Members` is the loop over the members of an object as a derivation: a member is passed over
or its value is taken, as its slot says. As for lists, the loop is local, its object can be
passed over, and the bound on its rounds never matters. Records and trees are read by this
loop, so they are values (`readsValue_read`, `readsValue_readTree`).
-/

import DbInventory.Proofs.Json.Loops

namespace DbInventory.Json

variable {α σ : Type} {s u m v rest out : List Char} {frames : List Frame} {first : Bool}
  {name : String} {slot : σ → String → Slot σ} {st st' : σ}

/-! ## Names -/

/-- The text behind the quote of the next name. -/
def AtName (first : Bool) (s t : List Char) : Prop :=
  if first then skipBlanks s = '"' :: t else ∃ w, skipBlanks s = ',' :: w ∧ skipBlanks w = '"' :: t

/-- The next name, and the text behind its colon. -/
def Key (first : Bool) (name : String) (s v : List Char) : Prop :=
  ∃ t, AtName first s t ∧ ∃ u, readString t = .ok (name, u) ∧ readColon u = .ok v

theorem local_key (first : Bool) (name : String) : Local (Key first name) := by
  have hname : Local fun t v => ∃ u, readString t = .ok (name, u) ∧ readColon u = .ok v :=
    (local_readString name).comp local_readColon
  have hat : Local (AtName first) := by
    cases first with
    | true => exact local_char '"'
    | false => exact (local_char ',').comp (local_char '"')
  exact hat.comp hname

theorem Key.skipToElement_eq (h : Key false name s v) :
    ∃ w, skipBlanks s = ',' :: w ∧ skipToElement .object w = .ok v := by
  obtain ⟨t, ⟨w, hw, ht⟩, u, hname, hcolon⟩ := h
  exact ⟨w, hw, skipToElement_object_eq_ok_iff.2
    ⟨t, ht, u, skipChars_of_readString hname, hcolon⟩⟩

theorem Key.opens (h : Key true name u v) (hs : skipBlanks s = '{' :: u) :
    Opens .object s v := by
  obtain ⟨t, ht, w, hname, hcolon⟩ := h
  exact opens_object_iff.2 ⟨u, hs, skipToElement_object_eq_ok_iff.2
    ⟨t, ht, w, skipChars_of_readString hname, hcolon⟩⟩

/-! ## Rounds -/

/-- **The rounds over the members of an object**, up to behind its brace. -/
inductive Members (slot : σ → String → Slot σ) :
    Bool → σ → List Char → σ → List Char → Prop
  | done {first : Bool} {st : σ} {s rest : List Char} (h : skipBlanks s = '}' :: rest) :
    Members slot first st s st rest
  | ignored {first : Bool} {st st' : σ} {name : String} {s v m rest : List Char}
    (hkey : Key first name s v) (hslot : slot st name = .ignore) (hskip : skipValue v = .ok m)
    (hrest : Members slot false st m st' rest) : Members slot first st s st' rest
  | taken {first : Bool} {st st₁ st' : σ} {name : String} {s v m rest : List Char}
    {value : Reader σ} (hkey : Key first name s v) (hslot : slot st name = .take value)
    (hvalue : value v = .ok (st₁, m)) (hrest : Members slot false st₁ m st' rest) :
    Members slot first st s st' rest

/-- All values that are taken are read by readers of values. -/
def AllTaken (slot : σ → String → Slot σ) : Prop :=
  ∀ st name value, slot st name = .take value → ReadsValue value

theorem local_members (hall : AllTaken slot) (first : Bool) (st st' : σ) :
    Local fun s rest => Members slot first st s st' rest := by
  intro s rest h
  induction h with
  | @done first st s rest h => exact (local_char '}' s rest h).imp fun s rest => .done
  | @ignored first st st' name s v m rest hkey hslot hskip _ ih =>
    have hmember := Local.peeks ((local_key first name).comp local_skipValue) s m ⟨v, hkey, hskip⟩
    apply hmember.comp ih
    rintro s m rest ⟨v, hkey, hskip⟩ hrest
    exact .ignored hkey hslot hskip hrest
  | @taken first st st₁ st' name s v m rest value hkey hslot hvalue _ ih =>
    have hvalues := (hall st name value hslot).isLocal st₁
    have hmember := Local.peeks ((local_key first name).comp hvalues) s m ⟨v, hkey, hvalue⟩
    apply hmember.comp ih
    rintro s m rest ⟨v, hkey, hvalue⟩ hrest
    exact .taken hkey hslot hvalue hrest

/-- What is passed over at top level is passed over under open brackets. -/
theorem skips_of_skipValue (h : skipValue s = .ok m) (hrest : Resumes frames m out) :
    Skips frames s out :=
  (skipValue_eq_ok_iff.1 h).append hrest

/-- What follows a member of an object is passed over like the rest of the object. -/
theorem Members.resumes (hall : AllTaken slot) (h : Members slot false st s st' rest)
    (hrest : Resumes frames rest out) : Resumes (.object :: frames) s out := by
  generalize hfirst : false = first at h
  induction h with
  | @done first st s rest h =>
    unfold Resumes
    rw [afterValue, h]
    exact hrest
  | @ignored first st st' name s v m rest hkey hslot hskip _ ih =>
    subst hfirst
    exact .inr ⟨_, v, afterValue_cons_eq_ok_iff.2 (.inl ⟨rfl, hkey.skipToElement_eq⟩),
      skips_of_skipValue hskip (ih hrest rfl)⟩
  | @taken first st st₁ st' name s v m rest value hkey hslot hvalue _ ih =>
    subst hfirst
    exact .inr ⟨_, v, afterValue_cons_eq_ok_iff.2 (.inl ⟨rfl, hkey.skipToElement_eq⟩),
      (hall st name value hslot).passes hvalue (ih hrest rfl)⟩

/-- **An object is passed over**, whatever its slots do. -/
theorem Members.skips (hall : AllTaken slot) (hs : skipBlanks s = '{' :: u)
    (h : Members slot true st u st' rest) (hrest : Resumes frames rest out) :
    Skips frames s out := by
  cases h with
  | done h => exact Skips.of_small (.inr ⟨.object, u, hs, h⟩) hrest
  | ignored hkey hslot hskip htail =>
    exact Skips.of_opens (hkey.opens hs) (skips_of_skipValue hskip (htail.resumes hall hrest))
  | taken hkey hslot hvalue htail =>
    exact Skips.of_opens (hkey.opens hs)
      ((hall _ _ _ hslot).passes hvalue (htail.resumes hall hrest))

/-! ## The loop -/

theorem toName_quote_iff {t : List Char} :
    toName first s = .ok ('"' :: t) ↔ AtName first s t := by
  have hbrace : '"' ≠ '}' := by decide
  unfold toName AtName
  cases first with
  | true =>
    cases hs : skipBlanks s with
    | nil => simp
    | cons c u => simp
  | false =>
    simp only [Bool.false_eq_true, or_false, if_false]
    cases hs : skipBlanks s with
    | nil => simp
    | cons c u =>
      by_cases hc : c = '}'
      · subst hc
        simp
      · by_cases hcomma : c = ','
        · subst hcomma
          cases hw : skipBlanks u with
          | nil => simp [hw]
          | cons d w =>
            by_cases hd : d = '}'
            · subst hd
              simp [hw]
            · simp [hw, hd]
        · simp [hc, hcomma]

theorem toName_brace_iff :
    toName first s = .ok ('}' :: rest) ↔ skipBlanks s = '}' :: rest := by
  unfold toName
  cases hs : skipBlanks s with
  | nil => simp
  | cons c u =>
    by_cases hc : c = '}'
    · simp [hc]
    · cases first with
      | true => simp [hc]
      | false =>
        by_cases hcomma : c = ','
        · subst hcomma
          cases hw : skipBlanks u with
          | nil => simp [hw]
          | cons d w => by_cases hd : d = '}' <;> simp [hw, hd]
        · simp [hc, hcomma]

theorem members_of_readMembers {n : Nat} (h : readMembers slot n first st s = .ok (st', u)) :
    ∃ rest, u = '}' :: rest ∧ Members slot first st s st' rest := by
  -- every round that ends well is one of the constructors; a slot that refuses is none
  induction n generalizing first st s with
  | zero => cases h
  | succ n ih =>
    rw [readMembers, bind_eq_ok] at h
    obtain ⟨w, hname, h⟩ := h
    cases w with
    | nil => cases h
    | cons c t =>
      simp only at h
      by_cases hbrace : c = '}'
      · subst hbrace
        simp only [if_true, Except.ok.injEq, Prod.mk.injEq] at h
        obtain ⟨rfl, rfl⟩ := h
        exact ⟨t, rfl, .done (toName_brace_iff.1 hname)⟩
      · by_cases hquote : c = '"'
        · subst hquote
          simp only [if_neg hbrace, if_true, bind_eq_ok, Prod.exists] at h
          obtain ⟨name, t', hstring, h⟩ := h
          have hat := toName_quote_iff.1 hname
          cases hslot : slot st name with
          | refuse cause => simp [hslot] at h
          | ignore =>
            simp only [hslot, bind_eq_ok] at h
            obtain ⟨v, hcolon, m, hskip, h⟩ := h
            obtain ⟨rest, rfl, htail⟩ := ih h
            exact ⟨rest, rfl, .ignored ⟨t, hat, t', hstring, hcolon⟩ hslot hskip htail⟩
          | take value =>
            simp only [hslot, bind_eq_ok, Prod.exists] at h
            obtain ⟨v, hcolon, st₁, m, hvalue, h⟩ := h
            obtain ⟨rest, rfl, htail⟩ := ih h
            exact ⟨rest, rfl, .taken ⟨t, hat, t', hstring, hcolon⟩ hslot hvalue htail⟩
        · simp [hbrace, hquote] at h

/-- As many rounds as there are characters suffice. -/
theorem Members.readMembers_eq (hall : AllTaken slot) (h : Members slot first st s st' rest)
    {n : Nat} (hn : s.length < n) :
    readMembers slot n first st s = .ok (st', '}' :: rest) := by
  have hquote : '"' ≠ '}' := by decide
  induction h generalizing n with
  | @done first st s rest h =>
    obtain ⟨n, rfl⟩ : ∃ k, n = k + 1 := ⟨n - 1, by omega⟩
    rw [readMembers, toName_brace_iff.2 h]
    rfl
  | @ignored first st st' name s v m rest hkey hslot hskip _ ih =>
    obtain ⟨n, rfl⟩ : ∃ k, n = k + 1 := ⟨n - 1, by omega⟩
    have hlt := (local_key first name).length_lt hkey
    have hlt' := local_skipValue.length_lt hskip
    obtain ⟨t, hat, w, hstring, hcolon⟩ := hkey
    rw [readMembers, toName_quote_iff.2 hat]
    simp only [bind, Except.bind, if_neg hquote, if_true, hstring, hslot, hcolon, hskip]
    exact ih (by omega)
  | @taken first st st₁ st' name s v m rest value hkey hslot hvalue _ ih =>
    obtain ⟨n, rfl⟩ : ∃ k, n = k + 1 := ⟨n - 1, by omega⟩
    have hlt := (local_key first name).length_lt hkey
    have hlt' := (hall st name value hslot).length_lt hvalue
    obtain ⟨t, hat, w, hstring, hcolon⟩ := hkey
    rw [readMembers, toName_quote_iff.2 hat]
    simp only [bind, Except.bind, if_neg hquote, if_true, hstring, hslot, hcolon, hvalue]
    exact ih (by omega)

/-- **The loop over members is its rounds.** -/
theorem readMembers_eq_ok_iff (hall : AllTaken slot) :
    readMembers slot (s.length + 1) first st s = .ok (st', u) ↔
      ∃ rest, u = '}' :: rest ∧ Members slot first st s st' rest := by
  constructor
  · intro h
    exact members_of_readMembers h
  · rintro ⟨rest, rfl, h⟩
    exact h.readMembers_eq hall (Nat.lt_succ_self _)

@[simp]
theorem closeObject_brace (s : List Char) : closeObject ('}' :: s) = .ok s := rfl

/-- **A record in object form is read by the rounds over its members.** -/
theorem readObject_eq_ok_iff {form : RecordForm σ α} (hall : AllTaken form.slot) {x : α} :
    form.readObject s = .ok (x, rest) ↔
      ∃ st, Members form.slot true form.start s st rest ∧ form.finish st = .ok x := by
  unfold RecordForm.readObject
  rw [bind_eq_ok]
  constructor
  · rintro ⟨⟨st, m⟩, hmembers, h⟩
    obtain ⟨r, rfl, hrounds⟩ := (readMembers_eq_ok_iff hall).1 hmembers
    cases hx : form.finish st with
    | error cause => simp [hx] at h
    | ok y =>
      simp only [hx, closeObject_brace] at h
      cases h
      exact ⟨st, hrounds, hx⟩
  · rintro ⟨st, h, hx⟩
    refine ⟨(st, '}' :: rest), (readMembers_eq_ok_iff hall).2 ⟨rest, rfl, h⟩, ?_⟩
    simp only [hx, closeObject_brace]
    rfl

end DbInventory.Json
