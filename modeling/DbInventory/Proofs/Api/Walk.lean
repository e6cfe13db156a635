/-
# DbInventory.Proofs.Api.Walk -- what a walk over pages collects

`Page.Walk` describes a finished walk: the pages that were answered, in order, and the failure
that ended it, if one did. A walk determines what `Page.collect` gives (`Walk.collect_eq`), so
that everything else is said of walks and not of the budgeted loop.

`Page.Tiles` describes the pages of a faithful server: each is the slice of one list at its
offset, with a total that is missing or not below the length of the list. Tiling pages hold
exactly the list (`Tiles.entries_eq`), and there are no more of them than the list asks for
(`Tiles.length_le`).
-/

import DbInventory.Proofs.Alike

namespace DbInventory.Page

variable {α ε τ : Type} {limit : Nat} {fetch : Nat → τ → Except ε (Page α) × τ}

/-! ## Walks -/

/-- A walk from an offset: its pages, and the failure that ended it. -/
inductive Walk (limit : Nat) (fetch : Nat → τ → Except ε (Page α) × τ) :
    Nat → τ → List (Page α) → Option ε → τ → Prop
  | failed {o : Nat} {s s' : τ} {e : ε} :
      fetch o s = (.error e, s') → Walk limit fetch o s [] (some e) s'
  | last {o : Nat} {s s' : τ} {page : Page α} :
      fetch o s = (.ok page, s') → page.isLast o limit = true →
      Walk limit fetch o s [page] none s'
  | next {o : Nat} {s s' s'' : τ} {page : Page α} {pages : List (Page α)} {fault : Option ε} :
      fetch o s = (.ok page, s') → page.isLast o limit = false →
      Walk limit fetch (o + limit) s' pages fault s'' →
      Walk limit fetch o s (page :: pages) fault s''

/-- What a walk collects: everything, or nothing but the failure. -/
def collected (pages : List (Page α)) : Option ε → Except ε (List α)
  | some e => .error e
  | none => .ok (pages.flatMap (·.entries))

/-- **A walk is what the loop does**, as long as its pages are within the budget. -/
theorem Walk.collect_eq {o : Nat} {s s' : τ} {pages : List (Page α)} {fault : Option ε}
    (h : Walk limit fetch o s pages fault s') (exhausted : ε) :
    ∀ {budget : Nat}, pages.length < budget + (if fault.isSome then 0 else 1) →
      collect limit fetch exhausted budget o s = (collected pages fault, s') := by
  induction h with
  | failed hfetch =>
    intro budget hbudget
    obtain ⟨b, rfl⟩ : ∃ b, budget = b + 1 := ⟨budget - 1, by simp at hbudget; omega⟩
    simp only [collect, hfetch, collected]
  | last hfetch hlast =>
    intro budget hbudget
    obtain ⟨b, rfl⟩ : ∃ b, budget = b + 1 := ⟨budget - 1, by simp at hbudget; omega⟩
    simp [collect, hfetch, hlast, collected]
  | @next o s s' s'' page pages fault hfetch hlast hwalk ih =>
    intro budget hbudget
    rw [List.length_cons] at hbudget
    obtain ⟨b, rfl⟩ : ∃ b, budget = b + 1 := ⟨budget - 1, by split at hbudget <;> omega⟩
    -- one page is one round, and the rest of the budget is enough for the rest of the pages
    have hrest := @ih b (by omega)
    simp only [collect, hfetch, hlast, hrest]
    cases fault <;> simp [collected]

/-- **A record of a walk that ended well has one entry for each page**, in steps of the limit,
and only the last page is one that ends a walk. `Tells` says what an entry has to do with its
page. -/
theorem Walk.record_eq {ρ : Type} {fetch : Nat → τ × List ρ → Except ε (Page α) × τ × List ρ}
    {Tells : Nat → Page α → ρ → Prop}
    (hstep : ∀ o s page s', fetch o s = (.ok page, s') →
      ∃ entry, s'.2 = s.2 ++ [entry] ∧ Tells o page entry)
    {o : Nat} {s s' : τ × List ρ} {pages : List (Page α)} {fault : Option ε}
    (h : Walk limit fetch o s pages fault s') (hfault : fault = none) :
    ∃ record, s'.2 = s.2 ++ record ∧ record ≠ [] ∧ record.length = pages.length ∧
      ∀ k entry, record[k]? = some entry → ∃ page, pages[k]? = some page ∧
        Tells (o + k * limit) page entry ∧
        (k + 1 = record.length ↔ page.isLast (o + k * limit) limit = true) := by
  induction h with
  | failed hfetch => cases hfault
  | @last o s s' page hfetch hlast =>
    obtain ⟨entry, hrecord, htells⟩ := hstep o s page s' hfetch
    refine ⟨[entry], hrecord, by simp, rfl, ?_⟩
    rintro (_ | k) entry' hk
    · obtain rfl : entry = entry' := by simpa using hk
      exact ⟨page, rfl, by simpa using htells, by simpa using hlast⟩
    · simp at hk
  | @next o s s' s'' page pages fault hfetch hlast hwalk ih =>
    obtain ⟨entry, hrecord, htells⟩ := hstep o s page s' hfetch
    obtain ⟨record, hrest, hne, hlength, hentries⟩ := ih hfault
    refine ⟨entry :: record, ?_, by simp, by rw [List.length_cons, List.length_cons, hlength], ?_⟩
    · rw [hrest, hrecord, List.append_assoc]
      rfl
    · rintro (_ | k) entry' hk
      · obtain rfl : entry = entry' := by simpa using hk
        exact ⟨page, rfl, by simpa using htells, by simpa [hlast] using hne⟩
      · -- an entry behind the first one is one of the rest, a limit further on
        obtain ⟨page', hpage', htells', hend⟩ := hentries k entry' hk
        have hoffset : o + (k + 1) * limit = o + limit + k * limit := by
          rw [Nat.succ_mul]
          omega
        rw [hoffset]
        refine ⟨page', hpage', htells', ?_⟩
        rw [List.length_cons, ← hend]
        omega

/-! ## Tilings -/

/-- A page at an offset of a list: the slice, and a total that does not fall short. -/
structure IsSlice (L : List α) (limit o : Nat) (page : Page α) : Prop where
  entries : page.entries = (L.drop o).take limit
  total : ∀ n ∈ page.total, L.length ≤ n.toNat

/-- The pages of a list from an offset on, up to the first one that ends a walk. -/
inductive Tiles (L : List α) (limit : Nat) : Nat → List (Page α) → Prop
  | last {o : Nat} {page : Page α} :
      IsSlice L limit o page → page.isLast o limit = true → Tiles L limit o [page]
  | next {o : Nat} {page : Page α} {pages : List (Page α)} :
      IsSlice L limit o page → page.isLast o limit = false → Tiles L limit (o + limit) pages →
      Tiles L limit o (page :: pages)

variable {L : List α} {o : Nat} {page : Page α} {pages : List (Page α)}

theorem IsSlice.length (h : IsSlice L limit o page) :
    page.entries.length = min limit (L.length - o) := by
  simp [h.entries]

/-- A page that is not the last is full, and the list goes on to its end at least. -/
theorem IsSlice.le_of_not_last (h : IsSlice L limit o page) (hlimit : 0 < limit)
    (hlast : page.isLast o limit = false) : o + limit ≤ L.length := by
  have hlen := h.length
  simp only [isLast, Bool.or_eq_false_iff, decide_eq_false_iff_not] at hlast
  omega

/-- Nothing is left behind the last page. -/
theorem IsSlice.le_of_last (h : IsSlice L limit o page) (ho : o ≤ L.length)
    (hlast : page.isLast o limit = true) : L.length ≤ o + limit := by
  have hlen := h.length
  simp only [isLast, Bool.or_eq_true, decide_eq_true_eq] at hlast
  -- a page that is not full reaches the end by its length, a total by covering the list
  rcases hlast with hshort | hreached
  · omega
  · split at hreached
    · exact absurd hreached Bool.false_ne_true
    · next n hn =>
      have hn : L.length ≤ n.toNat := h.total n hn
      have hreached := of_decide_eq_true hreached
      omega

/-- **Tiling pages hold the list**, from their offset on. -/
theorem Tiles.entries_eq (h : Tiles L limit o pages) (hlimit : 0 < limit) (ho : o ≤ L.length) :
    pages.flatMap (·.entries) = L.drop o := by
  induction h with
  | @last o page hpage hlast =>
    have hend := hpage.le_of_last ho hlast
    simp only [List.flatMap_cons, List.flatMap_nil, List.append_nil, hpage.entries]
    exact List.take_of_length_le (by rw [List.length_drop]; omega)
  | @next o page pages hpage hlast htail ih =>
    -- the slice here and the rest from the next offset on are the rest from here on
    rw [List.flatMap_cons, ih (hpage.le_of_not_last hlimit hlast), hpage.entries,
      ← List.drop_drop]
    exact List.take_append_drop limit (L.drop o)

/-- The pages of a tiling are slices at the multiples of the limit. -/
theorem Tiles.isSlice_of_getElem? (h : Tiles L limit o pages) {k : Nat}
    (hk : pages[k]? = some page) : IsSlice L limit (o + k * limit) page := by
  induction h generalizing k with
  | @last o page' hpage hlast =>
    cases k with
    | zero =>
      obtain rfl : page' = page := by simpa using hk
      simpa using hpage
    | succ k => simp at hk
  | @next o page' pages hpage hlast htail ih =>
    cases k with
    | zero =>
      obtain rfl : page' = page := by simpa using hk
      simpa using hpage
    | succ k =>
      have hlater := ih hk
      rwa [show o + (k + 1) * limit = o + limit + k * limit by rw [Nat.succ_mul]; omega]

/-- No tiling is longer than the list asks for. -/
theorem Tiles.length_le (h : Tiles L limit o pages) (hlimit : 0 < limit) :
    pages.length ≤ (L.length - o) / limit + 1 := by
  induction h with
  | last => simp
  | @next o page pages hpage hlast htail ih =>
    have hmore := hpage.le_of_not_last hlimit hlast
    have hstep : (L.length - o) / limit = (L.length - (o + limit)) / limit + 1 := by
      rw [Nat.div_eq_sub_div hlimit (by omega), Nat.sub_sub]
    rw [List.length_cons, hstep]
    omega

/-! ## Faithful walks -/

/-- **A walk over faithful answers ends**, with pages that tile the list. `allowed` says of the
totals what is known beside their not falling short. -/
theorem exists_walk_of_slices {allowed : Option UInt64 → Prop} (hlimit : 0 < limit)
    (hfetch : ∀ o s, o ≤ L.length → ∃ page s', fetch o s = (.ok page, s') ∧
      IsSlice L limit o page ∧ allowed page.total) :
    ∀ (o : Nat) (s : τ), o ≤ L.length →
    ∃ pages s', Walk limit fetch o s pages none s' ∧ Tiles L limit o pages ∧
      ∀ page ∈ pages, allowed page.total := by
  intro o s ho
  obtain ⟨page, s', hanswer, hslice, hallowed⟩ := hfetch o s ho
  cases hlast : page.isLast o limit with
  | true =>
    refine ⟨[page], s', .last hanswer hlast, .last hslice hlast, ?_⟩
    simpa using hallowed
  | false =>
    -- a page that is not the last is full, so less of the list is left: the measure falls
    have hmore := hslice.le_of_not_last hlimit hlast
    obtain ⟨pages, s'', hwalk, htiles, hall⟩ :=
      exists_walk_of_slices hlimit hfetch (o + limit) s' hmore
    refine ⟨page :: pages, s'', .next hanswer hlast hwalk, .next hslice hlast htiles, ?_⟩
    simpa using ⟨hallowed, hall⟩
termination_by o => L.length - o

/-! ## The loop with a record -/

/-- Leaving something out of the state that no fetch looks at makes no difference to the loop. -/
theorem collect_forget {σ : Type} {fetch : Nat → τ → Except ε (Page α) × τ}
    {fetch' : Nat → σ → Except ε (Page α) × σ} (forget : σ → τ)
    (hfetch : ∀ o t, fetch o (forget t) = ((fetch' o t).1, forget (fetch' o t).2))
    (exhausted : ε) (budget o : Nat) (t : σ) :
    collect limit fetch exhausted budget o (forget t) =
      ((collect limit fetch' exhausted budget o t).1,
        forget (collect limit fetch' exhausted budget o t).2) := by
  have hagree : Agree (fun s t => s = forget t) (collect limit fetch exhausted budget o (forget t))
      (collect limit fetch' exhausted budget o t) := by
    refine collect_agree ?_ exhausted budget o rfl
    rintro o _ t rfl
    rw [hfetch]
    exact ⟨rfl, rfl⟩
  exact Prod.ext hagree.answer hagree.state

/-- **A record of the loop has its entries in steps of the limit**, however the loop ends: every
fetch adds one, but one that fails may add none. It has an entry if the first fetch adds one. -/
theorem collect_record (limit : Nat) {ρ : Type}
    {fetch : Nat → τ × List ρ → Except ε (Page α) × τ × List ρ} {Asks : Nat → ρ → Prop}
    (hstep : ∀ o s, ∃ sent, (fetch o s).2.2 = s.2 ++ sent ∧
      ((sent = [] ∧ ∃ e, (fetch o s).1 = .error e) ∨ ∃ entry, sent = [entry] ∧ Asks o entry))
    (exhausted : ε) (budget o : Nat) (s : τ × List ρ) :
    ∃ record, (collect limit fetch exhausted budget o s).2.2 = s.2 ++ record ∧
      (∀ k entry, record[k]? = some entry → Asks (o + k * limit) entry) ∧
      (0 < budget → (fetch o s).2.2 ≠ s.2 → record ≠ []) := by
  induction budget generalizing o s with
  | zero => exact ⟨[], by simp [collect], by simp, by simp⟩
  | succ budget ih =>
    obtain ⟨sent, hsent, hcases⟩ := hstep o s
    have hfirst : ∀ k entry, sent[k]? = some entry → Asks (o + k * limit) entry := by
      rcases hcases with ⟨rfl, -⟩ | ⟨entry, rfl, hasks⟩
      · simp
      · rintro (_ | k) entry' hk
        · obtain rfl : entry = entry' := by simpa using hk
          simpa using hasks
        · simp at hk
    have hadds : (fetch o s).2.2 ≠ s.2 → sent ≠ [] := by
      rintro hne rfl
      exact hne (by simpa using hsent)
    rcases hfetch : fetch o s with ⟨e | page, s'⟩
    · rw [hfetch] at hsent hadds
      exact ⟨sent, by simp only [collect, hfetch]; exact hsent, hfirst, fun _ => hadds⟩
    · -- the walk goes on only behind a page, and a page has its entry
      rw [hfetch] at hsent hcases hadds
      by_cases hlast : page.isLast o limit = true
      · exact ⟨sent, by simp only [collect, hfetch, hlast, if_true]; exact hsent, hfirst,
          fun _ => hadds⟩
      · obtain ⟨record, hrest, hentries, -⟩ := ih (o + limit) s'
        obtain ⟨entry, rfl, hasks⟩ : ∃ entry, sent = [entry] ∧ Asks o entry := by
          rcases hcases with ⟨-, e, he⟩ | hentry
          · cases he
          · exact hentry
        refine ⟨entry :: record, ?_, ?_, by simp⟩
        · simp only [collect, hfetch, if_neg hlast]
          rcases hcollect : collect limit fetch exhausted budget (o + limit) s' with
            ⟨answer, s''⟩
          rw [hcollect] at hrest
          cases answer <;> simp only <;> rw [hrest, hsent, List.append_assoc] <;> rfl
        · rintro (_ | k) entry' hk
          · obtain rfl : entry = entry' := by simpa using hk
            simpa using hasks
          · have hlater := hentries k entry' hk
            rwa [show o + (k + 1) * limit = o + limit + k * limit by rw [Nat.succ_mul]; omega]

/-- A loop fails as one of its fetches does, or because its budget is exhausted. -/
theorem collect_error_cause {fetch : Nat → τ → Except ε (Page α) × τ} {Cause : ε → Prop}
    (hfetch : ∀ o s e, (fetch o s).1 = .error e → Cause e) {exhausted : ε}
    (hexhausted : Cause exhausted) {budget o : Nat} {s : τ} {e : ε}
    (h : (collect limit fetch exhausted budget o s).1 = .error e) : Cause e := by
  induction budget generalizing o s with
  | zero =>
    obtain rfl : exhausted = e := Except.error.inj h
    exact hexhausted
  | succ budget ih =>
    rw [collect] at h
    rcases hpage : fetch o s with ⟨e' | page, s'⟩
    · rw [hpage] at h
      obtain rfl : e' = e := Except.error.inj h
      exact hfetch o s e' (by rw [hpage])
    · rw [hpage] at h
      simp only at h
      split at h
      · cases h
      · rcases hrest : collect limit fetch exhausted budget (o + limit) s' with ⟨e' | page, s''⟩
        · rw [hrest] at h
          obtain rfl : e' = e := Except.error.inj h
          exact ih (by rw [hrest])
        · rw [hrest] at h
          cases h

end DbInventory.Page
