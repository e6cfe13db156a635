/-
# DbInventory.Proofs.Json.Loops -- lists and objects read round by round

The loops over elements and members have a bound on their rounds. `Elements` and `Members` are
the same loops as derivations, one constructor for each kind of round, and every proof about a
loop is an induction on them: that the loop is local, and that its brackets can be passed
over. The bound of the loops never matters, since every round takes a character
(`readItems_eq_ok_iff`, `readMembers_eq_ok_iff`).
-/

import DbInventory.Json.Record
import DbInventory.Proofs.Json.Skipping

namespace DbInventory.Json

variable {α σ : Type} {s u m rest out : List Char} {frames : List Frame} {first : Bool}

/-! ## Elements -/

/-- The text at the next element of a list. -/
def AtItem (first : Bool) (s u : List Char) : Prop :=
  (∃ c t, u = c :: t ∧ c ≠ ']') ∧
    if first then skipBlanks s = u else ∃ t, skipBlanks s = ',' :: t ∧ skipBlanks t = u

/-- **The rounds over the elements of a list.** The state tells how the next element is read,
if there may be one. -/
inductive Elements (element : σ → Option (Reader σ)) :
    Bool → σ → List Char → σ → List Char → Prop
  | done {first : Bool} {st : σ} {s rest : List Char} (h : skipBlanks s = ']' :: rest) :
    Elements element first st s st rest
  | item {first : Bool} {st st₁ st' : σ} {s u m rest : List Char} {r : Reader σ}
    (hr : element st = some r) (hu : AtItem first s u) (hx : r u = .ok (st₁, m))
    (hrest : Elements element false st₁ m st' rest) : Elements element first st s st' rest

/-- All elements are read by one kind of reader. -/
def AllRead (element : σ → Option (Reader σ)) : Prop :=
  ∀ st r, element st = some r → ReadsValue r

variable {element : σ → Option (Reader σ)} {st st' : σ}

theorem length_of_atItem (h : AtItem first s u) : u.length ≤ s.length := by
  have hblanks : ∀ s, (skipBlanks s).length ≤ s.length := fun s =>
    (List.dropWhile_sublist isBlank).length_le
  obtain ⟨-, hu⟩ := h
  cases first with
  | true =>
    obtain rfl : skipBlanks s = u := hu
    exact hblanks s
  | false =>
    obtain ⟨t, ht, rfl⟩ : ∃ t, skipBlanks s = ',' :: t ∧ skipBlanks t = u := hu
    have hs := hblanks s
    have ht' := hblanks t
    rw [ht, List.length_cons] at hs
    omega

/-- The next element, with the way to it. -/
theorem local_item {r : Reader α} (hr : ReadsValue r) (first : Bool) (x : α) :
    Local fun s m => ∃ u, AtItem first s u ∧ r u = .ok (x, m) := by
  have hcons : Local fun u m => (∃ c t, u = c :: t ∧ c ≠ ']') ∧ r u = .ok (x, m) :=
    (hr.isLocal x).of_cons (· ≠ ']')
  cases first with
  | true =>
    refine hcons.blanks.congr fun s m => ?_
    constructor
    · rintro ⟨u, ⟨hc, hu⟩, hx⟩
      obtain rfl : skipBlanks s = u := hu
      exact ⟨hc, hx⟩
    · rintro ⟨hc, hx⟩
      exact ⟨skipBlanks s, ⟨hc, rfl⟩, hx⟩
  | false =>
    refine ((local_char ',').comp hcons.blanks).congr fun s m => ?_
    constructor
    · rintro ⟨u, ⟨hc, hu⟩, hx⟩
      obtain ⟨t, ht, rfl⟩ : ∃ t, skipBlanks s = ',' :: t ∧ skipBlanks t = u := hu
      exact ⟨t, ht, hc, hx⟩
    · rintro ⟨t, ht, hc, hx⟩
      exact ⟨skipBlanks t, ⟨hc, t, ht, rfl⟩, hx⟩

theorem local_elements (hall : AllRead element) (first : Bool) (st st' : σ) :
    Local fun s rest => Elements element first st s st' rest := by
  intro s rest h
  induction h with
  | @done first st s rest h => exact (local_char ']' s rest h).imp fun s rest => .done
  | @item first st st₁ st' s u m rest r hr hu hx _ ih =>
    have hitem := (local_item (hall st r hr) first st₁).peeks s m ⟨u, hu, hx⟩
    apply hitem.comp ih
    rintro s m rest ⟨u, hu, hx⟩ hrest
    exact .item hr hu hx hrest

theorem skipStep_skipBlanks (frames : List Frame) (s : List Char) :
    skipStep frames (skipBlanks s) = skipStep frames s := by
  rw [skipStep, skipStep, skipBlanks_skipBlanks]

theorem Skips.of_skipBlanks (h : Skips frames (skipBlanks s) rest) : Skips frames s rest := by
  cases h with
  | done h => exact .done (by rwa [skipStep_skipBlanks] at h)
  | more h hrest => exact .more (by rwa [skipStep_skipBlanks] at h) hrest

/-- What follows an element of a list is passed over like the rest of the list. -/
theorem Elements.resumes (hall : AllRead element) (h : Elements element false st s st' rest)
    (hrest : Resumes frames rest out) : Resumes (.list :: frames) s out := by
  -- the flag of the first round is an index of the derivation: it is set aside for the induction
  generalize hfirst : false = first at h
  induction h with
  | @done first st s rest h =>
    unfold Resumes
    rw [afterValue, h]
    exact hrest
  | @item first st st₁ st' s u m rest r hr hu hx _ ih =>
    subst hfirst
    obtain ⟨t, ht, rfl⟩ : ∃ t, skipBlanks s = ',' :: t ∧ skipBlanks t = u := hu.2
    have hskips := (hall st r hr).passes hx (ih hrest rfl)
    exact .inr ⟨.list :: frames, t, afterValue_cons_eq_ok_iff.2 (.inl ⟨rfl, t, ht, rfl⟩),
      hskips.of_skipBlanks⟩

/-- **A list is passed over**, whatever its elements are read by. -/
theorem Elements.skips (hall : AllRead element) (hs : skipBlanks s = '[' :: u)
    (h : Elements element true st u st' rest) (hrest : Resumes frames rest out) :
    Skips frames s out := by
  cases h with
  | done h => exact Skips.of_small (.inr ⟨.list, u, hs, h⟩) hrest
  | @item _ _ st₁ _ _ v m _ r hr hv hx htail =>
    obtain ⟨⟨c, t, rfl, hc⟩, hv⟩ := hv
    have hopens : Opens .list s (c :: t) := ⟨u, c, t, hs, hv, hc, rfl⟩
    exact Skips.of_opens hopens ((hall st r hr).passes hx (htail.resumes hall hrest))

/-! ## Lists of one kind of element -/

/-- Reads one more element; elements are kept in reverse order. -/
def readNext (r : Reader α) (xs : List α) : Reader (List α) := fun s =>
  r s >>= fun p => .ok (p.1 :: xs, p.2)

def collectItem (r : Reader α) (xs : List α) : Option (Reader (List α)) := some (readNext r xs)

theorem readNext_eq_ok_iff {r : Reader α} {acc acc' : List α} :
    readNext r acc s = .ok (acc', rest) ↔ ∃ x, r s = .ok (x, rest) ∧ acc' = x :: acc :=
  bind_fst_eq_ok (g := fun x => x :: acc)

theorem allRead_collectItem {r : Reader α} (hr : ReadsValue r) : AllRead (collectItem r) := by
  intro acc r' hr'
  obtain rfl := Option.some.inj hr'
  exact hr.map fun x => x :: acc

variable {r : Reader α} {xs acc acc' : List α}

theorem elements_of_readItemsTail {n : Nat} (h : readItemsTail r n s = .ok (xs, rest))
    (acc : List α) : Elements (collectItem r) false acc s (xs.reverse ++ acc) rest := by
  induction n generalizing s xs acc with
  | zero => cases h
  | succ n ih =>
    rw [readItemsTail] at h
    cases hs : skipBlanks s with
    | nil => simp [hs] at h
    | cons c t =>
      rw [hs] at h
      by_cases hclose : c = ']'
      · subst hclose
        simp only [if_true, Except.ok.injEq, Prod.mk.injEq] at h
        obtain ⟨rfl, rfl⟩ := h
        exact .done hs
      · by_cases hcomma : c = ','
        · subst hcomma
          simp only [if_neg hclose, if_true] at h
          cases ht : skipBlanks t with
          | nil => simp [ht] at h
          | cons d v =>
            simp only [ht] at h
            by_cases hd : d = ']'
            · simp [hd] at h
            · simp only [if_neg hd, bind_eq_ok, Prod.exists] at h
              obtain ⟨x, m, hx, ys, m', hys, h⟩ := h
              cases h
              have hitem : AtItem false s (d :: v) := ⟨⟨d, v, rfl, hd⟩, t, hs, ht⟩
              have htail := ih hys (x :: acc)
              rw [List.reverse_cons, List.append_assoc]
              exact .item rfl hitem (readNext_eq_ok_iff.2 ⟨x, hx, rfl⟩) htail
        · simp [hclose, hcomma] at h

/-- As many rounds as there are characters suffice. -/
theorem Elements.readItemsTail_eq (hr : ReadsValue r)
    (h : Elements (collectItem r) false acc s acc' rest) :
    ∃ xs, acc' = xs.reverse ++ acc ∧
      ∀ n, s.length ≤ n → readItemsTail r n s = .ok (xs, rest) := by
  generalize hfirst : false = first at h
  induction h with
  | @done first acc s rest h =>
    refine ⟨[], rfl, fun n hn => ?_⟩
    have hpos := (local_char ']').length_lt h
    obtain ⟨n, rfl⟩ : ∃ k, n = k + 1 := ⟨n - 1, by omega⟩
    rw [readItemsTail, h]
    rfl
  | @item first acc acc₁ acc' s u m rest r' hr' hu hx _ ih =>
    subst hfirst
    obtain ⟨xs, hacc, hagain⟩ := ih rfl
    obtain rfl := Option.some.inj hr'
    obtain ⟨x, hread, rfl⟩ := readNext_eq_ok_iff.1 hx
    refine ⟨x :: xs, by rw [hacc, List.reverse_cons, List.append_assoc]; rfl, fun n hn => ?_⟩
    have hlt := hr.length_lt hread
    have hle := length_of_atItem hu
    obtain ⟨⟨d, v, rfl, hd⟩, t, ht, hv⟩ := hu
    obtain ⟨n, rfl⟩ : ∃ k, n = k + 1 := ⟨n - 1, by omega⟩
    rw [readItemsTail, ht]
    simp only [hv, if_neg hd, hread, hagain n (by omega), bind, Except.bind]
    rfl

/-- **The loop over elements is its rounds.** -/
theorem readItems_eq_ok_iff (hr : ReadsValue r) :
    readItems r s = .ok (xs, rest) ↔ Elements (collectItem r) true [] s xs.reverse rest := by
  constructor
  · intro h
    unfold readItems at h
    cases hs : skipBlanks s with
    | nil => simp [hs] at h
    | cons c t =>
      simp only [hs] at h
      by_cases hclose : c = ']'
      · subst hclose
        simp only [if_true, Except.ok.injEq, Prod.mk.injEq] at h
        obtain ⟨rfl, rfl⟩ := h
        exact .done hs
      · simp only [if_neg hclose, bind_eq_ok, Prod.exists] at h
        obtain ⟨x, m, hx, ys, m', hys, h⟩ := h
        cases h
        have hitem : AtItem true s (c :: t) := ⟨⟨c, t, rfl, hclose⟩, hs⟩
        rw [List.reverse_cons]
        exact .item rfl hitem (readNext_eq_ok_iff.2 ⟨x, hx, rfl⟩)
          (elements_of_readItemsTail hys [x])
  · intro h
    generalize hacc : xs.reverse = acc at h
    cases h with
    | done h =>
      obtain rfl : xs = [] := List.reverse_eq_nil_iff.1 hacc
      simp only [readItems, h, if_true]
    | @item _ _ acc₁ _ _ u m _ r' hr' hu hx htail =>
      subst hacc
      obtain rfl := Option.some.inj hr'
      obtain ⟨x, hread, rfl⟩ := readNext_eq_ok_iff.1 hx
      obtain ⟨ys, hys, hagain⟩ := htail.readItemsTail_eq hr
      obtain rfl : xs = x :: ys := by
        rw [← List.reverse_inj, hys, List.reverse_cons]
      obtain ⟨⟨c, t, rfl, hc⟩, hs⟩ := hu
      have hs : skipBlanks s = c :: t := hs
      simp only [readItems, hs, if_neg hc, hread, hagain m.length (Nat.le_refl _), bind,
        Except.bind]

/-! ## Records in list form -/

/-- Reads a field, and counts it. -/
def readCounted (field : σ → Reader σ) (p : σ × Nat) : Reader (σ × Nat) := fun s =>
  field p.1 s >>= fun q => .ok ((q.1, p.2 + 1), q.2)

theorem readCounted_eq_ok_iff {field : σ → Reader σ} {p p' : σ × Nat} :
    readCounted field p s = .ok (p', rest) ↔
      ∃ st, field p.1 s = .ok (st, rest) ∧ p' = (st, p.2 + 1) :=
  bind_fst_eq_ok (g := fun st => (st, p.2 + 1))

/-- Reads the next of all fields of a record. -/
def nextField (all : List (σ → Reader σ)) (p : σ × Nat) : Option (Reader (σ × Nat)) :=
  all[p.2]?.map fun field => readCounted field p

theorem allRead_nextField {all : List (σ → Reader σ)}
    (h : ∀ field ∈ all, ∀ st, ReadsValue (field st)) : AllRead (nextField all) := by
  intro p r hr
  obtain ⟨field, hfield, rfl⟩ := Option.map_eq_some_iff.1 hr
  exact (h field (List.mem_of_getElem? hfield) p.1).map fun st => (st, p.2 + 1)

theorem closeList_eq_ok_iff : RecordForm.closeList s = .ok rest ↔ skipBlanks s = ']' :: rest := by
  unfold RecordForm.closeList
  cases skipBlanks s with
  | nil => simp
  | cons c t =>
    by_cases hclose : c = ']'
    · subst hclose
      simp
    · by_cases hcomma : c = ','
      · subst hcomma
        cases ht : skipBlanks t with
        | nil => simp [ht]
        | cons d v => by_cases hd : d = ']' <;> simp [ht, hd]
      · simp [hclose, hcomma]

/-- The next field, at its place in the list. -/
theorem readElements_cons_eq_ok_iff {total : String} {n : Nat} {field : σ → Reader σ}
    {fields : List (σ → Reader σ)} :
    RecordForm.readElements total n (field :: fields) st s = .ok (st', rest) ↔
      ∃ u st₁ m, AtItem (n == 0) s u ∧ field st u = .ok (st₁, m) ∧
        RecordForm.readElements total (n + 1) fields st₁ m = .ok (st', rest) := by
  constructor
  · intro h
    unfold RecordForm.readElements at h
    cases hs : skipBlanks s with
    | nil => simp [hs] at h
    | cons c t =>
      simp only [hs] at h
      by_cases hclose : c = ']'
      · simp [hclose] at h
      · by_cases hn : n = 0
        · simp only [if_neg hclose, if_pos hn, bind_eq_ok, Prod.exists] at h
          obtain ⟨st₁, m, hfield, hrest⟩ := h
          rw [hn]
          exact ⟨c :: t, st₁, m, ⟨⟨c, t, rfl, hclose⟩, hs⟩, hfield, by rwa [hn] at hrest⟩
        · by_cases hcomma : c = ','
          · subst hcomma
            cases ht : skipBlanks t with
            | nil => simp [hn, ht] at h
            | cons d v =>
              by_cases hd : d = ']'
              · simp [hn, ht, hd] at h
              · simp only [if_neg hclose, if_neg hn, if_true, ht, if_neg hd, bind_eq_ok,
                  Prod.exists] at h
                obtain ⟨st₁, m, hfield, hrest⟩ := h
                rw [beq_false_of_ne hn]
                exact ⟨d :: v, st₁, m, ⟨⟨d, v, rfl, hd⟩, t, hs, ht⟩, hfield, hrest⟩
          · simp [hclose, hn, hcomma] at h
  · rintro ⟨u, st₁, m, hu, hfield, hrest⟩
    by_cases hn : n = 0
    · subst hn
      obtain ⟨⟨c, t, rfl, hclose⟩, hs⟩ := hu
      have hs : skipBlanks s = c :: t := hs
      simp only [RecordForm.readElements, hs, if_neg hclose, if_true, hfield, bind, Except.bind]
      exact hrest
    · rw [beq_false_of_ne hn] at hu
      obtain ⟨⟨d, v, rfl, hd⟩, t, hs, ht⟩ := hu
      have hclose : ',' ≠ ']' := by decide
      simp only [RecordForm.readElements, hs, if_neg hclose, if_neg hn, if_true, ht, if_neg hd,
        hfield, bind, Except.bind]
      exact hrest

/-- What is left behind `n` elements starts with the one at that index. -/
theorem next_of_drop {n : Nat} {l l' : List α} {x : α} (h : l.drop n = x :: l') :
    l[n]? = some x ∧ l.drop (n + 1) = l' ∧ n < l.length := by
  have hget : l[n]? = some x := by
    rw [← List.head?_drop, h]
    rfl
  refine ⟨hget, ?_, (List.getElem?_eq_some_iff.1 hget).1⟩
  rw [← List.tail_drop, h]
  rfl

/-- The fields from the `n`-th on. -/
theorem readElements_iff {total : String} {n : Nat} {all : List (σ → Reader σ)}
    (hn : n ≤ all.length) :
    (∃ m, RecordForm.readElements total n (all.drop n) st s = .ok (st', m) ∧
      RecordForm.closeList m = .ok rest) ↔
      Elements (nextField all) (n == 0) (st, n) s (st', all.length) rest := by
  generalize hfields : all.drop n = fields
  induction fields generalizing n st s with
  | nil =>
    obtain rfl : n = all.length := Nat.le_antisymm hn (List.drop_eq_nil_iff.1 hfields)
    constructor
    · rintro ⟨m, h, hclose⟩
      cases h
      exact .done (closeList_eq_ok_iff.1 hclose)
    · intro h
      cases h with
      | done h => exact ⟨s, rfl, closeList_eq_ok_iff.2 h⟩
      | item hr => simp [nextField] at hr
  | cons field fields ih =>
    obtain ⟨hget, hdrop, hlt⟩ := next_of_drop hfields
    constructor
    · rintro ⟨m, h, hclose⟩
      obtain ⟨u, st₁, v, hu, hfield, hrest⟩ := readElements_cons_eq_ok_iff.1 h
      have htail := (ih hlt hdrop).1 ⟨m, hrest, hclose⟩
      have hnext : nextField all (st, n) = some (readCounted field (st, n)) := by
        rw [nextField, hget]
        rfl
      exact .item hnext hu (readCounted_eq_ok_iff.2 ⟨st₁, hfield, rfl⟩) htail
    · intro h
      generalize hend : (st', all.length) = p at h
      cases h with
      | done h =>
        obtain ⟨-, hlength⟩ := Prod.mk.inj hend
        omega
      | item hr hu hx htail =>
        subst hend
        rw [nextField, hget] at hr
        obtain rfl := Option.some.inj hr
        obtain ⟨st₁, hfield, rfl⟩ := readCounted_eq_ok_iff.1 hx
        obtain ⟨v, hrest, hclose⟩ := (ih hlt hdrop).2 htail
        exact ⟨v, readElements_cons_eq_ok_iff.2 ⟨_, _, _, hu, hfield, hrest⟩, hclose⟩

/-- **A record in list form is read by the rounds over its fields.** -/
theorem readList_eq_ok_iff {form : RecordForm σ α} {x : α} :
    form.readList s = .ok (x, rest) ↔
      ∃ st, Elements (nextField form.elements) true (form.start, 0) s
          (st, form.elements.length) rest ∧
        form.finish st = .ok x := by
  unfold RecordForm.readList
  rw [bind_eq_ok]
  constructor
  · rintro ⟨⟨st, m⟩, helements, h⟩
    cases hx : form.finish st with
    | error cause => simp [hx] at h
    | ok y =>
      simp only [hx, bind_eq_ok] at h
      obtain ⟨t, hclose, h⟩ := h
      cases h
      exact ⟨st, (readElements_iff (Nat.zero_le _)).1 ⟨m, helements, hclose⟩, hx⟩
  · rintro ⟨st, h, hx⟩
    obtain ⟨m, helements, hclose⟩ := (readElements_iff (Nat.zero_le _)).2 h
    refine ⟨(st, m), helements, ?_⟩
    simp only [hx, bind_eq_ok]
    exact ⟨rest, hclose, rfl⟩

end DbInventory.Json
