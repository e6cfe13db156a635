/-
# DbInventory.Dict -- maps from names to values, kept in name order

Schemas, configurations, states and tag sets are all maps from names to values that
are visited in the order of their names. `Dict` stores such a map as a list of entries
whose names strictly increase, so a map has exactly one representation: two maps with the
same look-ups are equal (`Dict.ext_get?`). Names are compared code point by code point,
which is also the order of their UTF-8 bytes.

The list operations are stated for bare entry lists (`Entries`), since the members of a
JSON object and the attributes of a schema are stored as bare lists inside inductive types.
-/

namespace DbInventory

universe u v

variable {α : Type u} {β : Type v}

/-! ## Entry lists -/

namespace Entries

/-- Puts a value under a name, in front of the first larger name; a value that is already
there is replaced. -/
def insert (k : String) (x : α) : List (String × α) → List (String × α)
  | [] => [(k, x)]
  | (k', x') :: rest =>
    if k < k' then (k, x) :: (k', x') :: rest
    else if k = k' then (k, x) :: rest
    else (k', x') :: insert k x rest

/-- The names strictly increase. -/
def Sorted (l : List (String × α)) : Prop :=
  l.Pairwise fun a b => a.1 < b.1

instance (l : List (String × α)) : Decidable (Sorted l) :=
  inferInstanceAs (Decidable (l.Pairwise fun a b => a.1 < b.1))

theorem lt_of_not_lt_of_ne {a b : String} (h : ¬a < b) (hne : a ≠ b) : b < a := by
  rcases Decidable.em (b < a) with hlt | hge
  · exact hlt
  · exact absurd (String.le_antisymm (String.not_lt.1 hge) (String.not_lt.1 h)) hne

theorem mem_insert {k : String} {x : α} {e : String × α} {l : List (String × α)}
    (h : e ∈ insert k x l) : e = (k, x) ∨ e ∈ l := by
  induction l with
  | nil => simpa [insert] using h
  | cons hd tl ih =>
    simp only [insert] at h
    split at h
    · simpa using h
    · split at h <;> grind

theorem sorted_nil : Sorted ([] : List (String × α)) := List.Pairwise.nil

theorem Sorted.insert {k : String} {x : α} {l : List (String × α)} (h : Sorted l) :
    Sorted (Entries.insert k x l) := by
  induction l with
  | nil => simp [Entries.insert, Sorted]
  | cons hd tl ih =>
    obtain ⟨hhd, htl⟩ := List.pairwise_cons.1 h
    simp only [Entries.insert]
    split
    next hlt =>
      exact List.pairwise_cons.2 ⟨fun e he => (List.mem_cons.1 he).elim
        (fun heq => heq ▸ hlt) (fun hmem => String.lt_trans hlt (hhd e hmem)), h⟩
    next hlt =>
      split
      next heq => exact List.pairwise_cons.2 ⟨fun e he => heq ▸ hhd e he, htl⟩
      next hne =>
        exact List.pairwise_cons.2 ⟨fun e he => (mem_insert he).elim
          (fun heq => heq ▸ lt_of_not_lt_of_ne hlt hne) (hhd e), ih htl⟩

/-- The value of a name is that of the first entry with this name. -/
theorem lookup_cons (k : String) (e : String × α) (l : List (String × α)) :
    (e :: l).lookup k = if k = e.1 then some e.2 else l.lookup k := by
  obtain ⟨k', x⟩ := e
  rcases Decidable.em (k = k') with h | h
  · simp [h]
  · simp only [List.lookup_cons, beq_false_of_ne h, if_neg h]

theorem lookup_insert (k k' : String) (x : α) (l : List (String × α)) :
    (insert k x l).lookup k' = if k' = k then some x else l.lookup k' := by
  induction l with
  | nil => simp [insert, lookup_cons]
  | cons hd tl ih =>
    simp only [insert]
    split
    · simp only [lookup_cons]
    · split
      next heq => subst heq; simp only [lookup_cons]; split <;> rfl
      next hne =>
        simp only [lookup_cons, ih]
        split
        next h => subst h; rw [if_neg (Ne.symm hne)]
        next => rfl

theorem lookup_filter (k k' : String) (l : List (String × α)) :
    (l.filter fun e => e.1 ≠ k).lookup k' = if k' = k then none else l.lookup k' := by
  induction l with
  | nil => simp
  | cons e tl ih =>
    rw [List.filter_cons, lookup_cons]
    split
    next hne =>
      rw [lookup_cons, ih]
      split
      next heq => subst heq; rw [if_neg (of_decide_eq_true hne)]
      next => rfl
    next heq =>
      rw [ih]
      split
      next => rfl
      next hne => rw [if_neg fun h : k' = e.1 => heq (decide_eq_true (h ▸ hne))]

/-- A name below all names of a list is not in it. -/
theorem lookup_eq_none_of_lt {k : String} {l : List (String × α)} (h : ∀ e ∈ l, k < e.1) :
    l.lookup k = none := by
  induction l with
  | nil => rfl
  | cons hd tl ih =>
    have hne : k ≠ hd.1 := fun heq => String.lt_irrefl hd.1 (heq ▸ h hd (by simp))
    rw [lookup_cons, if_neg hne]
    exact ih fun e he => h e (by simp [he])

/-- In sorted entries the value of a name is that of its one entry. -/
theorem lookup_eq_some_iff {k : String} {x : α} {l : List (String × α)} (hl : Sorted l) :
    l.lookup k = some x ↔ (k, x) ∈ l := by
  induction l with
  | nil => simp
  | cons e tl ih =>
    obtain ⟨htl, hsorted⟩ := List.pairwise_cons.1 hl
    rw [lookup_cons, List.mem_cons]
    rcases Decidable.em (k = e.1) with heq | hne
    · subst heq
      have hnot : (e.1, x) ∉ tl := fun hmem => String.lt_irrefl e.1 (htl (e.1, x) hmem)
      simp [hnot, Prod.ext_iff, eq_comm]
    · have hne' : (k, x) ≠ e := fun h => hne (congrArg Prod.fst h)
      rw [if_neg hne, ih hsorted]
      simp [hne']

/-- In entries that give no name twice, the last value of a name is the first. -/
theorem lookup_reverse {l : List (String × α)} (hl : Sorted l) (k : String) :
    l.reverse.lookup k = l.lookup k := by
  induction l with
  | nil => rfl
  | cons e tl ih =>
    obtain ⟨htl, hsorted⟩ := List.pairwise_cons.1 hl
    rw [List.reverse_cons, List.lookup_append, ih hsorted]
    rcases Decidable.em (k = e.1) with heq | hne
    · rw [lookup_eq_none_of_lt fun x hx => heq ▸ htl x hx]
      simp [lookup_cons, heq]
    · simp [lookup_cons, hne]

/-- In sorted entries no first name is below a first name whose look-up agrees. -/
theorem not_lt_of_lookup_eq {a b : String × α} {l l' : List (String × α)}
    (h' : Sorted (b :: l')) (h : (a :: l).lookup a.1 = (b :: l').lookup a.1) : ¬a.1 < b.1 := by
  intro hlt
  have hnone : (b :: l').lookup a.1 = none :=
    lookup_eq_none_of_lt fun e he => (List.mem_cons.1 he).elim (fun heq => heq ▸ hlt)
      fun hmem => String.lt_trans hlt ((List.pairwise_cons.1 h').1 e hmem)
  rw [hnone, lookup_cons, if_pos rfl] at h
  exact Option.some_ne_none _ h

/-- Sorted entry lists with the same look-ups are equal. -/
theorem eq_of_lookup_eq {l l' : List (String × α)} (hl : Sorted l) (hl' : Sorted l')
    (h : ∀ k, l.lookup k = l'.lookup k) : l = l' := by
  induction l generalizing l' with
  | nil =>
    cases l' with
    | nil => rfl
    | cons e _ => exact absurd (h e.1) (by simp [lookup_cons])
  | cons a tl ih =>
    cases l' with
    | nil => exact absurd (h a.1) (by simp [lookup_cons])
    | cons b tl' =>
      have hkey : a.1 = b.1 :=
        String.le_antisymm (String.not_lt.1 (not_lt_of_lookup_eq hl (h b.1).symm))
          (String.not_lt.1 (not_lt_of_lookup_eq hl' (h a.1)))
      have hval : a.2 = b.2 := by
        simpa [lookup_cons, hkey] using h a.1
      obtain ⟨hatl, htl⟩ := List.pairwise_cons.1 hl
      obtain ⟨hbtl, htl'⟩ := List.pairwise_cons.1 hl'
      have htail : tl = tl' := by
        refine ih htl htl' fun k => ?_
        rcases Decidable.em (k = a.1) with heq | hne
        · subst heq
          rw [lookup_eq_none_of_lt hatl, lookup_eq_none_of_lt (hkey ▸ hbtl)]
        · simpa [lookup_cons, hne, hkey ▸ hne] using h k
      rw [htail, show a = b from Prod.ext hkey hval]

end Entries

/-! ## Maps -/

/-- A map from names to values, as entries whose names strictly increase. -/
structure Dict (α : Type u) where
  entries : List (String × α)
  sorted : Entries.Sorted entries := by decide

namespace Dict

def empty : Dict α := ⟨[], Entries.sorted_nil⟩

instance : EmptyCollection (Dict α) := ⟨empty⟩

instance : Inhabited (Dict α) := ⟨empty⟩

instance [DecidableEq α] : DecidableEq (Dict α) := fun d e =>
  if h : d.entries = e.entries then
    .isTrue (by cases d; cases e; simp_all)
  else .isFalse fun heq => h (heq ▸ rfl)

/-- The value under a name. -/
def get? (d : Dict α) (k : String) : Option α :=
  d.entries.lookup k

/-- Puts a value under a name, replacing the one that is there. -/
def insert (d : Dict α) (k : String) (x : α) : Dict α :=
  ⟨Entries.insert k x d.entries, d.sorted.insert⟩

/-- The map of a list of entries; of entries with one name the last counts. -/
def ofList (l : List (String × α)) : Dict α :=
  l.foldl (fun d e => d.insert e.1 e.2) empty

/-- Puts all entries of the second map into the first. -/
def extend (d e : Dict α) : Dict α :=
  e.entries.foldl (fun m x => m.insert x.1 x.2) d

/-- Takes the value under a name away. -/
def erase (d : Dict α) (k : String) : Dict α :=
  ⟨d.entries.filter fun e => e.1 ≠ k, d.sorted.filter _⟩

def map (f : α → β) (d : Dict α) : Dict β :=
  ⟨d.entries.map fun e => (e.1, f e.2), by
    simpa [Entries.Sorted, List.pairwise_map] using d.sorted⟩

/-- Maps with the same look-ups are equal. -/
theorem ext_get? {d e : Dict α} (h : ∀ k, d.get? k = e.get? k) : d = e := by
  obtain ⟨l, hl⟩ := d
  obtain ⟨l', hl'⟩ := e
  obtain rfl : l = l' := Entries.eq_of_lookup_eq hl hl' h
  rfl

@[simp]
theorem get?_empty (k : String) : (∅ : Dict α).get? k = none := rfl

theorem get?_insert (d : Dict α) (k k' : String) (x : α) :
    (d.insert k x).get? k' = if k' = k then some x else d.get? k' :=
  Entries.lookup_insert k k' x d.entries

@[simp]
theorem get?_insert_self (d : Dict α) (k : String) (x : α) :
    (d.insert k x).get? k = some x := by
  simp [get?_insert]

theorem get?_erase (d : Dict α) (k k' : String) :
    (d.erase k).get? k' = if k' = k then none else d.get? k' :=
  Entries.lookup_filter k k' d.entries

theorem get?_foldl_insert (l : List (String × α)) (d : Dict α) (k : String) :
    (l.foldl (fun m x => m.insert x.1 x.2) d).get? k =
      (l.reverse.lookup k).or (d.get? k) := by
  induction l generalizing d with
  | nil => simp
  | cons e tl ih =>
    rw [List.foldl_cons, ih, get?_insert, List.reverse_cons, List.lookup_append]
    cases tl.reverse.lookup k with
    | some _ => simp
    | none =>
      rcases Decidable.em (k = e.1) with h | h <;> simp [h, Entries.lookup_cons]

/-- Of two maps put together the second counts. -/
theorem get?_extend (d e : Dict α) (k : String) :
    (d.extend e).get? k = (e.get? k).or (d.get? k) := by
  rw [extend, get?_foldl_insert, Entries.lookup_reverse e.sorted]
  rfl

theorem get?_eq_some_iff {d : Dict α} {k : String} {x : α} :
    d.get? k = some x ↔ (k, x) ∈ d.entries :=
  Entries.lookup_eq_some_iff d.sorted

/-- Of entries with one name the last counts. -/
theorem get?_ofList (l : List (String × α)) (k : String) :
    (ofList l).get? k = l.reverse.lookup k := by
  simp [ofList, get?_foldl_insert, show (empty : Dict α).get? k = none from rfl]

end Dict

end DbInventory
