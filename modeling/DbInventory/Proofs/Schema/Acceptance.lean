/-
# DbInventory.Proofs.Schema.Acceptance -- values that fit at every depth

The elements of a list may be objects of declared members, and those may be lists again. So an
attribute and a value have parts: themselves, and the parts of the members inside them.
`FitsHere` looks at one attribute and one value without looking inside, and `Fits` asks it of
all parts, at every depth. That is what `accepts` decides (`Attribute.accepts_iff_fits`).
-/

import DbInventory.Schema.Attribute

namespace DbInventory

/-- A whole number below the limit is one of a signed word. -/
theorem WordInt.lt_signedLimit_iff {n : WordInt} :
    n.val < signedLimit ↔ ∃ k : Int64, n = .ofInt64 k := by
  constructor
  · intro h
    refine ⟨Int64.ofInt n.val, ?_⟩
    have hval : (Int64.ofInt n.val).toInt = n.val := Int64.toInt_ofInt_of_le n.lower h
    obtain ⟨val, hlower, hupper⟩ := n
    simp only [ofInt64, hval]
  · rintro ⟨k, rfl⟩
    exact Int64.toInt_lt k

/-- The value is of a type, and is not null. -/
def Json.IsOf (v : Json) : ValueType → Prop
  | .string => ∃ s, v = .string s
  | .int => ∃ n : Int64, v = .int64 n
  | .list => ∃ items, v = .array items
  | .map => ∃ members, v = .object members

namespace Attribute

variable {a b c : Attribute} {v w : Json} {attributes : List (String × Attribute)}
  {items : List Json} {members : List (String × Json)}

/-! ## Parts -/

/-- A member of an element of a list, with the attribute that declares it. -/
def Inside (a : Attribute) (v : Json) (b : Attribute) (w : Json) : Prop :=
  ∃ attributes items members name, a.element = some attributes ∧ v = .array items ∧
    .object members ∈ items ∧ (name, w) ∈ members ∧ attributes.lookup name = some b

/-- The parts of an attribute and a value: the two themselves, and the parts of what is inside. -/
inductive Part : Attribute → Json → Attribute → Json → Prop where
  | self (a : Attribute) (v : Json) : Part a v a v
  | inside {a b c : Attribute} {u v w : Json} (h : Inside a u b v) (hpart : Part b v c w) :
    Part a u c w

/-- The value fits the attribute where it stands. It is null or of the attribute's type; a map
holds texts and nulls; and the elements of a list are objects of declared members, if the
attribute declares members. -/
def FitsHere (a : Attribute) (v : Json) : Prop :=
  v = .null ∨ v.IsOf a.type ∧
    (∀ members, v = .object members → ∀ m ∈ members, m.2 = .null ∨ m.2.IsOf .string) ∧
    ∀ attributes items, a.element = some attributes → v = .array items →
      ∀ item ∈ items, ∃ members, item = .object members ∧
        ∀ m ∈ members, ∃ b, attributes.lookup m.1 = some b

/-- **The value fits the attribute at every depth.** -/
def Fits (a : Attribute) (v : Json) : Prop := ∀ b w, Part a v b w → b.FitsHere w

theorem fits_iff_inside : a.Fits v ↔ a.FitsHere v ∧ ∀ b w, Inside a v b w → b.Fits w := by
  constructor
  · intro h
    exact ⟨h a v (.self a v), fun b w hinside c u hpart => h c u (.inside hinside hpart)⟩
  · rintro ⟨hhere, hinside⟩ c u hpart
    cases hpart with
    | self => exact hhere
    | inside h hpart => exact hinside _ _ h _ _ hpart

theorem sizeOf_lt_of_inside (h : Inside a v b w) : sizeOf w < sizeOf v := by
  obtain ⟨attributes, items, members, name, -, rfl, hitem, hm, -⟩ := h
  have hobject := List.sizeOf_lt_of_mem hitem
  have hmember := List.sizeOf_lt_of_mem hm
  simp only [Json.object.sizeOf_spec, Json.array.sizeOf_spec, Prod.mk.sizeOf_spec] at *
  omega

/-! ## Acceptance, level by level -/

theorem acceptsMembers_iff :
    acceptsMembers attributes members ↔
      ∀ m ∈ members, ∃ a, attributes.lookup m.1 = some a ∧ a.accepts m.2 := by
  induction members with
  | nil => simp [acceptsMembers]
  | cons m rest ih =>
    obtain ⟨name, v⟩ := m
    rw [acceptsMembers, Bool.and_eq_true, ih, List.forall_mem_cons]
    cases hname : attributes.lookup name with
    | none => simp
    | some a => simp

theorem acceptsItems_iff :
    acceptsItems attributes items ↔
      ∀ item ∈ items, ∃ members, item = .object members ∧ acceptsMembers attributes members := by
  induction items with
  | nil => simp [acceptsItems]
  | cons item items ih =>
    rw [List.forall_mem_cons, ← ih]
    cases item <;> simp [acceptsItems]

theorem accepts_number_iff {n : Json.Number} :
    a.accepts (.number n) ↔ a.type = .int ∧ ∃ k : Int64, Json.number n = .int64 k := by
  cases n with
  | float x => cases htype : a.type <;> simp [accepts, htype, Json.int64]
  | whole n =>
    have hword : (∃ k : Int64, Json.number (.whole n) = .int64 k) ↔ n.val < signedLimit := by
      rw [WordInt.lt_signedLimit_iff]
      simp [Json.int64]
    rw [hword]
    cases htype : a.type <;> simp [accepts, htype]

theorem isMapValue_iff : isMapValue v = true ↔ v = .null ∨ v.IsOf .string := by
  cases v <;> simp [isMapValue, isText, Json.IsOf]

/-- A list is accepted if its elements are objects of declared members, each of them accepted. -/
theorem accepts_array_iff :
    a.accepts (.array items) ↔ a.type = .list ∧ ∀ attributes, a.element = some attributes →
      ∀ item ∈ items, ∃ members, item = .object members ∧
        ∀ m ∈ members, ∃ b, attributes.lookup m.1 = some b ∧ b.accepts m.2 := by
  rw [accepts, Bool.and_eq_true, decide_eq_true_iff]
  refine and_congr_right fun _ => ?_
  cases a.element with
  | none => simp
  | some attributes => simp [acceptsItems_iff, acceptsMembers_iff]

/-- A value that is no list has nothing inside. -/
theorem accepts_iff_fitsHere (h : ∀ items, v ≠ .array items) : a.accepts v ↔ a.FitsHere v := by
  cases v with
  | null => simp [accepts, FitsHere]
  | bool x => cases htype : a.type <;> simp [accepts, FitsHere, htype, Json.IsOf, Json.int64]
  | number n =>
    rw [accepts_number_iff]
    cases htype : a.type <;> simp [FitsHere, htype, Json.IsOf]
  | string s => cases htype : a.type <;> simp [accepts, FitsHere, htype, Json.IsOf, Json.int64]
  | array items => exact absurd rfl (h items)
  | object members =>
    cases htype : a.type <;>
      simp [accepts, FitsHere, htype, Json.IsOf, Json.int64, isMapValue_iff]

theorem fitsHere_array_iff :
    a.FitsHere (.array items) ↔ a.type = .list ∧ ∀ attributes, a.element = some attributes →
      ∀ item ∈ items, ∃ members, item = .object members ∧
        ∀ m ∈ members, ∃ b, attributes.lookup m.1 = some b := by
  cases htype : a.type <;> simp [FitsHere, htype, Json.IsOf, Json.int64]

/-- **Acceptance looks at one level, and then inside.** -/
theorem accepts_iff_inside :
    a.accepts v ↔ a.FitsHere v ∧ ∀ b w, Inside a v b w → b.accepts w := by
  by_cases hlist : ∃ items, v = .array items
  · obtain ⟨items, rfl⟩ := hlist
    rw [accepts_array_iff, fitsHere_array_iff, and_assoc]
    refine and_congr_right fun _ => ?_
    constructor
    · intro h
      refine ⟨fun attributes hattributes item hitem => ?_, fun b w hinside => ?_⟩
      · obtain ⟨members, rfl, hmembers⟩ := h attributes hattributes item hitem
        refine ⟨members, rfl, fun m hm => ?_⟩
        obtain ⟨b, hb, -⟩ := hmembers m hm
        exact ⟨b, hb⟩
      · obtain ⟨attributes, _, members, name, hattributes, hitems, hitem, hm, hb⟩ := hinside
        cases hitems
        obtain ⟨_, hobject, hmembers⟩ := h attributes hattributes _ hitem
        cases hobject
        obtain ⟨b', hb', haccepts⟩ := hmembers _ hm
        obtain rfl := Option.some.inj (hb.symm.trans hb')
        exact haccepts
    · rintro ⟨hhere, hinside⟩ attributes hattributes item hitem
      obtain ⟨members, rfl, hmembers⟩ := hhere attributes hattributes item hitem
      refine ⟨members, rfl, fun m hm => ?_⟩
      obtain ⟨b, hb⟩ := hmembers m hm
      exact ⟨b, hb,
        hinside b m.2 ⟨attributes, items, members, m.1, hattributes, rfl, hitem, hm, hb⟩⟩
  · have hnone : ∀ b w, Inside a v b w → b.accepts w := by
      rintro b w ⟨-, items, -, -, -, rfl, -⟩
      exact absurd ⟨items, rfl⟩ hlist
    rw [accepts_iff_fitsHere fun items hitems => hlist ⟨items, hitems⟩]
    exact (and_iff_left hnone).symm

/-- **An attribute accepts exactly the values that fit it at every depth.** -/
theorem accepts_iff_fits : a.accepts v ↔ a.Fits v := by
  -- what is inside a value is smaller than the value
  induction hsize : sizeOf v using Nat.strongRecOn generalizing a v with
  | _ n ih =>
    subst hsize
    rw [accepts_iff_inside, fits_iff_inside]
    refine and_congr_right fun _ => forall₂_congr fun b w => ?_
    exact forall_congr' fun hinside => ih _ (sizeOf_lt_of_inside hinside) rfl

end Attribute

end DbInventory
