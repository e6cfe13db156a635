/-
# DbInventory.Proofs.Json.Nesting -- which values their text keeps

How deep a tree is nested is the number of brackets that are open around its innermost part
(`depth`), and `floats` are the binary64 numbers in it. A tree without such a number that is
nested no deeper than the reader goes is kept by its text (`kept_iff`); if it is a value, with
its members in name order, it is the value of its text in every style (`Faithful.read_text`).
Values are built of values: a map of faithful ones is faithful one bracket further out
(`faithful_ofDict`), and so is a list (`faithful_array`).
-/

import DbInventory.Proofs.Json.RoundTrip

namespace DbInventory.Json

variable {v : Json} {items : List Json} {members : List (String × Json)} {style : Style}
  {m n : Nat}

/-! ## Measures of a tree -/

mutual

/-- The number of brackets that are open around the innermost part of a tree. -/
def depth : Json → Nat
  | .array items => depthOfItems items + 1
  | .object members => depthOfMembers members + 1
  | _ => 0

def depthOfItems : List Json → Nat
  | [] => 0
  | v :: rest => max v.depth (depthOfItems rest)

def depthOfMembers : List (String × Json) → Nat
  | [] => 0
  | (_, v) :: rest => max v.depth (depthOfMembers rest)

end

mutual

/-- The binary64 numbers of a tree. -/
def floats : Json → List Binary64
  | .number (.float x) => [x]
  | .array items => floatsOfItems items
  | .object members => floatsOfMembers members
  | _ => []

def floatsOfItems : List Json → List Binary64
  | [] => []
  | v :: rest => v.floats ++ floatsOfItems rest

def floatsOfMembers : List (String × Json) → List Binary64
  | [] => []
  | (_, v) :: rest => v.floats ++ floatsOfMembers rest

end

theorem depthOfItems_le_iff : depthOfItems items ≤ n ↔ ∀ v ∈ items, v.depth ≤ n := by
  induction items with
  | nil => simp [depthOfItems]
  | cons v rest ih => rw [depthOfItems, Nat.max_le, ih, List.forall_mem_cons]

theorem depthOfMembers_le_iff : depthOfMembers members ≤ n ↔ ∀ m ∈ members, m.2.depth ≤ n := by
  induction members with
  | nil => simp [depthOfMembers]
  | cons m rest ih => rw [depthOfMembers, Nat.max_le, ih, List.forall_mem_cons]

theorem floatsOfItems_eq_nil_iff : floatsOfItems items = [] ↔ ∀ v ∈ items, v.floats = [] := by
  induction items with
  | nil => simp [floatsOfItems]
  | cons v rest ih => rw [floatsOfItems, List.append_eq_nil_iff, ih, List.forall_mem_cons]

theorem floatsOfMembers_eq_nil_iff :
    floatsOfMembers members = [] ↔ ∀ m ∈ members, m.2.floats = [] := by
  induction members with
  | nil => simp [floatsOfMembers]
  | cons m rest ih => rw [floatsOfMembers, List.append_eq_nil_iff, ih, List.forall_mem_cons]

/-! ## Kept trees -/

theorem Kept.floats_eq_nil (h : Kept n v) : v.floats = [] := by
  induction h with
  | array _ ih => exact floatsOfItems_eq_nil_iff.2 ih
  | object _ ih => exact floatsOfMembers_eq_nil_iff.2 ih
  | _ => rfl

theorem Kept.depth_le (h : Kept n v) : v.depth ≤ n := by
  induction h with
  | array _ ih => exact Nat.succ_le_succ (depthOfItems_le_iff.2 ih)
  | object _ ih => exact Nat.succ_le_succ (depthOfMembers_le_iff.2 ih)
  | _ => exact Nat.zero_le _

theorem kept_of_depth_le (hfloats : v.floats = []) (hdepth : v.depth ≤ n) : Kept n v := by
  -- the depth that is allowed bounds the nesting, so the induction can be on it
  induction n using Nat.strongRecOn generalizing v with
  | ind n ih =>
    cases v with
    | null => exact .null
    | bool b => exact .bool b
    | number x =>
      cases x with
      | whole w => exact .whole w
      | float x => cases hfloats
    | string x => exact .string x
    | array items =>
      cases n with
      | zero => exact absurd hdepth (Nat.not_succ_le_zero _)
      | succ n =>
        have hall := depthOfItems_le_iff.1 (Nat.le_of_succ_le_succ hdepth)
        have hnone := floatsOfItems_eq_nil_iff.1 hfloats
        exact .array fun v hv => ih n n.lt_succ_self (hnone v hv) (hall v hv)
    | object members =>
      cases n with
      | zero => exact absurd hdepth (Nat.not_succ_le_zero _)
      | succ n =>
        have hall := depthOfMembers_le_iff.1 (Nat.le_of_succ_le_succ hdepth)
        have hnone := floatsOfMembers_eq_nil_iff.1 hfloats
        exact .object fun m hm => ih n n.lt_succ_self (hnone m hm) (hall m hm)

/-- **A text keeps the trees without binary64 numbers** that the reader reaches into. -/
theorem kept_iff : Kept n v ↔ v.floats = [] ∧ v.depth ≤ n :=
  ⟨fun h => ⟨h.floats_eq_nil, h.depth_le⟩, fun h => kept_of_depth_le h.1 h.2⟩

theorem Kept.mono (h : Kept m v) (hle : m ≤ n) : Kept n v :=
  kept_of_depth_le h.floats_eq_nil (Nat.le_trans h.depth_le hle)

/-! ## Values -/

theorem isNormal_array (h : ∀ v ∈ items, v.IsNormal) : (array items).IsNormal := by
  have hitems : normalItems items = items := by
    induction items with
    | nil => rfl
    | cons v rest ih =>
      rw [List.forall_mem_cons] at h
      rw [normalItems, ih h.2, show v.normal = v from h.1]
  exact congrArg array hitems

/-- A map is the map of its entries. -/
theorem ofList_entries {α : Type} (d : Dict α) : Dict.ofList d.entries = d := by
  refine Dict.ext_get? fun k => ?_
  rw [Dict.get?_ofList, Entries.lookup_reverse d.sorted]
  rfl

theorem isNormal_ofDict {d : Dict Json} (h : ∀ e ∈ d.entries, e.2.IsNormal) :
    (ofDict d).IsNormal := by
  have hmembers : ∀ l : List (String × Json), (∀ e ∈ l, e.2.IsNormal) → normalMembers l = l := by
    intro l hl
    induction l with
    | nil => rfl
    | cons e rest ih =>
      rw [List.forall_mem_cons] at hl
      rw [normalMembers, ih hl.2, show e.2.normal = e.2 from hl.1]
  show object (Dict.ofList (normalMembers d.entries)).entries = object d.entries
  rw [hmembers _ h, ofList_entries]

/-- A value without binary64 numbers that is nested no deeper than the given depth. -/
structure Faithful (n : Nat) (v : Json) : Prop where
  normal : v.IsNormal
  kept : Kept n v

theorem faithful_iff : Faithful n v ↔ v.IsNormal ∧ v.floats = [] ∧ v.depth ≤ n := by
  rw [← kept_iff]
  exact ⟨fun h => ⟨h.normal, h.kept⟩, fun h => ⟨h.1, h.2⟩⟩

theorem Faithful.mono (h : Faithful m v) (hle : m ≤ n) : Faithful n v :=
  ⟨h.normal, h.kept.mono hle⟩

theorem faithful_null : Faithful n .null := ⟨rfl, .null⟩

theorem faithful_string (s : String) : Faithful n (.string s) := ⟨rfl, .string s⟩

theorem faithful_int64 (x : Int64) : Faithful n (.int64 x) := ⟨rfl, .whole _⟩

/-- A list is nested one bracket deeper than its elements. -/
theorem faithful_array (h : ∀ v ∈ items, Faithful n v) : Faithful (n + 1) (.array items) :=
  ⟨isNormal_array fun v hv => (h v hv).normal, .array fun v hv => (h v hv).kept⟩

/-- A map is nested one bracket deeper than its values. -/
theorem faithful_ofDict {d : Dict Json} (h : ∀ e ∈ d.entries, Faithful n e.2) :
    Faithful (n + 1) (.ofDict d) :=
  ⟨isNormal_ofDict fun e he => (h e he).normal, .object fun e he => (h e he).kept⟩

/-- **A value is the value of its text**, compact or indented by blanks. -/
theorem Faithful.read_text (h : Faithful maxDepth v) (hstyle : style.Blank) :
    read (v.text style) = .ok v := by
  rw [read, readWithin, h.kept.readAll_text hstyle]
  exact congrArg Except.ok h.normal

theorem Faithful.read_prettyText (h : Faithful maxDepth v) : read v.prettyText = .ok v :=
  h.read_text (by simp [Style.Blank, isBlank])

theorem Faithful.read_tabbedText (h : Faithful maxDepth v) : read v.tabbedText = .ok v :=
  h.read_text (by simp [Style.Blank, isBlank])

end DbInventory.Json
