/-
# DbInventory.Proofs.Instance.RoundTrip -- instances survive their JSON form

An instance is decoded from a tree as it is read off its text (`DbInstance.ofTree?_eq_some_iff`),
and neither the order of its members nor members that are no columns make a difference
(`DbInstance.SameText.ofText_eq`). It is written as an object of all its columns, with null for a
missing value, and may also be read as the list of them. Whatever the columns hold, both texts are
read as the instance (`DbInstance.ofText_roundTrip`): every column has a name of its own, every
string can be escaped and every signed word fits a number of the text.
-/

import DbInventory.Api.Envelope
import DbInventory.Instance.Basic
import DbInventory.Proofs.Json.RoundTrip

namespace DbInventory.DbInstance

open Envelope (memberDepth)
open Json (Kept Readable Style memberTexts? readAll)

variable {text text' : String} {x : DbInstance} {v : Json}

/-! ## Instances of a text -/

/-- An instance is the record of its fields. -/
theorem ofText_eq_ok_iff : ofText text = .ok x ↔ readAll fields.read text = .ok x.get := by
  have hmap : ofText text = .ok x ↔ ∃ f, readAll fields.read text = .ok f ∧ x = ofColumns f :=
    Json.readAll_map_iff (f := ofColumns)
  rw [hmap]
  constructor
  · rintro ⟨f, hf, rfl⟩
    exact hf.trans (congrArg Except.ok (get_ofColumns f).symm)
  · intro h
    exact ⟨x.get, h, (ofColumns_get x).symm⟩

/-- **An instance is decoded from a tree as it is read off its text.** -/
theorem ofTree?_eq_some_iff {depth : Nat} {v : Json}
    (hv : readAll (Json.readTree depth) text = .ok v) :
    ofTree? v = some x ↔ ofText text = .ok x := by
  have hread : fields.ofTree? 0 v = some x.get ↔ readAll fields.read text = .ok x.get :=
    fields.ofTree?_eq_some_iff hv
  have hmap : ofTree? v = some x ↔ ∃ f, fields.ofTree? 0 v = some f ∧ ofColumns f = x :=
    Option.map_eq_some_iff
  rw [ofText_eq_ok_iff, ← hread, hmap]
  constructor
  · rintro ⟨f, hf, rfl⟩
    exact hf.trans (congrArg some (get_ofColumns f).symm)
  · intro h
    exact ⟨x.get, h, ofColumns_get x⟩

/-- A member that is no column, with any value that has a tree. -/
def OtherMember (m : String × String) : Prop :=
  (∀ c : Column, c.wireName ≠ m.1) ∧ Readable (memberDepth - 2) m.2

theorem field?_eq_none (m : String × String) (h : OtherMember m) : fields.field? m.1 = none := by
  rw [Json.Fields.field?, List.find?_eq_none]
  intro c _ hname
  exact h.1 c (of_decide_eq_true hname)

/-- The texts of two instances, of which one has the members of the other in any order and
members between them that nobody asks for. -/
def SameText (text text' : String) : Prop :=
  text = text' ∨
    ∃ ms ms', memberTexts? text = some ms ∧ memberTexts? text' = some ms' ∧
      Json.Reordered Eq OtherMember ms ms'

theorem SameText.ofText_eq (h : SameText text text') (hx : ofText text = .ok x) :
    ofText text' = .ok x := by
  rcases h with rfl | ⟨ms, ms', hms, hms', kept, added, hperm, hkept, hadded⟩
  · exact hx
  · rw [ofText_eq_ok_iff] at hx ⊢
    refine fields.readAll_read_of_reordered hms hms' ⟨kept, added, hperm, hkept, ?_⟩ hx
    intro m hm
    exact field?_eq_none m (hadded m hm)

theorem SameText.readable (h : SameText text text') (hread : Readable (memberDepth - 1) text) :
    Readable (memberDepth - 1) text' := by
  have hdepth : memberDepth - 1 = memberDepth - 2 + 1 := rfl
  -- the members that are kept have trees already, and the added ones by assumption
  rcases h with rfl | ⟨ms, ms', hms, hms', kept, added, hperm, hkept, hadded⟩
  · exact hread
  · rw [List.forall₂_eq_eq_eq] at hkept
    subst hkept
    rw [hdepth, Json.readable_object_iff hms] at hread
    rw [hdepth, Json.readable_object_iff hms']
    intro m hm
    rcases List.mem_append.1 (hperm.mem_iff.1 hm) with hm | hm
    · exact hread m hm
    · exact (hadded m hm).2

/-! ## Round trip -/

theorem fields_proper : fields.Proper where
  field?_name := Column.find?_wireName
  nodup_all := Column.nodup_all

/-- No column is required, so the values of any instance are complete. -/
theorem complete_get (x : DbInstance) : fields.Complete x.get := by
  intro c hrequired
  cases hrequired

/-- An instance as the list of its columns, in the order of the interface. -/
def listJson (x : DbInstance) : Json := .array (Column.all.map (fields.written x.get))

theorem kept_toJson (x : DbInstance) (n : Nat) : Kept (n + 1) x.toJson := by
  refine .object fun m hm => ?_
  obtain ⟨c, -, rfl⟩ := List.mem_map.1 hm
  exact Json.kept_optional _ _ n

theorem kept_listJson (x : DbInstance) (n : Nat) : Kept (n + 1) x.listJson := by
  refine .array fun v hv => ?_
  obtain ⟨c, -, rfl⟩ := List.mem_map.1 hv
  exact Json.kept_optional _ _ n

theorem ofTree?_toJson (x : DbInstance) : ofTree? x.toJson = some x := by
  have hmembers : fields.ofTree? 0 x.toJson = some x.get :=
    (complete_get x).ofTree?_members fields_proper
  rw [ofTree?, hmembers, Option.map_some, ofColumns_get]

theorem ofTree?_listJson (x : DbInstance) : ofTree? x.listJson = some x := by
  have hitems : fields.ofTree? 0 x.listJson = some x.get :=
    (complete_get x).ofTree?_items fields_proper
  rw [ofTree?, hitems, Option.map_some, ofColumns_get]

/-- What a tree is decoded as is read off its text, in every style. -/
theorem ofText_text {style : Style} {n : Nat} (hkept : Kept n v) (hstyle : style.Blank)
    (hv : ofTree? v = some x) : ofText (v.text style) = .ok x :=
  (ofTree?_eq_some_iff (hkept.readAll_text hstyle)).1 hv

/-- **Instances survive their JSON form.** The compact text of an instance is read as the same
instance. Whatever text an instance has been read off, its own text and the list of its columns
are read as the same instance again, and so is every text in which the members of the first one
stand in another order or others stand between them. -/
theorem ofText_roundTrip :
    (∀ x : DbInstance, ofText x.toJson.compactText = .ok x) ∧
      ∀ (text : String) (x : DbInstance), ofText text = .ok x →
        ofText x.toJson.compactText = .ok x ∧
        ofText x.listJson.compactText = .ok x ∧
        ∀ text', SameText text text' → ofText text' = .ok x := by
  have hobject : ∀ x : DbInstance, ofText x.toJson.compactText = .ok x := fun x =>
    ofText_text (kept_toJson x 0) trivial (ofTree?_toJson x)
  have hlist : ∀ x : DbInstance, ofText x.listJson.compactText = .ok x := fun x =>
    ofText_text (kept_listJson x 0) trivial (ofTree?_listJson x)
  refine ⟨hobject, fun text x hx => ⟨hobject x, hlist x, ?_⟩⟩
  intro text' hsame
  exact hsame.ofText_eq hx

/-- An instance of which no more is known than its name. -/
def oneInstance : DbInstance := { blank with instanceId := some "mssql-1" }

theorem sameText_shuffled :
    SameText "\x7b\"InstanceId\":\"mssql-1\"\x7d"
      "\x7b\"Flag\":[true],\"InstanceId\":\"mssql-1\"\x7d" := by
  refine .inr ⟨[("InstanceId", "\"mssql-1\"")],
    [("Flag", "[true]"), ("InstanceId", "\"mssql-1\"")], by decide +kernel, by decide +kernel,
    [("InstanceId", "\"mssql-1\"")], [("Flag", "[true]")], by decide, .cons rfl .nil, ?_⟩
  intro m hm
  obtain rfl := List.mem_singleton.1 hm
  have hcolumns : ∀ c ∈ Column.all, c.wireName ≠ "Flag" := by decide
  exact ⟨fun c => hcolumns c (Column.mem_all c), .array [.bool true],
    toOption_eq_some_iff.1 (by decide +kernel)⟩

theorem ofText_roundTrip_shuffled :
    ofText "\x7b\"InstanceId\":\"mssql-1\"\x7d" = .ok oneInstance ∧
      ofText oneInstance.toJson.compactText = .ok oneInstance ∧
      ofText oneInstance.listJson.compactText = .ok oneInstance ∧
      ofText "\x7b\"Flag\":[true],\"InstanceId\":\"mssql-1\"\x7d" = .ok oneInstance := by
  have hread : ofText "\x7b\"InstanceId\":\"mssql-1\"\x7d" = .ok oneInstance :=
    toOption_eq_some_iff.1 (by decide +kernel)
  obtain ⟨hobject, hlist, hsame⟩ := ofText_roundTrip.2 _ _ hread
  exact ⟨hread, hobject, hlist, hsame _ sameText_shuffled⟩

end DbInventory.DbInstance
