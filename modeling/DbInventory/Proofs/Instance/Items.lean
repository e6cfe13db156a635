/-
# DbInventory.Proofs.Instance.Items -- items fit the schema

The table of flat attributes and the schema of a listed instance are written apart. They name
the same attributes with the same types, so what `item` makes of an instance and its tags is
taken by the schema, and the computed list can be stored in any data of the listing.
-/

import DbInventory.Instance.Flat
import DbInventory.Instance.Schema
import DbInventory.Proofs.Schema.Acceptance
import DbInventory.Schema.ResourceData

namespace DbInventory

/-! ## Attributes of an instance -/

namespace DbInstance

open Json (Scalar)

/-- The type of the attribute that shows a column of a kind. -/
def typeOf : Scalar → ValueType
  | .text => .string
  | .integer => .int

/-- The type of the attribute that shows a column or the charge. -/
def Source.type : Source → ValueType
  | .column c => typeOf c.kind
  | .chargeType => .string

theorem accepts_optional {a : Attribute} {kind : Scalar} (h : a.type = typeOf kind)
    (value : Option kind.Carrier) : a.accepts (Json.optional kind.toJson value) := by
  cases value with
  | none => simp [Json.optional, Attribute.accepts]
  | some value =>
    cases kind with
    | text => exact decide_eq_true h
    | integer =>
      have hlt : (WordInt.ofInt64 value).val < signedLimit := Int64.toInt_lt value
      have htype : a.type = .int := h
      simp only [Json.optional, Scalar.toJson, Json.int64, Attribute.accepts, htype]
      exact decide_eq_true hlt

/-- An attribute of the right type takes what it is to show. -/
theorem accepts_shown (x : DbInstance) {a : Attribute} {source : Source}
    (h : a.type = source.type) : a.accepts (x.shown source) := by
  cases source with
  | column c => exact accepts_optional h (x.get c)
  | chargeType => exact decide_eq_true h

/-- The schema declares every flat attribute, with the type of what it shows. -/
theorem type_of_mem_flatTable {e : String × Source} (h : e ∈ flatTable) :
    (elementSchema.get? e.1).map Attribute.type = some e.2.type := by
  have hall : ∀ e ∈ flatTable,
      (elementSchema.get? e.1).map Attribute.type = some e.2.type := by decide +kernel
  exact hall e h

theorem type_tags : (elementSchema.get? "tags").map Attribute.type = some .map := by
  decide +kernel

theorem accepts_tagsJson {a : Attribute} (h : a.type = .map) (tags : Dict String) :
    a.accepts (tagsJson tags) := by
  have htexts : (tags.entries.map fun e => (e.1, Json.string e.2)).all
      fun m => Attribute.isMapValue m.2 := by
    simp [Attribute.isMapValue, Attribute.isText]
  simp only [tagsJson, Json.ofDict, Dict.map, Attribute.accepts, h]
  exact htexts

/-- The schema takes every item. -/
theorem acceptsMembers_item (x : DbInstance) (tags : Dict String) :
    Attribute.acceptsMembers elementSchema.entries
      (x.flatten.insert "tags" (tagsJson tags)).entries := by
  rw [Attribute.acceptsMembers_iff]
  intro m hm
  rcases Entries.mem_insert hm with rfl | hflat
  · obtain ⟨a, ha, htype⟩ := Option.map_eq_some_iff.1 type_tags
    exact ⟨a, ha, accepts_tagsJson htype tags⟩
  · obtain ⟨e, he, rfl⟩ := List.mem_map.1 hflat
    obtain ⟨a, ha, htype⟩ := Option.map_eq_some_iff.1 (type_of_mem_flatTable he)
    exact ⟨a, ha, accepts_shown x htype⟩

end DbInstance

/-! ## Storing the list -/

/-- The items of instances with their tags. -/
def itemsOf (given : List (DbInstance × Dict String)) : List Json :=
  given.map fun g => g.1.item g.2

theorem check_itemsOf (given : List (DbInstance × Dict String)) :
    ∃ a, listingSchema.check "instance_list" (.array (itemsOf given)) = .ok a := by
  obtain ⟨a, ha, htype, helement⟩ : ∃ a, listingSchema.get? "instance_list" = some a ∧
      a.type = .list ∧ a.element = some DbInstance.elementSchema.entries :=
    ⟨_, rfl, rfl, rfl⟩
  refine ⟨a, ?_⟩
  have hitems : Attribute.acceptsItems DbInstance.elementSchema.entries (itemsOf given) := by
    rw [Attribute.acceptsItems_iff]
    intro item hitem
    obtain ⟨g, -, rfl⟩ := List.mem_map.1 hitem
    exact ⟨_, rfl, DbInstance.acceptsMembers_item g.1 g.2⟩
  have haccepts : a.accepts (.array (itemsOf given)) := by
    simp only [Attribute.accepts, htype, helement, hitems]
    rfl
  rw [Schema.check, ha]
  exact if_pos haccepts

/-- **The list of items can be stored** in any data of the listing. -/
theorem set_itemsOf {d : ResourceData} (h : d.schema = listingSchema)
    (given : List (DbInstance × Dict String)) :
    d.set "instance_list" (.array (itemsOf given)) =
      .ok { d with computed := d.computed.insert "instance_list" (.array (itemsOf given)) } := by
  obtain ⟨a, ha⟩ := check_itemsOf given
  rw [ResourceData.set, h, ha]
  rfl

end DbInventory
