/-
# DbInventory.Proofs.Listing.Storable -- a read never runs into its own schema

The items of a read name exactly the attributes that the schema declares for an element of the
list, and the schema takes each of their values. What a read stores is such a list, whatever the
services answer. So the only schema error is that of a configuration
(`Listing.items_fit_schema`).
-/

import DbInventory.Proofs.Except
import DbInventory.Proofs.Listing.State

namespace DbInventory

/-! ## Names of an item -/

/-- An item names the attributes that are declared for an element, and no others. -/
theorem DbInstance.names_item (x : DbInstance) (tags : Dict String) :
    (x.flatten.insert "tags" (tagsJson tags)).entries.map Prod.fst =
      elementSchema.entries.map Prod.fst := by
  rfl

namespace Listing

variable {σ : Type} {d : ResourceData} {e : SchemaError}

/-! ## Errors of a read -/

theorem ofSave_ne_schema (fault : SaveError) (e : SchemaError) :
    DataSourceError.ofSave fault ≠ .schema e := by
  cases fault <;> simp [DataSourceError.ofSave]

/-- No way that a read ends in is a schema error. -/
theorem Exit.ne_schema {source : Listing σ} {files files' : FileTree} {d' : ResourceData}
    {result : Except DataSourceError Unit} {events : List ServiceEvent}
    (h : Exit source d files result d' events files') (e : SchemaError) :
    result ≠ .error (.schema e) := by
  cases h with
  | refused => simp
  | notListed => simp
  | notTagged => simp
  | unsaved => simp
  | @notSaved _ _ _ _ fault => simp [ofSave_ne_schema fault e]
  | saved => simp

/-- **A read has no schema error**, whatever the services answer. -/
theorem read_ne_schema (source : Listing σ) (hschema : d.schema = listingSchema) (s : σ)
    (files : FileTree) (e : SchemaError) :
    (source.read ⟨d, s, files⟩).1 ≠ .error (.schema e) := by
  obtain ⟨result, d', s', events, files', hrecorded, hexit⟩ := exists_exit source hschema s files
  have hread : source.read ⟨d, s, files⟩ = (result, ⟨d', s', files'⟩) := read_unrecorded hrecorded
  rw [hread]
  exact hexit.ne_schema e

theorem readConfig_schema_iff (source : Listing σ) (config : Dict Json) (s : σ) (files : FileTree)
    (e : SchemaError) :
    (source.readConfig config s files).1 = .error (.schema e) ↔
      ResourceData.fromConfig listingSchema config = .error e := by
  rw [readConfig]
  cases hconfig : ResourceData.fromConfig listingSchema config with
  | error e' => simp
  | ok d =>
    have hschema : d.schema = listingSchema := by
      obtain ⟨rfl, -⟩ := ResourceData.fromConfig_eq_ok_iff.1 hconfig
      rfl
    refine iff_of_false ?_ (by simp)
    exact mt map_eq_error_iff.1 (read_ne_schema source hschema s files e)

/-! ## Items and the schema -/

/-- **Items and their schema fit.** The items of any instances with any tags name exactly the
attributes that the schema declares for an element; any data of the schema take their list; and
so no read has a schema error, unless the configuration itself is refused. -/
theorem items_fit_schema (given : List (DbInstance × Dict String)) (source : Listing σ) (s : σ)
    (files : FileTree) :
    (∃ list attributes, listingSchema.get? "instance_list" = some list ∧
      list.element = some attributes ∧
      ∀ item ∈ itemsOf given, ∃ members, item = .object members ∧
        members.map Prod.fst = attributes.map Prod.fst) ∧
    (∀ d : ResourceData, d.schema = listingSchema →
      (∃ d', d.set "instance_list" (.array (itemsOf given)) = .ok d') ∧
        ∀ e, (source.read ⟨d, s, files⟩).1 ≠ .error (.schema e)) ∧
    ∀ config e, (source.readConfig config s files).1 = .error (.schema e) ↔
      ResourceData.fromConfig listingSchema config = .error e := by
  refine ⟨⟨_, _, rfl, rfl, ?_⟩, fun d hschema => ⟨⟨_, set_itemsOf hschema given⟩, ?_⟩, ?_⟩
  · intro item hitem
    obtain ⟨g, -, rfl⟩ := List.mem_map.1 hitem
    exact ⟨_, rfl, DbInstance.names_item g.1 g.2⟩
  · exact read_ne_schema source hschema s files
  · exact fun config e => readConfig_schema_iff source config s files e

/-- The items of two instances, one of them blank, are stored in data without arguments. -/
theorem items_fit_schema_twoInstances :
    noArguments.schema = listingSchema ∧
      (∃ d, noArguments.set "instance_list"
        (.array (itemsOf (withTags ownTag twoInstances))) = .ok d) ∧
      ∀ e, (taglessSource.read ⟨noArguments, (), noFiles⟩).1 ≠ .error (.schema e) := by
  obtain ⟨-, hdata, -⟩ :=
    items_fit_schema (withTags ownTag twoInstances) taglessSource () noFiles
  exact ⟨rfl, hdata noArguments rfl⟩

end Listing

end DbInventory
