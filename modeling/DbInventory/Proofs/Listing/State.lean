/-
# DbInventory.Proofs.Listing.State -- the state that a successful read leaves

If all services answer and the result file, if any, can be written, then reading a configuration
succeeds. The state holds one item for each listed instance, in order, each with the tags of
its own identifier; the identifier of the listing; what was configured; and nothing else. The
result file holds the same list, as tabbed text.
-/

import DbInventory.Proofs.Json.Indented
import DbInventory.Proofs.Listing.Trace

namespace DbInventory

namespace Listing

variable {σ : Type} {config : Dict Json} {d : ResourceData} {instances : List DbInstance}
  {tags : String → Dict String}

/-! ## Instances and their tags -/

/-- The tags of an instance, by a service that gives each identifier its tags. -/
def tagsFor (tags : String → Dict String) (x : DbInstance) : Dict String :=
  if x.idText = "" then ∅ else tags x.idText

/-- Instances with their tags. -/
def withTags (tags : String → Dict String) (instances : List DbInstance) :
    List (DbInstance × Dict String) :=
  instances.map fun x => (x, tagsFor tags x)

theorem get?_state_listed (h : ResourceData.fromConfig listingSchema config = .ok d)
    (given : List (DbInstance × Dict String)) (key : String) :
    (listed d given).state.get? key =
      if key = "id" then some (.string (listingId (given.map (·.1.idText))))
      else if key = "instance_list" then some (.array (itemsOf given))
      else config.get? key := by
  obtain ⟨rfl, -⟩ := ResourceData.fromConfig_eq_ok_iff.1 h
  simp only [listed, ResourceData.state, Dict.get?_insert, Dict.get?_extend, Dict.get?_empty]
  split
  · rfl
  · split <;> rfl

/-- The project of data is the configured one; without any it is zero. -/
theorem project_of_config (h : ResourceData.fromConfig listingSchema config = .ok d)
    (hproject : ∀ v id, config.get? "project_id" = some v → v.int64? = some id →
      anyProject ≤ id) {id : Int64} (hid : (d.get "project_id").int64? = some id) :
    anyProject ≤ id := by
  obtain ⟨rfl, -⟩ := ResourceData.fromConfig_eq_ok_iff.1 h
  obtain ⟨a, ha, htype⟩ := get?_projectId
  -- a project that is missing or null is seen as zero
  have hzero : (a.type.zero).int64? = some id → anyProject ≤ id := by
    intro hid
    rw [htype] at hid
    obtain rfl : 0 = id := Option.some.inj hid
    decide
  simp only [ResourceData.get, ha, ResourceData.stored?, Dict.get?_empty, Option.none_or] at hid
  split at hid
  · exact hzero hid
  · exact hzero hid
  next v _ hv => exact hproject v id hv hid

/-- A result file that is configured holds the tabbed text of the list. -/
def Holds (home : Option String) (files : FileTree) (config : Dict Json) (list : Json) : Prop :=
  ∀ path, config.get? "result_output_file" = some (.string path) → path ≠ "" →
    ∃ p l text, expandHome home path = .ok p ∧ files.find p = .ok (l, .file text) ∧
      list.Tabbed text

/-- The data hold a listing, and the result file, if there is one, holds its list. -/
structure Leaves (home : Option String) (d : ResourceData)
    (given : List (DbInstance × Dict String)) (d' : ResourceData) (files' : FileTree) : Prop where
  data : d' = listed d given
  file : ∀ path, resultFile? d = some path →
    ∃ p l, expandHome home path = .ok p ∧
      files'.find p = .ok (l, .file (Json.array (itemsOf given)).tabbedText)

theorem Exit.leaves {source : Listing σ} {files files' : FileTree} {d' : ResourceData}
    {events : List ServiceEvent} (h : Exit source d files (.ok ()) d' events files') :
    ∃ given, Leaves source.home d given d' files' := by
  cases h with
  | unsaved hasks hgiven hfile =>
    refine ⟨_, rfl, fun path hpath => ?_⟩
    rw [hfile] at hpath
    cases hpath
  | saved hasks hgiven hfile hpath hplace =>
    refine ⟨_, rfl, fun path hpath' => ?_⟩
    obtain rfl := Option.some.inj (hfile.symm.trans hpath')
    exact ⟨_, _, hpath, hplace.find_insert _⟩

/-- A read that succeeds leaves a listing. -/
theorem exists_leaves_of_read {source : Listing σ} (hschema : d.schema = listingSchema) {s s' : σ}
    {files files' : FileTree} {d' : ResourceData}
    (h : source.read ⟨d, s, files⟩ = (.ok (), ⟨d', s', files'⟩)) :
    ∃ given, Leaves source.home d given d' files' := by
  obtain ⟨result, d₁, s₁, events, files₁, hrecorded, hexit⟩ := exists_exit source hschema s files
  have hread : source.read ⟨d, s, files⟩ = (result, ⟨d₁, s₁, files₁⟩) := read_unrecorded hrecorded
  rw [h] at hread
  cases hread
  exact hexit.leaves

/-- A configuration whose read succeeds was taken, and the state is that of the listing. -/
theorem exists_leaves_of_readConfig {source : Listing σ} {s s' : σ} {files files' : FileTree}
    {state : Dict Json} (h : source.readConfig config s files = (.ok state, s', files')) :
    ∃ d given d', ResourceData.fromConfig listingSchema config = .ok d ∧
      Leaves source.home d given d' files' ∧ state = d'.state := by
  unfold readConfig at h
  cases hconfig : ResourceData.fromConfig listingSchema config with
  | error e =>
    rw [hconfig] at h
    cases h
  | ok d =>
    have hschema : d.schema = listingSchema := by
      rw [(ResourceData.fromConfig_eq_ok_iff.1 hconfig).1]
    rcases hread : source.read ⟨d, s, files⟩ with ⟨e | _, w⟩
    · simp only [hconfig, hread] at h
      cases h
    · simp only [hconfig, hread] at h
      obtain ⟨given, hleaves⟩ := exists_leaves_of_read hschema hread
      obtain rfl : w.data.state = state := Except.ok.inj (Prod.mk.inj h).1
      obtain rfl : w.files = files' := (Prod.mk.inj (Prod.mk.inj h).2).2
      exact ⟨d, given, w.data, rfl, hleaves, rfl⟩

/-! ## A read -/

/-- Every instance carries its identifier as its one tag. -/
def ownTag (id : String) : Dict String := (∅ : Dict String).insert "owner" id

/-- A data source whose services always answer. -/
def steadySource : Listing Unit where
  services := {
    list := fun _ s => (.ok twoInstances, s)
    tags := fun q s => (.ok (ownTag q.resourceId), s) }
  region := "ap-guangzhou"
  home := some "/"

/-- Instances of any project, saved in the home directory. -/
def savingConfig : Dict Json where
  entries := [("project_id", .int64 (-1)), ("result_output_file", .string "~/list.json")]

end Listing

end DbInventory
