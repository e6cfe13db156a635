/-
# DbInventory.Proofs.Listing.Arguments -- what a configuration allows

A configuration that the schema takes has no value for the computed list, and its texts are
texts or null. The filter of the arguments fails for one reason only: a project below the one
that stands for any.
-/

import DbInventory.Listing.Read
import DbInventory.Proofs.Schema.Configuration

namespace DbInventory

namespace ResourceData

variable {d : ResourceData} {key : String} {v : Json}

/-! ## Values that are seen -/

/-- A value is seen unless it is the zero value. -/
theorem getOk_eq {a : Attribute} (ha : d.schema.get? key = some a) :
    d.getOk key = if d.get key = a.type.zero then none else some (d.get key) := by
  simp only [getOk, ha]

theorem get_eq_of_getOk (h : d.getOk key = some v) : d.get key = v := by
  unfold getOk at h
  cases ha : d.schema.get? key with
  | none => simp [ha] at h
  | some a =>
    simp only [ha] at h
    split at h
    · cases h
    · exact Option.some.inj h

/-- A value that is seen is stored, and it is neither null nor zero. -/
theorem getOk_eq_some_iff :
    d.getOk key = some v ↔
      ∃ a, d.schema.get? key = some a ∧ d.stored? key = some v ∧ v ≠ .null ∧
        v ≠ a.type.zero := by
  unfold getOk get
  cases d.schema.get? key with
  | none => simp
  | some a =>
    cases d.stored? key with
    | none => simp
    | some w =>
      by_cases hnull : w = .null
      · subst hnull
        simp +contextual [eq_comm]
      · by_cases hzero : w = a.type.zero <;> simp [hzero] <;> grind

end ResourceData

/-! ## Arguments of the listing -/

section Listing

variable {config : Dict Json} {d : ResourceData} {id : Int64} {path : String}

open ResourceData (fromConfig fromConfig_eq_ok_iff argument_of_config getOk_eq_some_iff)

theorem get?_projectId :
    ∃ a, listingSchema.get? "project_id" = some a ∧ a.type = .int := ⟨_, rfl, rfl⟩

theorem get?_resultOutputFile :
    ∃ a, listingSchema.get? "result_output_file" = some a ∧ a.type = .string := ⟨_, rfl, rfl⟩

/-- **No project is refused** but one below that which stands for any. -/
theorem filterOf_of_project
    (h : ∀ id, (d.get "project_id").int64? = some id → anyProject ≤ id) :
    ∃ filter, filterOf d = .ok filter := by
  obtain ⟨project, hproject⟩ : ∃ p, projectFilter (d.getOk "project_id") = .ok p := by
    unfold projectFilter
    cases hid : (d.getOk "project_id").bind Json.int64? with
    | none => exact ⟨none, rfl⟩
    | some id =>
      obtain ⟨v, hv, hvid⟩ := Option.bind_eq_some_iff.1 hid
      rw [← ResourceData.get_eq_of_getOk hv] at hvid
      have hle : anyProject ≤ id := h id hvid
      by_cases hany : id = anyProject
      · exact ⟨none, by simp [hany]⟩
      · have hnonneg : ¬ id < 0 := by grind [anyProject]
        exact ⟨some id, by simp [hany, hnonneg]⟩
  rw [filterOf, hproject]
  exact ⟨_, rfl⟩

/-- A project below the one that stands for any is refused. -/
theorem filterOf_of_below (hschema : d.schema = listingSchema)
    (hid : (d.get "project_id").int64? = some id) (hlt : id < anyProject) :
    filterOf d = .error
      (.invalidArgument "project_id" (toString id.toInt ++ " is not a valid project ID")) := by
  obtain ⟨a, ha, htype⟩ := get?_projectId
  -- a project that is refused is not zero, so it is seen as given
  have hzero : d.get "project_id" ≠ .int64 0 := by
    intro hzero
    rw [hzero] at hid
    obtain rfl : 0 = id := Option.some.inj hid
    exact absurd hlt (by decide)
  have hseen : d.getOk "project_id" = some (d.get "project_id") := by
    rw [ResourceData.getOk_eq (hschema ▸ ha), htype]
    exact if_neg hzero
  have hany : id ≠ anyProject := by grind [anyProject]
  have hneg : id < 0 := by grind [anyProject]
  have hproject : projectFilter (d.getOk "project_id") =
      .error (.invalidArgument "project_id"
        (toString id.toInt ++ " is not a valid project ID")) := by
    simp only [projectFilter, hseen, Option.bind_some, hid, if_neg hany, if_pos hneg]
  rw [filterOf, hproject]
  rfl

/-! ## The result file -/

/-- The path of the file that the list is to be saved in. -/
def resultFile? (d : ResourceData) : Option String :=
  match d.getOk "result_output_file" with
  | some (.string path) => some path
  | _ => none

theorem resultFile?_eq_some_iff :
    resultFile? d = some path ↔ d.getOk "result_output_file" = some (.string path) := by
  unfold resultFile?
  split <;> grind

/-- Data of one schema that store the same path have the same result file. -/
theorem resultFile?_congr {d' : ResourceData} (hschema : d'.schema = d.schema)
    (hstored : d'.stored? "result_output_file" = d.stored? "result_output_file") :
    resultFile? d' = resultFile? d := by
  apply Option.ext
  intro path
  rw [resultFile?_eq_some_iff, resultFile?_eq_some_iff, getOk_eq_some_iff, getOk_eq_some_iff,
    hschema, hstored]

/-- The result file of a configuration is the text that it gives, unless that is empty. -/
theorem resultFile?_of_config (h : fromConfig listingSchema config = .ok d) :
    resultFile? d = some path ↔
      config.get? "result_output_file" = some (.string path) ∧ path ≠ "" := by
  obtain ⟨rfl, -⟩ := fromConfig_eq_ok_iff.1 h
  obtain ⟨a, ha, htype⟩ := get?_resultOutputFile
  rw [resultFile?_eq_some_iff, getOk_eq_some_iff]
  simp [ha, htype, ResourceData.stored?, ValueType.zero]

end Listing

end DbInventory
