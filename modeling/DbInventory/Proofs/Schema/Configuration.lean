/-
# DbInventory.Proofs.Schema.Configuration -- what a schema refuses, and why

A value is refused under a key that is not declared, or because it does not fit the attribute
somewhere, at whatever depth; the error names the key and the attribute's own type
(`Refused`). A configuration also must not give what is computed (`Offends`). Its error is that
of the smallest key at fault, in the order of the bytes (`ResourceData.fromConfig_eq_error_iff`).
-/

import DbInventory.Proofs.Schema.Acceptance
import DbInventory.Proofs.Text.ByteOrder
import DbInventory.Schema.ResourceData

namespace DbInventory

/-! ## The smallest key of a map -/

namespace Dict

variable {α β : Type} {d : Dict α} {f : String × α → Option β} {y : β}

/-- What is found first in a map is found under the smallest key. -/
theorem exists_of_findSome?_entries (h : d.entries.findSome? f = some y) :
    ∃ key x, d.get? key = some x ∧ f (key, x) = some y ∧
      ∀ key' x' y', d.get? key' = some x' → f (key', x') = some y' → key ≤ key' := by
  obtain ⟨before, ⟨key, x⟩, after, hentries, hf, hbefore⟩ := List.findSome?_eq_some_iff.1 h
  have hsorted := d.sorted
  rw [hentries] at hsorted
  obtain ⟨-, htail, -⟩ := List.pairwise_append.1 hsorted
  refine ⟨key, x, get?_eq_some_iff.2 (by simp [hentries]), hf, fun key' x' y' hx' hf' => ?_⟩
  have hmem := get?_eq_some_iff.1 hx'
  rw [hentries, List.mem_append, List.mem_cons] at hmem
  rcases hmem with hmem | heq | hmem
  · simp [hbefore _ hmem] at hf'
  · cases heq
    exact String.le_refl _
  · have hlt : key < key' := (List.pairwise_cons.1 htail).1 _ hmem
    exact String.not_lt.1 (String.lt_asymm hlt)

theorem findSome?_entries_eq_some_iff :
    d.entries.findSome? f = some y ↔
      ∃ key x, d.get? key = some x ∧ f (key, x) = some y ∧
        ∀ key' x' y', d.get? key' = some x' → f (key', x') = some y' → key ≤ key' := by
  refine ⟨exists_of_findSome?_entries, ?_⟩
  rintro ⟨key, x, hx, hf, hleast⟩
  cases hfound : d.entries.findSome? f with
  | none => simp [List.findSome?_eq_none_iff.1 hfound _ (get?_eq_some_iff.1 hx)] at hf
  | some y₀ =>
    obtain ⟨key₀, x₀, hx₀, hf₀, hleast₀⟩ := exists_of_findSome?_entries hfound
    obtain rfl : key = key₀ :=
      String.le_antisymm (hleast key₀ x₀ y₀ hx₀ hf₀) (hleast₀ key x y hx hf)
    obtain rfl : x = x₀ := Option.some.inj (hx.symm.trans hx₀)
    exact hf₀.symm.trans hf

end Dict

/-! ## Refused values -/

variable {schema : Schema} {key : String} {v : Json} {a : Attribute} {e : SchemaError}

/-- Why a value is refused under a key. -/
inductive Refused (schema : Schema) (key : String) (v : Json) : SchemaError → Prop where
  | undeclared (h : schema.get? key = none) : Refused schema key v (.unknownAttribute key)
  | unfit {a : Attribute} (ha : schema.get? key = some a) (h : ¬a.Fits v) :
    Refused schema key v (.typeMismatch key a.type)

/-- What is wrong with a configured value; what is refused counts before what is computed. -/
inductive Offends (schema : Schema) (key : String) (v : Json) : SchemaError → Prop where
  | refused {e : SchemaError} (h : Refused schema key v e) : Offends schema key v e
  | computed {a : Attribute} (ha : schema.get? key = some a) (h : a.Fits v)
    (hcomputed : a.isOptional = false) : Offends schema key v (.notConfigurable key)

namespace Schema

theorem check_of_undeclared (h : schema.get? key = none) :
    schema.check key v = .error (.unknownAttribute key) := by
  rw [check, h]

theorem check_of_fits (ha : schema.get? key = some a) (h : a.Fits v) :
    schema.check key v = .ok a := by
  rw [check, ha]
  exact if_pos (Attribute.accepts_iff_fits.2 h)

theorem check_of_unfit (ha : schema.get? key = some a) (h : ¬a.Fits v) :
    schema.check key v = .error (.typeMismatch key a.type) := by
  rw [check, ha]
  exact if_neg (mt Attribute.accepts_iff_fits.1 h)

/-- A value is taken or refused, and a refused one for one reason. -/
theorem check_cases (schema : Schema) (key : String) (v : Json) :
    (∃ a, schema.get? key = some a ∧ a.Fits v ∧ schema.check key v = .ok a) ∨
      ∃ e, Refused schema key v e ∧ schema.check key v = .error e := by
  cases ha : schema.get? key with
  | none => exact .inr ⟨_, .undeclared ha, check_of_undeclared ha⟩
  | some a =>
    by_cases h : a.Fits v
    · exact .inl ⟨a, rfl, h, check_of_fits ha h⟩
    · exact .inr ⟨_, .unfit ha h, check_of_unfit ha h⟩

theorem check_of_refused (h : Refused schema key v e) : schema.check key v = .error e := by
  cases h with
  | undeclared h => exact check_of_undeclared h
  | unfit ha h => exact check_of_unfit ha h

theorem check_eq_ok_iff : schema.check key v = .ok a ↔ schema.get? key = some a ∧ a.Fits v := by
  refine ⟨fun hcheck => ?_, fun ⟨ha, h⟩ => check_of_fits ha h⟩
  rcases check_cases schema key v with ⟨b, hb, h, hcheck'⟩ | ⟨e, -, hcheck'⟩
  · obtain rfl : b = a := Except.ok.inj (hcheck'.symm.trans hcheck)
    exact ⟨hb, h⟩
  · cases hcheck'.symm.trans hcheck

/-- **A value is refused for the reason that the error gives.** -/
theorem check_eq_error_iff : schema.check key v = .error e ↔ Refused schema key v e := by
  refine ⟨fun hcheck => ?_, check_of_refused⟩
  rcases check_cases schema key v with ⟨b, -, -, hcheck'⟩ | ⟨e', h, hcheck'⟩
  · cases hcheck'.symm.trans hcheck
  · obtain rfl : e' = e := Except.error.inj (hcheck'.symm.trans hcheck)
    exact h

theorem argumentError?_eq_some_iff :
    schema.argumentError? key v = some e ↔ Offends schema key v e := by
  constructor
  · intro h
    rcases check_cases schema key v with ⟨a, ha, hfits, hcheck⟩ | ⟨e', hrefused, hcheck⟩
    · cases hoptional : a.isOptional with
      | true => simp [argumentError?, hcheck, hoptional] at h
      | false =>
        obtain rfl : .notConfigurable key = e := by
          simpa [argumentError?, hcheck, hoptional] using h
        exact .computed ha hfits hoptional
    · obtain rfl : e' = e := by simpa [argumentError?, hcheck] using h
      exact .refused hrefused
  · intro h
    cases h with
    | refused h => simp only [argumentError?, check_of_refused h]
    | computed ha h hcomputed =>
      simp [argumentError?, check_of_fits ha h, hcomputed]

/-- A configured value is in order if it fits an attribute that may be configured. -/
theorem argumentError?_eq_none_iff :
    schema.argumentError? key v = none ↔
      ∃ a, schema.get? key = some a ∧ a.Fits v ∧ a.isOptional := by
  rcases check_cases schema key v with ⟨a, ha, hfits, hcheck⟩ | ⟨e, hrefused, hcheck⟩
  · simp [argumentError?, hcheck, ha, hfits]
  · have hnone : ¬∃ a, schema.get? key = some a ∧ a.Fits v ∧ a.isOptional := by
      rintro ⟨a, ha, hfits, -⟩
      cases hcheck.symm.trans (check_of_fits ha hfits)
    simpa [argumentError?, hcheck] using hnone

end Schema

/-! ## Configurations -/

namespace ResourceData

variable {config : Dict Json} {d d' : ResourceData}

/-- What data of a configuration are, when the schema takes all of it. -/
theorem fromConfig_eq_ok_iff :
    fromConfig schema config = .ok d ↔
      d = { schema, config, computed := ∅, id := none } ∧
        ∀ e ∈ config.entries, schema.argumentError? e.1 e.2 = none := by
  rw [← List.findSome?_eq_none_iff, fromConfig]
  cases config.entries.findSome? fun e => schema.argumentError? e.1 e.2 with
  | none => simp [eq_comm]
  | some e => simp

/-- A configured value is one that its attribute takes, and the attribute is an argument. -/
theorem argument_of_config (h : fromConfig schema config = .ok d)
    (hvalue : config.get? key = some v) :
    ∃ a, schema.get? key = some a ∧ a.Fits v ∧ a.isOptional :=
  Schema.argumentError?_eq_none_iff.1
    ((fromConfig_eq_ok_iff.1 h).2 (key, v) (Dict.get?_eq_some_iff.1 hvalue))

/-- **A configuration is taken if it gives nothing but arguments that fit.** -/
theorem exists_fromConfig_iff :
    (∃ d, fromConfig schema config = .ok d) ↔
      ∀ key v, config.get? key = some v →
        ∃ a, schema.get? key = some a ∧ a.Fits v ∧ a.isOptional := by
  refine ⟨fun ⟨d, h⟩ key v hvalue => argument_of_config h hvalue, fun h => ?_⟩
  refine ⟨_, fromConfig_eq_ok_iff.2 ⟨rfl, fun e he => ?_⟩⟩
  exact Schema.argumentError?_eq_none_iff.2 (h e.1 e.2 (Dict.get?_eq_some_iff.2 he))

/-- **The error of a configuration is that of its smallest key at fault.** -/
theorem fromConfig_eq_error_iff :
    fromConfig schema config = .error e ↔
      ∃ key v, config.get? key = some v ∧ Offends schema key v e ∧
        ∀ key' v' e', config.get? key' = some v' → Offends schema key' v' e' →
          Text.utf8 key ≤ Text.utf8 key' := by
  have hle : ∀ key key' : String, Text.utf8 key ≤ Text.utf8 key' ↔ key ≤ key' := fun key key' => by
    rw [← List.not_lt, Text.utf8_lt_iff, String.not_lt]
  have hfound : fromConfig schema config = .error e ↔
      config.entries.findSome? (fun x => schema.argumentError? x.1 x.2) = some e := by
    rw [fromConfig]
    cases config.entries.findSome? fun x => schema.argumentError? x.1 x.2 with
    | none => simp
    | some e' => simp
  rw [hfound, Dict.findSome?_entries_eq_some_iff]
  simp only [Schema.argumentError?_eq_some_iff, hle]

end ResourceData

end DbInventory
