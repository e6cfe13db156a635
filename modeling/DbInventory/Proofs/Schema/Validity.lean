/-
# DbInventory.Proofs.Schema.Validity -- the schema is kept to

What the data of a read store was checked when it was configured or put in. One operation keeps
it so (`ResourceData.KeepsTo.perform`), and so does every run of operations. Each entry of the
state is therefore declared and fits its attribute at every depth, and a declared attribute has
a value of its own type (`ResourceData.schema_enforced`).
-/

import DbInventory.Proofs.Except
import DbInventory.Proofs.Schema.OneMap

namespace DbInventory

/-! ## Values of a type -/

theorem Json.IsOf.ne_null {v : Json} {type : ValueType} (h : v.IsOf type) : v ≠ .null := by
  cases type <;> obtain ⟨_, rfl⟩ := h <;> simp [Json.int64]

theorem ValueType.isOf_zero (type : ValueType) : type.zero.IsOf type := by
  cases type <;> exact ⟨_, rfl⟩

theorem Attribute.Fits.eq_null_or_isOf {a : Attribute} {v : Json} (h : a.Fits v) :
    v = .null ∨ v.IsOf a.type :=
  (h a v (.self a v)).imp_right And.left

namespace ResourceData

variable {schema : Schema} {config : Dict Json} {d d' : ResourceData} {key : String} {v : Json}
  {a : Attribute} {e : SchemaError}

/-! ## Putting a value in -/

theorem set_eq_ok_iff :
    d.set key v = .ok d' ↔ (∃ a, d.schema.get? key = some a ∧ a.Fits v) ∧
      d' = { d with computed := d.computed.insert key v } := by
  simp only [set, map_eq_ok_iff, Schema.check_eq_ok_iff]
  constructor
  · rintro ⟨a, ha, rfl⟩
    exact ⟨⟨a, ha⟩, rfl⟩
  · rintro ⟨⟨a, ha⟩, rfl⟩
    exact ⟨a, ha, rfl⟩

/-- A value that is not taken is refused under the key that it was to be put under. -/
theorem set_eq_error_iff : d.set key v = .error e ↔ Refused d.schema key v e := by
  rw [set, map_eq_error_iff, Schema.check_eq_error_iff]

/-! ## Data that keep to their schema -/

/-- What the data store is declared, and fits at every depth. -/
structure KeepsTo (d : ResourceData) (schema : Schema) : Prop where
  schema_eq : d.schema = schema
  stored : ∀ key v, d.stored? key = some v → ∃ a, schema.get? key = some a ∧ a.Fits v

theorem keepsTo_of_fromConfig (h : fromConfig schema config = .ok d) : d.KeepsTo schema := by
  obtain ⟨rfl, -⟩ := fromConfig_eq_ok_iff.1 h
  refine ⟨rfl, fun key v hv => ?_⟩
  rw [stored?, Dict.get?_empty, Option.none_or] at hv
  obtain ⟨a, ha, hfits, -⟩ := argument_of_config h hv
  exact ⟨a, ha, hfits⟩

namespace KeepsTo

/-- A value that is taken is stored beside those before it. -/
theorem set (h : d.KeepsTo schema) (hset : d.set key v = .ok d') : d'.KeepsTo schema := by
  obtain ⟨rfl, hstored⟩ := h
  obtain ⟨hfits, rfl⟩ := set_eq_ok_iff.1 hset
  refine ⟨rfl, fun key' v' hv' => ?_⟩
  rw [stored?, Dict.get?_insert] at hv'
  split at hv'
  next hkey =>
    subst hkey
    obtain rfl : v = v' := Option.some.inj hv'
    exact hfits
  next => exact hstored key' v' hv'

/-- **An operation keeps to the schema.** -/
theorem perform (h : d.KeepsTo schema) (op : DataOperation) :
    (d.perform op).2.KeepsTo schema := by
  cases op with
  | set key v =>
    rw [ResourceData.perform]
    cases hset : d.set key v with
    | ok d' => exact h.set hset
    | error e => exact h
  | setId id => exact ⟨h.schema_eq, h.stored⟩
  | get key => exact h
  | getOk key => exact h
  | id => exact h
  | state => exact h

/-- **A run of operations keeps to the schema.** -/
theorem after (h : d.KeepsTo schema) (ops : List DataOperation) :
    (d.after ops).KeepsTo schema := by
  induction ops generalizing d with
  | nil => exact h
  | cons op ops ih => exact ih (h.perform op)

/-- An entry of the state is stored, or it is the identifier. -/
theorem state (h : d.KeepsTo schema) (hkey : key ≠ "id") (hv : d.state.get? key = some v) :
    ∃ a, schema.get? key = some a ∧ a.Fits v := by
  apply h.stored
  rw [stored?, ← Dict.get?_extend, ← hv, ResourceData.state]
  cases d.id with
  | none => rfl
  | some id => exact (Dict.get?_insert ..).symm ▸ (if_neg hkey).symm

/-- A declared attribute has a value of its type, whether or not one is stored. -/
theorem get (h : d.KeepsTo schema) (ha : schema.get? key = some a) :
    (d.get key).IsOf a.type := by
  obtain ⟨rfl, hstored⟩ := h
  simp only [ResourceData.get, ha]
  split
  next => exact a.type.isOf_zero
  next => exact a.type.isOf_zero
  next v hnull hv =>
    obtain ⟨b, hb, hfits⟩ := hstored key v hv
    obtain rfl : a = b := Option.some.inj (ha.symm.trans hb)
    exact hfits.eq_null_or_isOf.resolve_left hnull

end KeepsTo

/-! ## What a schema enforces -/

/-- **A schema is enforced.** A configuration is taken if each key is declared, may be configured
and has a value that fits at every depth; otherwise the error is that of the smallest key at
fault. Whatever is done to the data of a configuration after that: a value is refused under its
own key and for the type of its own attribute; what the state shows, apart from the identifier,
is declared and fits; and a declared attribute has a value of its type, which is not null. -/
theorem schema_enforced (schema : Schema) (config : Dict Json) :
    ((∃ d, fromConfig schema config = .ok d) ↔
      ∀ key v, config.get? key = some v →
        ∃ a, schema.get? key = some a ∧ a.Fits v ∧ a.isOptional) ∧
    (∀ e, fromConfig schema config = .error e ↔
      ∃ key v, config.get? key = some v ∧ Offends schema key v e ∧
        ∀ key' v' e', config.get? key' = some v' → Offends schema key' v' e' →
          Text.utf8 key ≤ Text.utf8 key') ∧
    ∀ d ops, fromConfig schema config = .ok d →
      (∀ key v e, (d.after ops).set key v = .error e ↔ Refused schema key v e) ∧
      (∀ key v, key ≠ "id" → (d.after ops).state.get? key = some v →
        ∃ a, schema.get? key = some a ∧ a.Fits v) ∧
      ∀ key a, schema.get? key = some a →
        (d.after ops).get key ≠ .null ∧ ((d.after ops).get key).IsOf a.type := by
  refine ⟨exists_fromConfig_iff, fun e => fromConfig_eq_error_iff, fun d ops h => ?_⟩
  have hkeeps : (d.after ops).KeepsTo schema := (keepsTo_of_fromConfig h).after ops
  refine ⟨fun key v e => ?_, fun key v hkey hv => hkeeps.state hkey hv, fun key a ha => ?_⟩
  · rw [set_eq_error_iff, hkeeps.schema_eq]
  · exact ⟨(hkeeps.get ha).ne_null, hkeeps.get ha⟩

/-- Disks are computed, and their parts lie one list deeper. -/
def diskSchema : Schema where
  entries := [
    ("disks", .computedList "" ⟨[
      ("parts", .computedList "" ⟨[("size", .computed .int "")], by decide⟩)], by decide⟩),
    ("zone", .argument .string "")]

/-- One disk with one part. -/
def diskOfSize (size : Json) : Json :=
  .array [.object [("parts", .array [.object [("size", size)]])]]

/-- Of two keys at fault the smaller counts, though its value fits; and a size that does not fit
is refused as that of the disks. -/
theorem schema_enforced_disks :
    fromConfig diskSchema ⟨[("disks", diskOfSize .null), ("zone", .int64 3)], by decide⟩ =
        .error (.notConfigurable "disks") ∧
      ∃ d, fromConfig diskSchema ⟨[("zone", .null)], by decide⟩ = .ok d ∧
        ∀ ops, (d.after ops).set "disks" (diskOfSize (.string "3")) =
            .error (.typeMismatch "disks" .list) ∧
          (d.after ops).get "zone" ≠ .null := by
  obtain ⟨disks, hdisks, htype, hcomputed, hnull, htext⟩ :
      ∃ a, diskSchema.get? "disks" = some a ∧ a.type = .list ∧ a.isOptional = false ∧
        a.accepts (diskOfSize .null) ∧ ¬a.accepts (diskOfSize (.string "3")) :=
    ⟨_, rfl, rfl, rfl, by decide +kernel, by decide +kernel⟩
  rw [Attribute.accepts_iff_fits] at hnull htext
  constructor
  · refine ((schema_enforced _ _).2.1 _).2 ⟨"disks", _, rfl, .computed hdisks hnull hcomputed, ?_⟩
    intro key v e hv _
    have hmem := Dict.get?_eq_some_iff.1 hv
    simp only [List.mem_cons, Prod.mk.injEq, List.not_mem_nil, or_false] at hmem
    rcases hmem with ⟨rfl, -⟩ | ⟨rfl, -⟩ <;> decide
  · have hzone : ∀ key v, (⟨[("zone", .null)], by decide⟩ : Dict Json).get? key = some v →
        ∃ a, diskSchema.get? key = some a ∧ a.Fits v ∧ a.isOptional := by
      intro key v hv
      have hmem := Dict.get?_eq_some_iff.1 hv
      simp only [List.mem_singleton, Prod.mk.injEq] at hmem
      obtain ⟨rfl, rfl⟩ := hmem
      exact ⟨_, rfl, Attribute.accepts_iff_fits.1 rfl, rfl⟩
    obtain ⟨d, hd⟩ := (schema_enforced _ _).1.2 hzone
    refine ⟨d, hd, fun ops => ?_⟩
    obtain ⟨hset, -, hget⟩ := (schema_enforced _ _).2.2 d ops hd
    exact ⟨(hset _ _ _).2 (htype ▸ .unfit hdisks htext), (hget "zone" _ rfl).1⟩

end ResourceData

end DbInventory
