/-
# DbInventory.Proofs.Schema.OneMap -- the data of a read as one map

The data of a read keep what is configured apart from what is computed, and look at both.
Seen from outside there is only one map: `OneMap` holds it, with the identifier beside it, and
its operations say in full what the operations of the data answer. Each operation of the data
does to their map what the same operation of `OneMap` does (`ResourceData.perform_eq`), so
every run of operations answers the same on both (`ResourceData.answers_eq`).
-/

import DbInventory.Proofs.Schema.Configuration

namespace DbInventory

/-! ## Operations and their answers -/

/-- What can be asked of the data of a read, and done to them. -/
inductive DataOperation where
  | get (key : String)
  | getOk (key : String)
  | set (key : String) (v : Json)
  | setId (id : String)
  | id
  | state

inductive DataAnswer where
  | value (v : Json)
  | valueIfAny (v : Option Json)
  | stored
  | refused (e : SchemaError)
  | named
  | identifier (id : Option String)
  | entries (d : Dict Json)
  deriving DecidableEq

/-- The answers to operations, one after the other, and what they leave. -/
def runOperations {δ : Type} (perform : δ → DataOperation → DataAnswer × δ) :
    δ → List DataOperation → List DataAnswer × δ
  | d, [] => ([], d)
  | d, op :: ops =>
    let (answer, d) := perform d op
    let (answers, d) := runOperations perform d ops
    (answer :: answers, d)

/-- The answer to a value that is put in, if it is accepted; otherwise nothing changes. -/
def storing {δ : Type} (d : δ) : Except SchemaError δ → DataAnswer × δ
  | .ok d' => (.stored, d')
  | .error e => (.refused e, d)

namespace ResourceData

def perform (d : ResourceData) : DataOperation → DataAnswer × ResourceData
  | .get key => (.value (d.get key), d)
  | .getOk key => (.valueIfAny (d.getOk key), d)
  | .set key v => storing d (d.set key v)
  | .setId id => (.named, d.setId id)
  | .id => (.identifier d.id, d)
  | .state => (.entries d.state, d)

/-- The answers of the data to operations, one after the other. -/
def answers (d : ResourceData) (ops : List DataOperation) : List DataAnswer :=
  (runOperations perform d ops).1

/-- The data after operations. -/
def after (d : ResourceData) (ops : List DataOperation) : ResourceData :=
  (runOperations perform d ops).2

end ResourceData

/-! ## One map -/

/-- One map of values, and an identifier beside it. -/
structure OneMap where
  schema : Schema
  values : Dict Json
  id : Option String

namespace OneMap

/-- What is configured, and no identifier. -/
def ofConfig (schema : Schema) (config : Dict Json) : OneMap := ⟨schema, config, none⟩

/-- Null for a name that is not declared, the zero value for a missing value and for null, and
the value otherwise. -/
def get (m : OneMap) (key : String) : Json :=
  match m.schema.get? key with
  | none => .null
  | some a => ((m.values.get? key).filter (· ≠ .null)).getD a.type.zero

/-- Nothing for a name that is not declared and for the zero value. -/
def getOk (m : OneMap) (key : String) : Option Json :=
  (m.schema.get? key).bind fun a => if m.get key = a.type.zero then none else some (m.get key)

/-- An accepted value takes the place of the one that is there. -/
def set (m : OneMap) (key : String) (v : Json) : Except SchemaError OneMap :=
  (m.schema.check key v).map fun _ => { m with values := m.values.insert key v }

/-- The map, with the identifier in the place of `id`, if there is one. -/
def state (m : OneMap) : Dict Json :=
  match m.id with
  | none => m.values
  | some id => m.values.insert "id" (.string id)

def perform (m : OneMap) : DataOperation → DataAnswer × OneMap
  | .get key => (.value (m.get key), m)
  | .getOk key => (.valueIfAny (m.getOk key), m)
  | .set key v => storing m (m.set key v)
  | .setId id => (.named, { m with id := some id })
  | .id => (.identifier m.id, m)
  | .state => (.entries m.state, m)

/-- The answers of the map to operations, one after the other. -/
def answers (m : OneMap) (ops : List DataOperation) : List DataAnswer :=
  (runOperations perform m ops).1

/-- The map after operations. -/
def after (m : OneMap) (ops : List DataOperation) : OneMap :=
  (runOperations perform m ops).2

end OneMap

/-! ## The data are one map -/

namespace ResourceData

variable {schema : Schema} {config : Dict Json} {d : ResourceData}

/-- The one map of data: what is computed over what is configured. -/
def oneMap (d : ResourceData) : OneMap := ⟨d.schema, d.config.extend d.computed, d.id⟩

theorem get?_oneMap (d : ResourceData) (key : String) :
    d.oneMap.values.get? key = d.stored? key :=
  Dict.get?_extend ..

theorem oneMap_of_fromConfig (h : fromConfig schema config = .ok d) :
    d.oneMap = .ofConfig schema config := by
  obtain ⟨rfl, -⟩ := fromConfig_eq_ok_iff.1 h
  have hvalues : config.extend ∅ = config := Dict.ext_get? fun k => by
    rw [Dict.get?_extend, Dict.get?_empty, Option.none_or]
  simp only [oneMap, OneMap.ofConfig, hvalues]

theorem get_oneMap (d : ResourceData) (key : String) : d.oneMap.get key = d.get key := by
  have hschema : d.oneMap.schema = d.schema := rfl
  rw [OneMap.get, get, get?_oneMap, hschema]
  cases d.schema.get? key with
  | none => rfl
  | some a =>
    cases d.stored? key with
    | none => rfl
    | some v => cases v <;> rfl

theorem getOk_oneMap (d : ResourceData) (key : String) : d.oneMap.getOk key = d.getOk key := by
  have hschema : d.oneMap.schema = d.schema := rfl
  rw [OneMap.getOk, get_oneMap, getOk, hschema]
  cases d.schema.get? key <;> rfl

/-- A value that is put into the data is put into their map. -/
theorem set_oneMap (d : ResourceData) (key : String) (v : Json) :
    d.oneMap.set key v = (d.set key v).map oneMap := by
  have hvalues : (d.config.extend d.computed).insert key v =
      d.config.extend (d.computed.insert key v) := Dict.ext_get? fun k => by
    simp only [Dict.get?_insert, Dict.get?_extend]
    split <;> rfl
  simp only [OneMap.set, set, oneMap, hvalues]
  cases d.schema.check key v <;> rfl

theorem state_oneMap (d : ResourceData) : d.oneMap.state = d.state := by
  cases hid : d.id <;> simp only [OneMap.state, state, oneMap, hid]

/-- **An operation of the data is one of their map**: it answers the same, and leaves data whose
map is what it leaves of the map. -/
theorem perform_oneMap (d : ResourceData) (op : DataOperation) :
    d.oneMap.perform op = ((d.perform op).1, (d.perform op).2.oneMap) := by
  cases op with
  | get key => simp only [OneMap.perform, perform, get_oneMap]
  | getOk key => simp only [OneMap.perform, perform, getOk_oneMap]
  | set key v =>
    simp only [OneMap.perform, perform, set_oneMap]
    cases d.set key v <;> rfl
  | setId id => rfl
  | id => rfl
  | state => simp only [OneMap.perform, perform, state_oneMap]

theorem runOperations_oneMap (d : ResourceData) (ops : List DataOperation) :
    runOperations OneMap.perform d.oneMap ops = (d.answers ops, (d.after ops).oneMap) := by
  induction ops generalizing d with
  | nil => rfl
  | cons op ops ih =>
    rw [runOperations, perform_oneMap]
    simp only [ih]
    rfl

/-- **The data of a read answer as one map does**, to every run of operations, and the run
leaves them with the map that it leaves. -/
theorem answers_eq (h : fromConfig schema config = .ok d) (ops : List DataOperation) :
    d.answers ops = (OneMap.ofConfig schema config).answers ops ∧
      (d.after ops).oneMap = (OneMap.ofConfig schema config).after ops := by
  rw [← oneMap_of_fromConfig h, OneMap.answers, OneMap.after, runOperations_oneMap]
  exact ⟨rfl, rfl⟩

/-! ## A run -/

/-- An attribute goes by the name that the identifier is shown under. -/
def namesakeSchema : Schema where
  entries := [("id", .argument .string ""), ("size", .argument .int "")]

/-- The second value is null. -/
def namesakeConfig : Dict Json where
  entries := [("id", .string "a"), ("size", .null)]

/-- A refused value changes nothing, an accepted one takes the place of null, and the identifier
is seen in the state only. -/
theorem answers_eq_namesake :
    ∃ d, fromConfig namesakeSchema namesakeConfig = .ok d ∧
      d.answers [.get "size", .getOk "size", .set "size" (.string "b"), .set "size" (.int64 3),
          .set "name" .null, .get "size", .setId "c", .getOk "id", .get "name", .id, .state] =
        [.value (.int64 0), .valueIfAny none, .refused (.typeMismatch "size" .int), .stored,
          .refused (.unknownAttribute "name"), .value (.int64 3), .named,
          .valueIfAny (some (.string "a")), .value .null, .identifier (some "c"),
          .entries ⟨[("id", .string "c"), ("size", .int64 3)], by decide⟩] := by
  have hconfig : fromConfig namesakeSchema namesakeConfig =
      .ok ⟨namesakeSchema, namesakeConfig, ∅, none⟩ :=
    fromConfig_eq_ok_iff.2 ⟨rfl, by decide +kernel⟩
  refine ⟨_, hconfig, ?_⟩
  rw [(answers_eq hconfig _).1]
  decide +kernel

end ResourceData

end DbInventory
