/-
# DbInventory.Schema.ResourceData -- the values of one read

`ResourceData` holds the configured arguments of a read, the values that the read computes
and the identifier that it assigns. Computed values are looked up first, and everything that
is put in is checked against the schema. The identifier is not an attribute: it shows in
`state` only.
-/

import DbInventory.Schema.Attribute

namespace DbInventory

/-- Arguments, computed values and the identifier of one read. -/
structure ResourceData where
  schema : Schema
  config : Dict Json
  computed : Dict Json
  id : Option String

namespace ResourceData

/-- The data of a configuration; the first wrong argument in key order is the error. -/
def fromConfig (schema : Schema) (config : Dict Json) : Except SchemaError ResourceData :=
  match config.entries.findSome? fun e => schema.argumentError? e.1 e.2 with
  | some e => .error e
  | none => .ok { schema, config, computed := ∅, id := none }

/-- The value that is stored under a key, computed before configured. -/
def stored? (d : ResourceData) (key : String) : Option Json :=
  (d.computed.get? key).or (d.config.get? key)

/-- The value of an attribute: its zero value if it is not set, null if it is not declared. -/
def get (d : ResourceData) (key : String) : Json :=
  match d.schema.get? key with
  | none => .null
  | some a =>
    match d.stored? key with
    | none => a.type.zero
    | some .null => a.type.zero
    | some v => v

/-- The value of an attribute, unless it is the zero value. -/
def getOk (d : ResourceData) (key : String) : Option Json :=
  match d.schema.get? key with
  | none => none
  | some a => if d.get key = a.type.zero then none else some (d.get key)

/-- Stores a computed value. -/
def set (d : ResourceData) (key : String) (v : Json) : Except SchemaError ResourceData :=
  (d.schema.check key v).map fun _ => { d with computed := d.computed.insert key v }

def setId (d : ResourceData) (id : String) : ResourceData := { d with id := some id }

/-- Arguments and computed values together, with the identifier under `id`. -/
def state (d : ResourceData) : Dict Json :=
  let merged := d.config.extend d.computed
  match d.id with
  | none => merged
  | some id => merged.insert "id" (.string id)

end ResourceData

end DbInventory
