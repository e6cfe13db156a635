/-
# DbInventory.Schema.Attribute -- declared attributes and the values they accept

A schema declares attributes by name. An attribute has a type, may be configured or is
computed, and a list may have a schema for its elements. `accepts` decides which values an
attribute takes, at every depth: null always, whole numbers only if they fit a signed word,
maps from names to strings or nulls, and lists whose elements are objects of declared
members, where an element schema is given.
-/

import DbInventory.Json.Basic

namespace DbInventory

/-- The types of attributes. -/
inductive ValueType where
  | string
  | int
  | list
  | map
  deriving DecidableEq, Inhabited

namespace ValueType

/-- The value of an attribute that is not set. -/
def zero : ValueType → Json
  | .string => .string ""
  | .int => .int64 0
  | .list => .array []
  | .map => .object []

def name : ValueType → String
  | .string => "string"
  | .int => "int"
  | .list => "list"
  | .map => "map"

end ValueType

/-- A declared attribute. `element` declares the members of a list's elements; it is kept
as sorted entries. -/
structure Attribute where
  type : ValueType
  isOptional : Bool
  isComputed : Bool
  description : String
  element : Option (List (String × Attribute))
  deriving Inhabited

namespace Attribute

/-- An attribute that may be configured. -/
def argument (type : ValueType) (description : String) : Attribute :=
  ⟨type, true, false, description, none⟩

/-- An attribute that is computed. -/
def computed (type : ValueType) (description : String) : Attribute :=
  ⟨type, false, true, description, none⟩

/-- A computed list whose elements are objects of a schema. -/
def computedList (description : String) (element : Dict Attribute) : Attribute :=
  ⟨.list, false, true, description, some element.entries⟩

def isText : Json → Bool
  | .string _ => true
  | _ => false

/-- A value of a map. -/
def isMapValue : Json → Bool
  | .null => true
  | v => isText v

mutual

/-- The values that an attribute takes. -/
def accepts (a : Attribute) : Json → Bool
  | .null => true
  | .bool _ => false
  | .number n =>
    match a.type, n with
    | .int, .whole n => n.val < signedLimit
    | _, _ => false
  | .string _ => a.type = .string
  | .object members => a.type = .map && members.all fun m => isMapValue m.2
  | .array items =>
    a.type = .list &&
      match a.element with
      | none => true
      | some attributes => acceptsItems attributes items

/-- Lists of objects of declared members. -/
def acceptsItems (attributes : List (String × Attribute)) : List Json → Bool
  | [] => true
  | .object members :: items => acceptsMembers attributes members && acceptsItems attributes items
  | .null :: _ => false
  | .bool _ :: _ => false
  | .number _ :: _ => false
  | .string _ :: _ => false
  | .array _ :: _ => false

/-- Members that are declared and whose values are taken. -/
def acceptsMembers (attributes : List (String × Attribute)) : List (String × Json) → Bool
  | [] => true
  | (name, v) :: members =>
    (match attributes.lookup name with
      | none => false
      | some a => a.accepts v) && acceptsMembers attributes members

end

end Attribute

/-- A schema: the declared attributes by name. -/
abbrev Schema := Dict Attribute

/-! ## Errors -/

/-- Why a value does not fit a schema. -/
inductive SchemaError where
  | unknownAttribute (key : String)
  | typeMismatch (key : String) (expected : ValueType)
  | notConfigurable (key : String)
  deriving DecidableEq

namespace SchemaError

def message : SchemaError → String
  | .unknownAttribute key => "unknown attribute: " ++ key
  | .typeMismatch key expected => "attribute " ++ key ++ " expects a " ++ expected.name ++ " value"
  | .notConfigurable key => "attribute " ++ key ++ " is computed and cannot be configured"

end SchemaError

namespace Schema

/-- The attribute of a key, if it takes the value. -/
def check (schema : Schema) (key : String) (v : Json) : Except SchemaError Attribute :=
  match schema.get? key with
  | none => .error (.unknownAttribute key)
  | some a => if a.accepts v then .ok a else .error (.typeMismatch key a.type)

/-- What is wrong with a configured value, if anything. -/
def argumentError? (schema : Schema) (key : String) (v : Json) : Option SchemaError :=
  match schema.check key v with
  | .error e => some e
  | .ok a => if a.isOptional then none else some (.notConfigurable key)

end Schema

end DbInventory
