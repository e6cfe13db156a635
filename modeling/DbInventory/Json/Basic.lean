/-
# DbInventory.Json.Basic -- JSON values

A JSON number is either a whole number that fits a 64-bit word, signed or unsigned, or a
finite binary64 number; the two never mix. The members of an object are kept as a list.
A *tree* as it stands in a text may repeat names and give them in any order; a *value* has
its members in name order, each name once. `normal` makes the value of a tree: of repeated
names the last counts. `IsNormal` says of a tree that it is a value already.
-/

import DbInventory.Dict
import DbInventory.Binary64.Basic
import DbInventory.WordInt

namespace DbInventory

/-- A JSON number: whole, or a binary64 number. -/
inductive Json.Number where
  | whole (n : WordInt)
  | float (x : Binary64)
  deriving DecidableEq, Inhabited

/-- A JSON tree. -/
inductive Json where
  | null
  | bool (b : Bool)
  | number (n : Json.Number)
  | string (s : String)
  | array (items : List Json)
  | object (members : List (String × Json))
  deriving Inhabited

namespace Json

/-! ## Equality is decidable -/

mutual

def decEq : (v w : Json) → Decidable (v = w)
  | .null, .null => .isTrue rfl
  | .bool a, .bool b => decidable_of_iff (a = b) (by simp)
  | .number a, .number b => decidable_of_iff (a = b) (by simp)
  | .string a, .string b => decidable_of_iff (a = b) (by simp)
  | .array a, .array b => @decidable_of_iff _ (a = b) (by simp) (decEqItems a b)
  | .object a, .object b => @decidable_of_iff _ (a = b) (by simp) (decEqMembers a b)
  | .null, .bool _ | .null, .number _ | .null, .string _ | .null, .array _ | .null, .object _
  | .bool _, .null | .bool _, .number _ | .bool _, .string _ | .bool _, .array _
  | .bool _, .object _ | .number _, .null | .number _, .bool _ | .number _, .string _
  | .number _, .array _ | .number _, .object _ | .string _, .null | .string _, .bool _
  | .string _, .number _ | .string _, .array _ | .string _, .object _ | .array _, .null
  | .array _, .bool _ | .array _, .number _ | .array _, .string _ | .array _, .object _
  | .object _, .null | .object _, .bool _ | .object _, .number _ | .object _, .string _
  | .object _, .array _ => .isFalse (by simp)

def decEqItems : (v w : List Json) → Decidable (v = w)
  | [], [] => .isTrue rfl
  | a :: as, b :: bs =>
    match decEq a b, decEqItems as bs with
    | .isTrue h, .isTrue h' => .isTrue (by rw [h, h'])
    | .isFalse h, _ => .isFalse (by simp [h])
    | _, .isFalse h => .isFalse (by simp [h])
  | [], _ :: _ => .isFalse (by simp)
  | _ :: _, [] => .isFalse (by simp)

def decEqMembers : (v w : List (String × Json)) → Decidable (v = w)
  | [], [] => .isTrue rfl
  | (k, a) :: as, (l, b) :: bs =>
    match instDecidableEqString k l, decEq a b, decEqMembers as bs with
    | .isTrue h, .isTrue h', .isTrue h'' => .isTrue (by rw [h, h', h''])
    | .isFalse h, _, _ => .isFalse (by simp [h])
    | _, .isFalse h, _ => .isFalse (by simp [h])
    | _, _, .isFalse h => .isFalse (by simp [h])
  | [], _ :: _ => .isFalse (by simp)
  | _ :: _, [] => .isFalse (by simp)

end

instance : DecidableEq Json := decEq

/-! ## Values -/

mutual

/-- The value of a tree: members in name order, of repeated names the last. -/
def normal : Json → Json
  | .array items => .array (normalItems items)
  | .object members => .object (Dict.ofList (normalMembers members)).entries
  | v => v

def normalItems : List Json → List Json
  | [] => []
  | v :: rest => v.normal :: normalItems rest

def normalMembers : List (String × Json) → List (String × Json)
  | [] => []
  | (k, v) :: rest => (k, v.normal) :: normalMembers rest

end

/-- A tree that is a value. -/
def IsNormal (v : Json) : Prop := v.normal = v

instance (v : Json) : Decidable v.IsNormal := inferInstanceAs (Decidable (_ = _))

/-! ## Building and taking apart -/

/-- The object of a map. -/
def ofDict (d : Dict Json) : Json := .object d.entries

/-- A signed word as a number. -/
def int64 (n : Int64) : Json := .number (.whole (.ofInt64 n))

/-- An unsigned word as a number. -/
def uint64 (n : UInt64) : Json := .number (.whole (.ofUInt64 n))

/-- A value that may be missing, which is null. -/
def optional (f : α → Json) : Option α → Json
  | some x => f x
  | none => .null

def string? : Json → Option String
  | .string s => some s
  | _ => none

def int64? : Json → Option Int64
  | .number (.whole n) => n.toInt64?
  | _ => none

def uint64? : Json → Option UInt64
  | .number (.whole n) => n.toUInt64?
  | _ => none

def array? : Json → Option (List Json)
  | .array items => some items
  | _ => none

def object? : Json → Option (List (String × Json))
  | .object members => some members
  | _ => none

/-- The member of a name; null when there is none, also of a tree that is not an object. -/
def member (v : Json) (k : String) : Json :=
  match v with
  | .object members => (members.lookup k).getD .null
  | _ => .null

end Json

end DbInventory
