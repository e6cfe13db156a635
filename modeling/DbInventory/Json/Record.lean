/-
# DbInventory.Json.Record -- records in JSON

A record has named fields. It may be written as an object, whose unknown members are passed
over and whose known members may not be repeated, or as a list of all fields in order.
`RecordForm` describes one record for both forms; `Fields` describes records whose fields
are scalars, and then the same description also decodes a tree that has been read already
(`Fields.ofTree?`), where only success matters.
-/

import DbInventory.Json.Reader

namespace DbInventory.Json

/-! ## Scalars -/

/-- The fault of a value of the wrong kind. A scalar is read to its end first; a bracket is
left in front. -/
def mismatch (expected : String) (s : List Char) : Fault :=
  let found (x : Found) (rest : List Char) : Fault := .here (.invalidType x expected) rest
  match s with
  | [] => .next .expectedValue []
  | c :: t =>
    if c = '[' then found .sequence s
    else if c = '{' then found .map s
    else
      match readValueWith none s with
      | .error fault => fault
      | .ok (v, rest) =>
        match v with
        | .null => found .null rest
        | .bool b => found (.bool b) rest
        | .number (.whole n) => found (.integer n.val) rest
        | .number (.float x) => found (.float x) rest
        | .string x => found (.string x) rest
        | .array _ => found .sequence (c :: t)
        | .object _ => found .map (c :: t)

/-- A string. -/
def readStringValue : Reader String := fun s =>
  match skipBlanks s with
  | [] => .error (.here .eofInValue [])
  | c :: t =>
    if c = '"' then readString t else .error (mismatch "a string" (c :: t))

/-- A whole number that fits a signed word. -/
def readInt64 : Reader Int64 := fun s =>
  match skipBlanks s with
  | [] => .error (.here .eofInValue [])
  | c :: t =>
    if c = '-' ∨ isDigit c then do
      let (n, rest) ← if c = '-' then readNumber true t else readNumber false (c :: t)
      match n with
      | .float x => .error (.here (.invalidType (.float x) "i64") rest)
      | .whole n =>
        match n.toInt64? with
        | some x => .ok (x, rest)
        | none => .error (.here (.invalidInteger n.val "i64") rest)
    else .error (mismatch "i64" (c :: t))

/-- A value or null. -/
def readOptional (value : Reader α) : Reader (Option α) := fun s =>
  match skipBlanks s with
  | [] => .error (.here .eofInValue [])
  | c :: t =>
    if c = 'n' then do
      let s ← readLetters ['u', 'l', 'l'] t
      .ok (none, s)
    else do
      let (x, s) ← value (c :: t)
      .ok (some x, s)

/-! ## Records in text -/

/-- How a record is read: `title` names it in messages; `elements` read the list form, in
order; `finish` checks the object form. -/
structure RecordForm (σ α : Type) where
  title : String
  start : σ
  slot : σ → String → Slot σ
  elements : List (σ → Reader σ)
  finish : σ → Except Cause α

namespace RecordForm

/-- What a list of the wrong length should have been. -/
def lengthText (title : String) (n : Nat) : String :=
  title ++ " with " ++ toString n ++ " element" ++ (if n = 1 then "" else "s")

/-- The elements of the list form, from behind the bracket; `n` elements have been read. -/
def readElements (total : String) : (n : Nat) → List (σ → Reader σ) → σ → Reader σ
  | _, [], st, s => .ok (st, s)
  | n, element :: elements, st, s =>
    match skipBlanks s with
    | [] => .error (.here .eofInList [])
    | c :: t =>
      if c = ']' then .error (.here (.invalidLength n total) t)
      else if n = 0 then do
        let (st, s) ← element st (c :: t)
        readElements total (n + 1) elements st s
      else if c = ',' then
        match skipBlanks t with
        | [] => .error (.here .eofInValue [])
        | d :: t =>
          if d = ']' then .error (.next .trailingComma (d :: t))
          else do
            let (st, s) ← element st (d :: t)
            readElements total (n + 1) elements st s
      else .error (.next .expectedListCommaOrEnd (c :: t))

/-- The text behind the bracket that closes a list whose elements have all been read. -/
def closeList (s : List Char) : Except Fault (List Char) :=
  match skipBlanks s with
  | [] => .error (.here .eofInList [])
  | c :: t =>
    if c = ']' then .ok t
    else if c = ',' then
      match skipBlanks t with
      | [] => .error (.here .trailingCharacters [])
      | d :: t =>
        if d = ']' then .error (.next .trailingComma (d :: t))
        else .error (.next .trailingCharacters (d :: t))
    else .error (.next .trailingCharacters (c :: t))

/-- The record of a list, from behind its bracket. -/
def readList (form : RecordForm σ α) : Reader α := fun s => do
  let (st, s) ← readElements (lengthText form.title form.elements.length) 0 form.elements
    form.start s
  match form.finish st with
  | .ok x => do
    let s ← closeList s
    .ok (x, s)
  | .error cause => .error (.here cause s)

/-- The record of an object, from behind its brace. -/
def readObject (form : RecordForm σ α) : Reader α := fun s => do
  let (st, s) ← readMembers form.slot (s.length + 1) true form.start s
  match form.finish st with
  | .ok x => do
    let s ← closeObject s
    .ok (x, s)
  | .error cause => .error (.here cause (refusalRest s))

/-- The record of a list or an object. -/
def read (form : RecordForm σ α) : Reader α := fun s =>
  match skipBlanks s with
  | [] => .error (.here .eofInValue [])
  | c :: t =>
    if c = '[' then form.readList t
    else if c = '{' then form.readObject t
    else .error (mismatch form.title (c :: t))

/-- The record of an object; a list is not accepted. -/
def readObjectOnly (form : RecordForm σ α) : Reader α := fun s =>
  match skipBlanks s with
  | [] => .error (.here .eofInValue [])
  | c :: t =>
    if c = '{' then form.readObject t else .error (mismatch form.title (c :: t))

end RecordForm

/-! ## Records of scalars -/

/-- The kinds of scalar fields. -/
inductive Scalar where
  | text
  | integer
  deriving DecidableEq

/-- The values of a scalar field. -/
def Scalar.Carrier : Scalar → Type
  | .text => String
  | .integer => Int64

namespace Scalar

instance (k : Scalar) : DecidableEq k.Carrier :=
  match k with
  | .text => inferInstanceAs (DecidableEq String)
  | .integer => inferInstanceAs (DecidableEq Int64)

def read : (k : Scalar) → Reader k.Carrier
  | .text => readStringValue
  | .integer => readInt64

def ofTree? : (k : Scalar) → Json → Option k.Carrier
  | .text => Json.string?
  | .integer => Json.int64?

def toJson : (k : Scalar) → k.Carrier → Json
  | .text => fun s => .string s
  | .integer => fun n => Json.int64 n

end Scalar

/-- The fields of a record, as a finite type with a name and a kind for each. A field that
is not required may be missing or null. -/
structure Fields (ι : Type) where
  title : String
  all : List ι
  name : ι → String
  kind : ι → Scalar
  required : ι → Bool

namespace Fields

variable {ι : Type} [DecidableEq ι]

/-- The values of the fields; a field without a value is missing or null. -/
abbrev Values (F : Fields ι) : Type := (i : ι) → Option (F.kind i).Carrier

/-- The fields seen so far, with their values. -/
abbrev Seen (F : Fields ι) : Type := (i : ι) → Option (Option (F.kind i).Carrier)

def Seen.empty (F : Fields ι) : F.Seen := fun _ => none

def Seen.set {F : Fields ι} (seen : F.Seen) (i : ι) (x : Option (F.kind i).Carrier) : F.Seen :=
  fun j => if h : j = i then some (h ▸ x) else seen j

/-- The field of a name. -/
def field? (F : Fields ι) (name : String) : Option ι :=
  F.all.find? fun i => F.name i = name

/-- The value of a field: null only where it is not required. -/
def readField (F : Fields ι) (i : ι) : Reader (Option (F.kind i).Carrier) := fun s =>
  if F.required i then do
    let (x, s) ← (F.kind i).read s
    .ok (some x, s)
  else readOptional (F.kind i).read s

/-- Reads a field into what has been seen. -/
def readInto (F : Fields ι) (i : ι) (seen : F.Seen) : Reader F.Seen := fun s => do
  let (x, s) ← F.readField i s
  .ok (seen.set i x, s)

/-- Unknown names are passed over, known ones may not be repeated. -/
def slot (F : Fields ι) (seen : F.Seen) (name : String) : Slot F.Seen :=
  match F.field? name with
  | none => .ignore
  | some i =>
    if (seen i).isSome then .refuse (.duplicateField name) else .take (F.readInto i seen)

/-- All required fields have been seen. -/
def finish (F : Fields ι) (seen : F.Seen) : Except Cause F.Values :=
  match F.all.find? fun i => F.required i && (seen i).isNone with
  | some i => .error (.missingField (F.name i))
  | none => .ok fun i => (seen i).join

/-- How the record is read. -/
def form (F : Fields ι) : RecordForm F.Seen F.Values where
  title := F.title
  start := Seen.empty F
  slot := F.slot
  elements := F.all.map fun i seen => F.readInto i seen
  finish := F.finish

/-- The record of a text. -/
def read (F : Fields ι) : Reader F.Values := F.form.read

/-! ## Records in trees -/

/-- The value of a field in a tree. -/
def fieldOfTree? (F : Fields ι) (i : ι) (v : Json) : Option (Option (F.kind i).Carrier) :=
  if F.required i then ((F.kind i).ofTree? v).map some
  else
    match v with
    | .null => some none
    | v => ((F.kind i).ofTree? v).map some

/-- The members of an object. -/
def ofMembers? (F : Fields ι) : F.Seen → List (String × Json) → Option F.Seen
  | seen, [] => some seen
  | seen, (name, v) :: members =>
    match F.field? name with
    | none => ofMembers? F seen members
    | some i =>
      if (seen i).isSome then none
      else (F.fieldOfTree? i v).bind fun x => ofMembers? F (seen.set i x) members

/-- The elements of a list; the last `mayOmit` fields may be missing. -/
def ofItems? (F : Fields ι) (mayOmit : Nat) : List ι → F.Seen → List Json → Option F.Seen
  | [], seen, [] => some seen
  | [], _, _ :: _ => none
  | i :: fields, seen, [] => if (i :: fields).length ≤ mayOmit then some seen else none
  | i :: fields, seen, v :: items =>
    (F.fieldOfTree? i v).bind fun x => ofItems? F mayOmit fields (seen.set i x) items

/-- The record of a tree. -/
def ofTree? (F : Fields ι) (mayOmit : Nat) (v : Json) : Option F.Values :=
  match v with
  | .object members => (F.ofMembers? (Seen.empty F) members).bind fun x => (F.finish x).toOption
  | .array items => (F.ofItems? mayOmit F.all (Seen.empty F) items).bind fun x =>
      (F.finish x).toOption
  | _ => none

/-! ## Records as JSON -/

/-- The members of a record in field order, with null for missing values. -/
def members (F : Fields ι) (values : F.Values) : List (String × Json) :=
  F.all.map fun i => (F.name i, Json.optional (F.kind i).toJson (values i))

end Fields

end DbInventory.Json
