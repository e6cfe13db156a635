/-
# DbInventory.Api.Page -- results in pages

Long results come page by page. A page tells how many entries there are in all, or does not;
a page that is not full is the last, and so is one that reaches the total. The walk over the
pages asks for one offset after the other. Its budget is the number of offsets that fit an
unsigned word, so it ends in any case.
-/

import DbInventory.Instance.Basic

namespace DbInventory

/-- A part of a result, and how many entries the whole has. -/
structure Page (α : Type) where
  total : Option UInt64
  entries : List α
  deriving DecidableEq

namespace Page

/-- No page follows this one, which was asked for at an offset. -/
def isLast (page : Page α) (offset limit : Nat) : Bool :=
  page.entries.length < limit ||
    match page.total with
    | none => false
    | some total => total.toNat ≤ offset + page.entries.length

/-- The entries of all pages from an offset on. The first failure ends the walk, and so does
an exhausted budget. -/
def collect (limit : Nat) (fetch : Nat → τ → Except ε (Page α) × τ) (exhausted : ε) :
    (budget offset : Nat) → τ → Except ε (List α) × τ
  | 0, _, s => (.error exhausted, s)
  | budget + 1, offset, s =>
    match fetch offset s with
    | (.error e, s) => (.error e, s)
    | (.ok page, s) =>
      if page.isLast offset limit then (.ok page.entries, s)
      else
        match collect limit fetch exhausted budget (offset + limit) s with
        | (.error e, s) => (.error e, s)
        | (.ok entries, s) => (.ok (page.entries ++ entries), s)

/-- How many pages there are before offsets leave the unsigned words. -/
def budget (limit : Nat) : Nat := UInt64.size / limit

/-- The entries of all pages. -/
def collectAll (limit : Nat) (fetch : Nat → τ → Except ε (Page α) × τ) (exhausted : ε) (s : τ) :
    Except ε (List α) × τ :=
  collect limit fetch exhausted (budget limit) 0 s

/-! ## Decoding -/

/-- The one value of a name, if there is one; repeated names have none. -/
def single? (members : List (String × β)) (name : String) : Option (Option β) :=
  match members.filter (·.1 = name) with
  | [] => some none
  | [m] => some (some m.2)
  | _ => none

/-- A missing total is null. -/
def decodeTotal : Option Json → Option (Option UInt64)
  | none => some none
  | some .null => some none
  | some v => v.uint64?.map some

/-- A missing list is empty. -/
def decodeEntries (entry : Json → Option α) : Option Json → Option (List α)
  | none => some []
  | some (.array items) => items.mapM entry
  | some _ => none

/-- A page from the members of a response. -/
def ofMembers? (listName : String) (entry : Json → Option α) (members : List (String × Json)) :
    Option (Page α) := do
  let total ← decodeTotal (← single? members "TotalCount")
  let entries ← decodeEntries entry (← single? members listName)
  some { total, entries }

end Page

/-- A page of instances. -/
def instancePage? (members : List (String × Json)) : Option (Page DbInstance) :=
  Page.ofMembers? "DBInstances" DbInstance.ofTree? members

/-! ## Tags -/

/-- A tag, and the resource it belongs to, if that is told. -/
structure ResourceTag where
  key : String
  value : String
  resourceId : Option String
  deriving DecidableEq

namespace ResourceTag

inductive Field where
  | key
  | value
  | resourceId
  deriving DecidableEq

def fields : Json.Fields Field where
  title := "struct TagResource"
  all := [.key, .value, .resourceId]
  name
    | .key => "TagKey"
    | .value => "TagValue"
    | .resourceId => "ResourceId"
  kind _ := .text
  required
    | .key => true
    | .value => true
    | .resourceId => false

/-- The tag of a tree; in the list form the resource may be missing. -/
def ofTree? (v : Json) : Option ResourceTag :=
  (fields.ofTree? 1 v).map fun f =>
    ⟨(f .key).getD "", (f .value).getD "", f .resourceId⟩

/-- The tag belongs to a resource, or to none that is told. -/
def isOf (t : ResourceTag) (resourceId : String) : Bool :=
  match t.resourceId with
  | none => true
  | some id => id = resourceId

end ResourceTag

/-- A page of tags. -/
def tagPage? (members : List (String × Json)) : Option (Page ResourceTag) :=
  Page.ofMembers? "Tags" ResourceTag.ofTree? members

/-- The tags of a resource; of those with one key the last counts. -/
def tagsOfResource (resourceId : String) (tags : List ResourceTag) : Dict String :=
  .ofList ((tags.filter (·.isOf resourceId)).map fun t => (t.key, t.value))

end DbInventory
