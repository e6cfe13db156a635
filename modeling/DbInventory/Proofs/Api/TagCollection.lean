/-
# DbInventory.Proofs.Api.TagCollection -- the tags of a resource, from all pages

A server is asked for the tags of a resource and answers with entries of any resources, in
pages. What is collected is a map, and `IsLastTag` says what it holds: the value of the last
entry of a key among those that belong to the resource. Entries of other resources are left
out of the map only after the last page, so they count for the pages like all others
(`Client.tags_complete`). Every list of tags has a faithful server (`tagServer_serves`).
-/

import DbInventory.Proofs.Api.Completeness
import DbInventory.Proofs.Api.Records

namespace DbInventory

open Client (Carries Ready tagAction tagBody tagLimit)

variable {τ : Type} {c : Client} {net : Network τ} {query : TagQuery} {T : List ResourceTag}
  {id key value : String}

/-! ## The map of a list of tags -/

namespace ResourceTag

/-- The tag names the resource, or none. -/
def BelongsTo (t : ResourceTag) (id : String) : Prop :=
  t.resourceId = none ∨ t.resourceId = some id

theorem isOf_iff {t : ResourceTag} : t.isOf id = true ↔ t.BelongsTo id := by
  unfold isOf BelongsTo
  cases t.resourceId with
  | none => simp
  | some owner => simp

end ResourceTag

/-- The value is that of the last entry of a key among those that belong to a resource. -/
def IsLastTag (T : List ResourceTag) (id key value : String) : Prop :=
  ∃ before t after, T = before ++ t :: after ∧ t.BelongsTo id ∧ t.key = key ∧ t.value = value ∧
    ∀ u ∈ after, u.BelongsTo id → u.key ≠ key

theorem lookup_keyValues (l : List ResourceTag) (key : String) :
    (l.map fun t => (t.key, t.value)).lookup key =
      (l.find? (·.key == key)).map (·.value) := by
  induction l with
  | nil => rfl
  | cons t l ih =>
    rw [List.map_cons, Entries.lookup_cons, List.find?_cons]
    by_cases hkey : key = t.key
    · simp [hkey]
    · rw [if_neg hkey, beq_false_of_ne (Ne.symm hkey), ih]

/-- What the map of a resource holds under a key is found from the end of the list. -/
theorem get?_tagsOfResource (T : List ResourceTag) (id key : String) :
    (tagsOfResource id T).get? key =
      (T.reverse.find? fun t => t.isOf id && t.key == key).map (·.value) := by
  rw [tagsOfResource, Dict.get?_ofList, ← List.map_reverse, ← List.filter_reverse,
    lookup_keyValues, List.find?_filter]
  simp only [Bool.decide_and, Bool.decide_eq_true]

/-- **The map of a resource holds the last tags**, and nothing else. -/
theorem get?_tagsOfResource_eq_some_iff :
    (tagsOfResource id T).get? key = some value ↔ IsLastTag T id key value := by
  rw [get?_tagsOfResource, Option.map_eq_some_iff]
  constructor
  · rintro ⟨t, hfind, hvalue⟩
    obtain ⟨hown, after, before, hT, hafter⟩ := List.find?_eq_some_iff_append.1 hfind
    rw [Bool.and_eq_true, ResourceTag.isOf_iff, beq_iff_eq] at hown
    refine ⟨before.reverse, t, after.reverse, ?_, hown.1, hown.2, hvalue, ?_⟩
    · -- what stands in front in the reversed list stands behind in the list
      rw [← List.reverse_inj, hT]
      simp
    · intro u hu hof hkey
      have hnot := hafter u (List.mem_reverse.1 hu)
      simp [ResourceTag.isOf_iff.2 hof, hkey] at hnot
  · rintro ⟨before, t, after, rfl, hof, hkey, hvalue, hafter⟩
    refine ⟨t, List.find?_eq_some_iff_append.2 ⟨?_, after.reverse, before.reverse, ?_, ?_⟩, hvalue⟩
    · simp [ResourceTag.isOf_iff.2 hof, hkey]
    · simp
    · intro u hu
      have hnot := hafter u (List.mem_reverse.1 hu)
      rw [← ResourceTag.isOf_iff] at hnot
      cases hown : u.isOf id with
      | false => rfl
      | true => simpa using hnot hown

/-- A key that only other resources carry is not in the map. -/
theorem get?_tagsOfResource_eq_none_iff :
    (tagsOfResource id T).get? key = none ↔ ∀ t ∈ T, t.BelongsTo id → t.key ≠ key := by
  rw [get?_tagsOfResource, Option.map_eq_none_iff, List.find?_eq_none]
  constructor
  · intro h t ht hof hkey
    exact h t (List.mem_reverse.2 ht) (by simp [ResourceTag.isOf_iff.2 hof, hkey])
  · intro h t ht
    have hnot := h t (List.mem_reverse.1 ht)
    rw [← ResourceTag.isOf_iff] at hnot
    simpa using hnot

/-! ## Faithful servers of tags -/

namespace Client

/-- The members of a tag request that tell the resource. -/
def tagMembers (query : TagQuery) : List (String × Json) :=
  [("ServiceType", .string query.serviceType), ("ResourcePrefix", .string query.resourceType),
    ("ResourceIds", .array [.string query.resourceId]),
    ("ResourceRegion", .string query.region)]

theorem tagBody_eq (query : TagQuery) (offset : Nat) :
    tagBody query offset = .object (tagMembers query ++
      [("Offset", countJson offset), ("Limit", countJson tagLimit)]) := rfl

/-- What a look-up makes of the entries that it has collected. -/
theorem tags_of_collectAll {s s' : τ}
    (h : Page.collectAll tagLimit (c.tagPage net query) (exhausted tagAction) s = (.ok T, s')) :
    c.tags net query s = (.ok (tagsOfResource query.resourceId T), s') := by
  rw [tags, h]

end Client

/-- A faithful server of tags: whatever its state, it answers a request for an offset with the
slice of the list there, and with a total that is missing or does not fall short. -/
def ServesTags (net : Network τ) (query : TagQuery) (T : List ResourceTag) : Prop :=
  ServesPages net tagAction (tagBody query) tagPage? tagLimit T
    fun total => ∀ n ∈ total, T.length ≤ n.toNat

/-- **All tags of a resource are collected.** Against a faithful server a look-up gives the map
in which each key has the value of its last entry that belongs to the resource, and no other
key. The `k`-th request asks for 50 entries from `50 * k` on, and is otherwise like all others.
The page that answers it is the last one if the list, with the entries of other resources in
it, ends there or the total says so, and only then. -/
theorem Client.tags_complete (hready : c.Ready net tagAction)
    (hlength : T.length + 50 < UInt64.size) (hserver : ServesTags net query T) (s : τ) :
    ∃ tags s' exchanges,
      c.tags net query s = (.ok tags, s') ∧
      c.tags net.recorded query (s, []) = (.ok tags, s', exchanges) ∧
      (∀ key value, tags.get? key = some value ↔ IsLastTag T query.resourceId key value) ∧
      (∀ key, tags.get? key = none ↔
        ∀ t ∈ T, t.BelongsTo query.resourceId → t.key ≠ key) ∧
      exchanges ≠ [] ∧
      (∀ x ∈ exchanges, ∀ y ∈ exchanges, x.request.Alike y.request) ∧
      ∀ k x, exchanges[k]? = some x →
        Carries x.request tagAction (.object (tagMembers query ++
          [("Offset", .uint64 (.ofNat (50 * k))), ("Limit", .uint64 50)])) ∧
        ∃ reply page, x.answer = .ok reply ∧
          reply.outcome tagAction.name tagPage? = .ok page ∧
          page.entries = (T.drop (50 * k)).take 50 ∧
          (k + 1 = exchanges.length ↔
            T.length < 50 * (k + 1) ∨ ∃ n ∈ page.total, n.toNat ≤ 50 * (k + 1)) := by
  have hpages : T.length + tagLimit < UInt64.size := hlength
  obtain ⟨s', exchanges, hcollect, hrecorded, hpaged⟩ :=
    collectAll_of_serves hready (by decide) hpages hserver (fun _ h => h) (exhausted tagAction) s
  refine ⟨tagsOfResource query.resourceId T, s', exchanges, tags_of_collectAll hcollect,
    tags_of_collectAll hrecorded, ?_, ?_, hpaged.ne_nil, hpaged.alike, ?_⟩
  · intro key value
    exact get?_tagsOfResource_eq_some_iff
  · intro key
    exact get?_tagsOfResource_eq_none_iff
  · intro k x hk
    obtain ⟨hmakes, reply, page, hanswer, houtcome, hentries, -, hlast⟩ := hpaged.exchange k x hk
    simp only [Nat.mul_comm _ tagLimit] at hmakes hentries hlast
    exact ⟨hmakes.carries, reply, page, hanswer, houtcome, hentries, hlast⟩

/-! ### A server that holds tags -/

namespace ResourceTag

/-- A tag as an object of its fields; a missing resource is null. -/
def toJson (t : ResourceTag) : Json := .object (fields.members t.values)

theorem fields_proper : fields.Proper where
  field?_name := named_fields
  nodup_all := by decide

theorem complete_values (t : ResourceTag) : fields.Complete t.values := by
  intro i hrequired
  cases i with
  | key => rfl
  | value => rfl
  | resourceId => cases hrequired

theorem ofTree?_toJson (t : ResourceTag) : ofTree? t.toJson = some t := by
  have hmembers : fields.ofTree? 1 t.toJson = some t.values :=
    (complete_values t).ofTree?_members fields_proper
  rw [ofTree?, hmembers]
  rfl

theorem kept_toJson (t : ResourceTag) (n : Nat) : Json.Kept (n + 1) t.toJson := by
  refine .object fun m hm => ?_
  obtain ⟨i, -, rfl⟩ := List.mem_map.1 hm
  exact Json.kept_optional _ _ n

end ResourceTag

/-- A server that holds a list of tags. -/
def tagServer (query : TagQuery) (T : List ResourceTag) (total : Nat → Option UInt64) :
    Network Unit :=
  holding (tagBody query) "Tags" ResourceTag.toJson tagLimit T total

theorem tagServer_serves {total : Nat → Option UInt64} (hlength : T.length < UInt64.size)
    (htotal : ∀ o, ∀ n ∈ total o, T.length ≤ n.toNat) :
    ServesTags (tagServer query T total) query T := by
  refine holding_serves (by decide) (fun t => t.kept_toJson _) ResourceTag.ofTree?_toJson ?_
    hlength htotal
  intro m n hm hn h
  rw [Client.tagBody_eq, Client.tagBody_eq] at h
  exact Client.offset_eq_of_compactText hm hn h

/-- The question for the tags of an instance. -/
def usualQuery : TagQuery := ⟨"sqlserver", "instance", "ap-guangzhou", "mssql-1"⟩

/-- A tag of that instance, and one of another instance with the same key. -/
def ownTag : ResourceTag := ⟨"env", "test", some "mssql-1"⟩

def otherTag : ResourceTag := ⟨"env", "prod", some "mssql-2"⟩

/-- A page full of tags of the other instance, the own one behind it and another one at the
end. -/
def mixedTags : List ResourceTag := List.replicate 50 otherTag ++ [ownTag, otherTag]

/-- The address that the usual client sends look-ups of tags to. -/
def tagUrl : Url where
  scheme := "https"
  username := ""
  password := none
  host := some (.domain "tag.tencentcloudapi.com")
  port := none
  path := "/"
  query := none
  fragment := none

theorem usualClient_tagAddress :
    usualClient.address "tag" = .ok (tagUrl, "tag.tencentcloudapi.com") :=
  toOption_eq_some_iff.1 (by decide +kernel)

theorem usualClient_tagReady (hclock : ∀ s, (net.now s).1 = 1700000000) :
    usualClient.Ready net tagAction where
  address := ⟨tagUrl, _, usualClient_tagAddress, by decide +kernel⟩
  action := by decide
  secretId := by decide
  region := by decide
  token := by simp [usualClient]
  clock s := by rw [hclock s]; decide

/-- The tags of the other instance do not count, but they fill the first page. -/
theorem tags_complete_mixedTags :
    usualClient.Ready (tagServer usualQuery mixedTags fun _ => none) tagAction ∧
    mixedTags.length + 50 < UInt64.size ∧
    ServesTags (tagServer usualQuery mixedTags fun _ => none) usualQuery mixedTags ∧
    ∃ tags s' exchanges,
      usualClient.tags (tagServer usualQuery mixedTags fun _ => none).recorded usualQuery
        ((), []) = (.ok tags, s', exchanges) ∧
      tags.get? "env" = some "test" ∧ exchanges.length ≤ 2 := by
  have hready : usualClient.Ready (tagServer usualQuery mixedTags fun _ => none) tagAction :=
    usualClient_tagReady fun _ => rfl
  have hserves : ServesTags (tagServer usualQuery mixedTags fun _ => none) usualQuery mixedTags :=
    tagServer_serves (by decide) (by simp)
  refine ⟨hready, by decide, hserves, ?_⟩
  obtain ⟨tags, s', exchanges, -, hrecorded, htags, -, -, -, hexchanges⟩ :=
    Client.tags_complete hready (by decide) hserves ()
  refine ⟨tags, s', exchanges, hrecorded, ?_, ?_⟩
  · refine (htags "env" "test").2 ⟨List.replicate 50 otherTag, ownTag, [otherTag], rfl, Or.inr rfl,
      rfl, rfl, ?_⟩
    intro u hu hof
    obtain rfl := List.mem_singleton.1 hu
    rcases hof with h | h
    · exact absurd h (by decide)
    · exact absurd h (by decide)
  · -- a second exchange is the last one
    by_contra hmore
    obtain ⟨-, reply, page, -, -, -, hlast⟩ :=
      hexchanges 1 _ (List.getElem?_eq_getElem (by omega))
    have htwo := hlast.2 (Or.inl (by decide))
    omega

end DbInventory
