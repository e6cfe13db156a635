/-
# DbInventory.Proofs.Api.Holding -- every list has a faithful server

A result is wrapped as a server does it: its members make the response, the response makes the
reply, and the body is the text of it. If the text keeps the members, the reply is decoded as
they are (`HttpReply.outcome_ofMembers`), and every page of entries that survive their trees
comes out of its reply (`Page.outcome_reply`). A server that holds a list replies with the page
at the offset that a request tells. It is faithful whatever it tells as the totals
(`holding_serves`), provided that the requests of two offsets differ.
-/

import DbInventory.Proofs.Api.Pages
import DbInventory.Proofs.Api.Serving
import DbInventory.Proofs.Json.RoundTrip
import DbInventory.Proofs.Text.Utf8

namespace DbInventory

open Json (Kept memberTexts? readAll)
open Envelope (memberDepth responseText?)

variable {α : Type} {members : List (String × Json)} {action listName : String}

/-! ## Responses -/

/-- The tree of an object is read off the texts of its members. -/
theorem Json.exists_memberTexts_of_object {depth : Nat} {text : String}
    (h : readAll (Json.readTree (depth + 1)) text = .ok (.object members)) :
    ∃ ms, memberTexts? text = some ms ∧
      List.Forall₂ (fun m w => m.1 = w.1 ∧ readAll (Json.readTree depth) m.2 = .ok w.2)
        ms members := by
  rcases Json.readAll_readTree_succ_iff.1 h with hscalar | ⟨-, items, -, hv, -⟩ |
    ⟨ms, members', hms, hv, hall⟩
  · obtain ⟨rest, hs, -⟩ := hscalar
    generalize Json.skipBlanks text.toList = s at hs
    cases hs
  · cases hv
  · obtain rfl := Json.object.inj hv
    exact ⟨ms, hms, hall⟩

/-- A reply with the members of a result, and nothing else. -/
def responseJson (members : List (String × Json)) : Json :=
  .object [("Response", .object members)]

/-- Members of a result: they have other names than the error and the identifier, and their
values are kept by their texts. -/
structure IsResult (members : List (String × Json)) : Prop where
  name : ∀ m ∈ members, m.1 ≠ "Error" ∧ m.1 ≠ "RequestId"
  kept : ∀ m ∈ members, Kept memberDepth m.2

/-- **The text of a response is read as its members.** -/
theorem IsResult.ofText_responseJson (h : IsResult members) :
    Envelope.ofText (responseJson members).compactText = .ok ⟨none, none, members⟩ := by
  have hresponse : Kept (memberDepth + 1) (.object members) := .object h.kept
  have hreply : Kept (memberDepth + 2) (responseJson members) := by
    refine .object fun m hm => ?_
    rw [List.mem_singleton.1 hm]
    exact hresponse
  -- one object around the other, and the texts of the members inside
  have htext : readAll (Json.readTree (memberDepth + 2)) (responseJson members).compactText =
      .ok (responseJson members) := hreply.readAll_text trivial
  obtain ⟨texts, htexts, hall⟩ := Json.exists_memberTexts_of_object htext
  obtain ⟨⟨name, response⟩, rfl, hname, hread⟩ : ∃ m, texts = [m] ∧ m.1 = "Response" ∧
      readAll (Json.readTree (memberDepth + 1)) m.2 = .ok (.object members) := by
    cases hall with
    | cons hm hrest =>
      cases hrest
      exact ⟨_, rfl, hm⟩
  obtain rfl : name = "Response" := hname
  obtain ⟨ms, hms, htrees⟩ := Json.exists_memberTexts_of_object hread
  have hnames : ∀ m ∈ ms, m.1 ≠ "Error" ∧ m.1 ≠ "RequestId" := by
    have hsame : ms.map Prod.fst = members.map Prod.fst := by
      rw [← List.forall₂_eq_eq_eq, List.forall₂_map_left_iff, List.forall₂_map_right_iff]
      exact htrees.imp fun _ _ hm => hm.1
    intro m hm
    have hmem : m.1 ∈ members.map Prod.fst := hsame ▸ List.mem_map_of_mem hm
    obtain ⟨w, hw, hname⟩ := List.mem_map.1 hmem
    rw [← hname]
    exact h.name w hw
  have hresult : ms.filter Envelope.isResult = ms := by
    rw [List.filter_eq_self]
    intro m hm
    simpa [Envelope.isResult] using hnames m hm
  have hnone : ∀ name, (∀ m ∈ ms, m.1 ≠ name) → Page.single? ms name = some none := by
    intro name hother
    rw [← List.nil_append ms, Page.single?_append hother, Page.single?_nil]
  refine Envelope.ofText_eq_ok_iff.2 ⟨response, ?_, ?_⟩
  · simp [responseText?, htexts, Page.single?]
  · refine Envelope.readAll_responseForm_iff.2 ⟨ms, none, none, hms, .inl ⟨?_, rfl⟩,
      .inl ⟨?_, rfl⟩, by rwa [hresult], rfl, rfl⟩
    · exact hnone "Error" fun m hm => (hnames m hm).1
    · exact hnone "RequestId" fun m hm => (hnames m hm).2

/-! ## Replies -/

/-- A reply that went well, with the members of a result. -/
def HttpReply.ofMembers (members : List (String × Json)) : HttpReply where
  status := 200
  body := Text.utf8 (responseJson members).compactText

theorem HttpReply.text_ofMembers (members : List (String × Json)) :
    (HttpReply.ofMembers members).text = (responseJson members).compactText := by
  -- the text begins with a brace, which is no byte order mark
  refine Text.decodeMarkedUtf8_utf8 ?_
  rw [Json.compactText, Json.text, String.toList_ofList, responseJson]
  simp [Json.textAt]

/-- **A result that is wrapped in a reply comes out of it.** -/
theorem HttpReply.outcome_ofMembers {x : α} {decode : List (String × Json) → Option α}
    (h : IsResult members) (hx : decode members = some x) :
    (HttpReply.ofMembers members).outcome action decode = .ok x := by
  rw [outcome_eq_ok_iff, text_ofMembers]
  exact ⟨⟨none, none, members⟩, h.ofText_responseJson, rfl, hx⟩

/-! ## Pages -/

namespace Page

/-- The members of a page; a total that is not told is null. -/
def toMembers (listName : String) (entryJson : α → Json) (page : Page α) : List (String × Json) :=
  [("TotalCount", Json.optional Json.uint64 page.total),
    (listName, .array (page.entries.map entryJson))]

/-- The reply of a page. -/
def reply (listName : String) (entryJson : α → Json) (page : Page α) : HttpReply :=
  .ofMembers (page.toMembers listName entryJson)

variable {entryJson : α → Json} {decode : Json → Option α} {n : Nat}

theorem decodeTotal_optional (total : Option UInt64) :
    decodeTotal (some (Json.optional Json.uint64 total)) = some total := by
  cases total with
  | none => rfl
  | some n => exact congrArg (Option.map some) (WordInt.toUInt64?_ofUInt64 n)

theorem decodeEntries_map (hdecode : ∀ x, decode (entryJson x) = some x) (entries : List α) :
    decodeEntries decode (some (.array (entries.map entryJson))) = some entries := by
  refine mapM_eq_some_iff.2 ?_
  rw [List.forall₂_map_left_iff, List.forall₂_same]
  exact fun x _ => hdecode x

theorem ofMembers?_toMembers (hlist : listName ≠ "TotalCount")
    (hdecode : ∀ x, decode (entryJson x) = some x) (page : Page α) :
    ofMembers? listName decode (page.toMembers listName entryJson) = some page := by
  refine ofMembers?_eq_some_iff.2
    ⟨⟨_, ?_, decodeTotal_optional page.total⟩, _, ?_, decodeEntries_map hdecode page.entries⟩
  · simp [toMembers, single?, hlist]
  · simp [toMembers, single?, hlist.symm]

/-- **Every page comes out of its reply.** -/
theorem outcome_reply
    (hlist : listName ≠ "TotalCount" ∧ listName ≠ "Error" ∧ listName ≠ "RequestId")
    (hkept : ∀ x, Kept (memberDepth - 1) (entryJson x))
    (hdecode : ∀ x, decode (entryJson x) = some x) (page : Page α) :
    (page.reply listName entryJson).outcome action (ofMembers? listName decode) = .ok page := by
  have hresult : IsResult (page.toMembers listName entryJson) := by
    constructor
    · intro m hm
      simp only [toMembers, List.mem_cons, List.not_mem_nil, or_false] at hm
      rcases hm with rfl | rfl
      · simp
      · exact hlist.2
    · intro m hm
      simp only [toMembers, List.mem_cons, List.not_mem_nil, or_false] at hm
      rcases hm with rfl | rfl
      · cases page.total with
        | none => exact .null
        | some n => exact .whole (.ofUInt64 n)
      · refine Kept.array fun v hv => ?_
        obtain ⟨x, -, rfl⟩ := List.mem_map.1 hv
        exact hkept x
  exact HttpReply.outcome_ofMembers hresult (ofMembers?_toMembers hlist.1 hdecode page)

end Page

/-! ## Servers -/

/-- A server that holds a list, and replies with the page at the offset that a request tells. -/
def holding (body : Nat → Json) (listName : String) (entryJson : α → Json) (limit : Nat)
    (L : List α) (total : Nat → Option UInt64) : Network Unit where
  now s := (1700000000, s)
  send request s :=
    let told := (List.range L.length).find? fun o =>
      request.body = Text.utf8 (body o).compactText
    let offset := told.getD L.length
    let page : Page α := ⟨total offset, (L.drop offset).take limit⟩
    (.ok (page.reply listName entryJson), s)

/-- **Every list has a faithful server**, whatever it tells as the totals. -/
theorem holding_serves {action : ApiAction} {body : Nat → Json} {entryJson : α → Json}
    {decode : Json → Option α} {limit : Nat} {L : List α} {total : Nat → Option UInt64}
    {allowed : Option UInt64 → Prop}
    (hlist : listName ≠ "TotalCount" ∧ listName ≠ "Error" ∧ listName ≠ "RequestId")
    (hkept : ∀ x, Kept (memberDepth - 1) (entryJson x))
    (hdecode : ∀ x, decode (entryJson x) = some x)
    (hbody : ∀ m n, m < UInt64.size → n < UInt64.size →
      (body m).compactText = (body n).compactText → m = n)
    (hlength : L.length < UInt64.size) (hallowed : ∀ o, allowed (total o)) :
    ServesPages (holding body listName entryJson limit L total) action body
      (Page.ofMembers? listName decode) limit L allowed := by
  intro offset request s hcarries
  refine ⟨_, _, rfl, Page.outcome_reply hlist hkept hdecode _, ?_, hallowed _⟩
  rw [hcarries.body]
  show (L.drop _).take limit = _
  cases htold : (List.range L.length).find? fun o =>
      decide (Text.utf8 (body offset.toNat).compactText = Text.utf8 (body o).compactText) with
  | some o =>
    -- the offset that is found is the one of the request
    have hfound := List.find?_some htold
    have ho : o < L.length := List.mem_range.1 (List.mem_of_find?_eq_some htold)
    obtain rfl : offset.toNat = o := hbody _ _ offset.toNat_lt (Nat.lt_trans ho hlength)
      (Text.utf8_injective (of_decide_eq_true hfound))
    rfl
  | none =>
    have hend : L.length ≤ offset.toNat := by
      by_contra hlt
      have hother := List.find?_eq_none.1 htold offset.toNat (List.mem_range.2 (by omega))
      exact hother (decide_eq_true rfl)
    rw [Option.getD_none, List.drop_length, List.drop_of_length_le hend]

end DbInventory
