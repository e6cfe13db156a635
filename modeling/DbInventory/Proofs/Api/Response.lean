/-
# DbInventory.Proofs.Api.Response -- replies, read by the texts of their members

A reply is its response, and a response is its members. `responseText?` cuts the response out of
a reply, and `readAll_responseForm_iff` says what each of its members counts for: the error and
the identifier are given at most once, and of all others there is a tree. A name that is given
at most once does not depend on the order of the members, nor on members of other names
(`Page.single?_perm`, `Page.single?_append`).
-/

import DbInventory.Api.Envelope
import DbInventory.Api.Page
import DbInventory.Proofs.Json.Fields

namespace DbInventory

open Json (Reader Readable ReadsValue AllTaken ReadMemberText ReadMemberTexts ReadItemTexts
  memberTexts? itemTexts? readAll readAll_map_iff)

/-! ## Names given at most once -/

namespace Page

variable {β γ : Type} {ms ms' : List (String × β)} {m : String × β} {name : String} {x : β}

@[simp]
theorem single?_nil : single? ([] : List (String × β)) name = some none := rfl

theorem single?_cons_of_ne (h : m.1 ≠ name) : single? (m :: ms) name = single? ms name := by
  rw [single?, single?, List.filter_cons_of_neg (by simpa using h)]

/-- One more member of a name: there was none. -/
theorem single?_cons_self_iff {y : Option β} :
    single? ((name, x) :: ms) name = some y ↔ single? ms name = some none ∧ y = some x := by
  unfold single?
  rw [List.filter_cons_of_pos (by simp)]
  generalize ms.filter (·.1 = name) = l
  rcases l with _ | ⟨a, _ | ⟨b, l⟩⟩
  · simp [eq_comm]
  · simp
  · simp

/-- A member of a name given once is that one. -/
theorem single?_of_mem {y : Option β} (hm : m ∈ ms) (h : single? ms m.1 = some y) :
    y = some m.2 := by
  have hmem : m ∈ ms.filter (·.1 = m.1) := List.mem_filter.2 ⟨hm, by simp⟩
  unfold single? at h
  generalize ms.filter (·.1 = m.1) = l at h hmem
  rcases l with _ | ⟨a, _ | ⟨b, l⟩⟩
  · cases hmem
  · obtain rfl := List.mem_singleton.1 hmem
    exact (Option.some.inj h).symm
  · cases h

theorem single?_perm (h : ms.Perm ms') : single? ms name = single? ms' name := by
  have hfilter := h.filter (·.1 = name)
  unfold single?
  generalize ms.filter (·.1 = name) = l at hfilter ⊢
  generalize ms'.filter (·.1 = name) = l' at hfilter ⊢
  rcases l with _ | ⟨a, _ | ⟨b, l⟩⟩
  · rw [hfilter.nil_eq]
  · rw [List.perm_singleton.1 hfilter.symm]
  · rcases l' with _ | ⟨a', _ | ⟨b', l'⟩⟩
    · cases hfilter.eq_nil
    · cases List.perm_singleton.1 hfilter
    · rfl

theorem single?_append {ns : List (String × β)} (h : ∀ m ∈ ns, m.1 ≠ name) :
    single? (ms ++ ns) name = single? ms name := by
  have hnone : ns.filter (·.1 = name) = [] := by simpa using h
  rw [single?, single?, List.filter_append, hnone, List.append_nil]

/-- Members that correspond are given at most once alike. -/
theorem single?_rel {R : String × β → String × γ → Prop} {ns : List (String × γ)}
    (hname : ∀ m n, R m n → m.1 = n.1) (h : List.Forall₂ R ms ns) (name : String) :
    Option.Rel (Option.Rel fun x y => R (name, x) (name, y)) (single? ms name)
      (single? ns name) := by
  have hfilter : List.Forall₂ (fun m n => R m n ∧ m.1 = name) (ms.filter (·.1 = name))
      (ns.filter (·.1 = name)) := by
    induction h with
    | nil => exact .nil
    | @cons m n ms ns hmn _ ih =>
      have hsame := hname m n hmn
      by_cases hm : m.1 = name
      · rw [List.filter_cons_of_pos (by simpa using hm),
          List.filter_cons_of_pos (by simpa using hsame ▸ hm)]
        exact .cons ⟨hmn, hm⟩ ih
      · rw [List.filter_cons_of_neg (by simpa using hm),
          List.filter_cons_of_neg (by simpa using hsame ▸ hm)]
        exact ih
  unfold single?
  generalize ms.filter (·.1 = name) = l at hfilter ⊢
  generalize ns.filter (·.1 = name) = l' at hfilter ⊢
  cases hfilter with
  | nil => exact .some .none
  | @cons m n l l' hmn hrest =>
    cases hrest with
    | nil =>
      obtain ⟨a, x⟩ := m
      obtain ⟨b, y⟩ := n
      obtain ⟨hmn, rfl⟩ := hmn
      obtain rfl : a = b := hname _ _ hmn
      exact .some (.some hmn)
    | cons => exact .none

/-- Only the members of a name matter to it. -/
theorem single?_filter {p : String × β → Bool} (h : ∀ m, m.1 = name → p m = true) :
    single? (ms.filter p) name = single? ms name := by
  have hfilter : (ms.filter p).filter (·.1 = name) = ms.filter (·.1 = name) := by
    rw [List.filter_filter]
    refine List.filter_congr fun m _ => ?_
    by_cases hm : m.1 = name
    · simp [hm, h m hm]
    · simp [hm]
  rw [single?, single?, hfilter]

end Page

/-! ## Members read at most once -/

/-- Reading the members of a name, of which there may be one: its value is read unless it has
been read before. -/
def ReadOnce {α : Type} (r : Reader α) (name : String) (ms : List (String × String)) :
    Option α → Option α → Prop
  | some x, after => Page.single? ms name = some none ∧ after = some x
  | none, after =>
    (Page.single? ms name = some none ∧ after = none) ∨
      ∃ text x, Page.single? ms name = some (some text) ∧ readAll r text = .ok x ∧ after = some x

section ReadOnce

variable {α : Type} {r : Reader α} {name : String} {m : String × String}
  {ms : List (String × String)} {before after : Option α}

theorem readOnce_nil : ReadOnce r name [] before after ↔ before = after := by
  cases before <;> simp [ReadOnce, eq_comm]

theorem readOnce_cons_of_ne (h : m.1 ≠ name) :
    ReadOnce r name (m :: ms) before after ↔ ReadOnce r name ms before after := by
  cases before <;> simp [ReadOnce, Page.single?_cons_of_ne h]

theorem readOnce_cons_self (h : m.1 = name) :
    ReadOnce r name (m :: ms) before after ↔
      before = none ∧ ∃ x, readAll r m.2 = .ok x ∧ ReadOnce r name ms (some x) after := by
  obtain ⟨name', text⟩ := m
  obtain rfl : name' = name := h
  cases before with
  | some y => simp [ReadOnce, Page.single?_cons_self_iff]
  | none =>
    simp only [ReadOnce, Page.single?_cons_self_iff, reduceCtorEq, and_false, false_and, false_or,
      true_and, Option.some.injEq]
    constructor
    · rintro ⟨_, x, ⟨hnone, rfl⟩, hread, rfl⟩
      exact ⟨x, hread, hnone, rfl⟩
    · rintro ⟨x, hread, hnone, rfl⟩
      exact ⟨text, x, ⟨hnone, rfl⟩, hread, rfl⟩

end ReadOnce

/-! ## Responses -/

namespace Envelope

theorem readsValue_readError : ReadsValue (Json.readOptional ReplyError.reader) := by
  apply Json.readsValue_readOptional
  exact ReplyError.fields.readsValue_read.map
    (f := fun f => (⟨(f .code).getD "", (f .text).getD ""⟩ : ReplyError))

theorem readsValue_readRequestId : ReadsValue (Json.readOptional Json.readStringValue) :=
  Json.readsValue_readOptional (Json.readsValue_scalar .text)

theorem allTaken_slot : AllTaken slot := by
  intro seen name value hslot
  unfold slot at hslot
  by_cases herror : name = "Error"
  · cases hseen : seen.error with
    | some e => simp [herror, hseen] at hslot
    | none =>
      simp only [if_pos herror, hseen, Option.isSome_none, Bool.false_eq_true, if_false] at hslot
      obtain rfl := Json.Slot.take.inj hslot
      exact readsValue_readError.map fun error => { seen with error := some error }
  · by_cases hid : name = "RequestId"
    · cases hseen : seen.requestId with
      | some id => simp [hid, hseen] at hslot
      | none =>
        simp only [if_neg herror, if_pos hid, hseen, Option.isSome_none, Bool.false_eq_true,
          if_false] at hslot
        obtain rfl := Json.Slot.take.inj hslot
        exact readsValue_readRequestId.map fun requestId =>
          { seen with requestId := some requestId }
    · simp only [if_neg herror, if_neg hid] at hslot
      obtain rfl := Json.Slot.take.inj hslot
      exact (Json.readsValue_readTree memberDepth).map fun v =>
        { seen with members := (name, v) :: seen.members }

/-- The members that belong to the result. -/
def isResult (m : String × String) : Bool := m.1 ≠ "Error" && m.1 ≠ "RequestId"

/-- Members whose trees are given. -/
def HaveTrees (ms : List (String × String)) (members : List (String × Json)) : Prop :=
  List.Forall₂ (fun m w => m.1 = w.1 ∧ readAll (Json.readTree memberDepth) m.2 = .ok w.2) ms members

variable {text : String} {ms : List (String × String)} {seen seen' : Seen}

theorem readMemberText_error_iff {m : String × String} (h : m.1 = "Error") :
    ReadMemberText slot seen m seen' ↔
      seen.error = none ∧ ∃ e, readAll (Json.readOptional ReplyError.reader) m.2 = .ok e ∧
        seen' = { seen with error := some e } := by
  have hread : readAll (readError seen) m.2 = .ok seen' ↔
      ∃ e, readAll (Json.readOptional ReplyError.reader) m.2 = .ok e ∧
        seen' = { seen with error := some e } :=
    readAll_map_iff (f := fun e => { seen with error := some e })
  unfold ReadMemberText slot
  cases hseen : seen.error <;> simp [h, ← hread]

theorem readMemberText_requestId_iff {m : String × String} (h : m.1 = "RequestId") :
    ReadMemberText slot seen m seen' ↔
      seen.requestId = none ∧ ∃ id, readAll (Json.readOptional Json.readStringValue) m.2 = .ok id ∧
        seen' = { seen with requestId := some id } := by
  have hread : readAll (readRequestId seen) m.2 = .ok seen' ↔
      ∃ id, readAll (Json.readOptional Json.readStringValue) m.2 = .ok id ∧
        seen' = { seen with requestId := some id } :=
    readAll_map_iff (f := fun id => { seen with requestId := some id })
  unfold ReadMemberText slot
  cases hseen : seen.requestId <;> simp [h, ← hread]

theorem readMemberText_result_iff {m : String × String} (h : isResult m = true) :
    ReadMemberText slot seen m seen' ↔
      ∃ v, readAll (Json.readTree memberDepth) m.2 = .ok v ∧
        seen' = { seen with members := (m.1, v) :: seen.members } := by
  have hread : readAll (readMember seen m.1) m.2 = .ok seen' ↔
      ∃ v, readAll (Json.readTree memberDepth) m.2 = .ok v ∧
        seen' = { seen with members := (m.1, v) :: seen.members } :=
    readAll_map_iff (f := fun v => { seen with members := (m.1, v) :: seen.members })
  have hne : m.1 ≠ "Error" ∧ m.1 ≠ "RequestId" := by simpa [isResult] using h
  unfold ReadMemberText slot
  simp [hne, ← hread]

/-- **The members of a response**: the error and the identifier at most once, and a tree for
each of the others. -/
structure PartsRead (seen : Seen) (ms : List (String × String)) (seen' : Seen) : Prop where
  error : ReadOnce (Json.readOptional ReplyError.reader) "Error" ms seen.error seen'.error
  requestId : ReadOnce (Json.readOptional Json.readStringValue) "RequestId" ms seen.requestId
    seen'.requestId
  trees : ∃ members, seen'.members = members.reverse ++ seen.members ∧
    HaveTrees (ms.filter isResult) members

theorem partsRead_nil : PartsRead seen [] seen' ↔ seen = seen' := by
  obtain ⟨e, i, l⟩ := seen
  obtain ⟨e', i', l'⟩ := seen'
  constructor
  · rintro ⟨herror, hid, members, hmembers, htrees⟩
    obtain rfl := readOnce_nil.1 herror
    obtain rfl := readOnce_nil.1 hid
    cases htrees
    obtain rfl : l' = l := hmembers
    rfl
  · intro h
    cases h
    exact ⟨readOnce_nil.2 rfl, readOnce_nil.2 rfl, [], rfl, .nil⟩

variable {m : String × String}

/-- An error counts for no other part. -/
theorem partsRead_cons_error (h : m.1 = "Error") :
    PartsRead seen (m :: ms) seen' ↔
      ∃ seen₁, ReadMemberText slot seen m seen₁ ∧ PartsRead seen₁ ms seen' := by
  have hid : m.1 ≠ "RequestId" := by simp [h]
  have hresult : ¬isResult m = true := by simp [isResult, h]
  simp only [readMemberText_error_iff h]
  constructor
  · rintro ⟨herror, hids, htrees⟩
    obtain ⟨hseen, e, he, herror⟩ := (readOnce_cons_self h).1 herror
    rw [List.filter_cons_of_neg hresult] at htrees
    exact ⟨_, ⟨hseen, e, he, rfl⟩, herror, (readOnce_cons_of_ne hid).1 hids, htrees⟩
  · rintro ⟨_, ⟨hseen, e, he, rfl⟩, herror, hids, htrees⟩
    refine ⟨(readOnce_cons_self h).2 ⟨hseen, e, he, herror⟩, (readOnce_cons_of_ne hid).2 hids, ?_⟩
    rwa [List.filter_cons_of_neg hresult]

/-- An identifier counts for no other part. -/
theorem partsRead_cons_requestId (h : m.1 = "RequestId") :
    PartsRead seen (m :: ms) seen' ↔
      ∃ seen₁, ReadMemberText slot seen m seen₁ ∧ PartsRead seen₁ ms seen' := by
  have herror : m.1 ≠ "Error" := by simp [h]
  have hresult : ¬isResult m = true := by simp [isResult, h]
  simp only [readMemberText_requestId_iff h]
  constructor
  · rintro ⟨herrors, hid, htrees⟩
    obtain ⟨hseen, id, hread, hid⟩ := (readOnce_cons_self h).1 hid
    rw [List.filter_cons_of_neg hresult] at htrees
    exact ⟨_, ⟨hseen, id, hread, rfl⟩, (readOnce_cons_of_ne herror).1 herrors, hid, htrees⟩
  · rintro ⟨_, ⟨hseen, id, hread, rfl⟩, herrors, hid, htrees⟩
    refine ⟨(readOnce_cons_of_ne herror).2 herrors,
      (readOnce_cons_self h).2 ⟨hseen, id, hread, hid⟩, ?_⟩
    rwa [List.filter_cons_of_neg hresult]

/-- A member of the result has a tree. -/
theorem partsRead_cons_result (h : isResult m = true) :
    PartsRead seen (m :: ms) seen' ↔
      ∃ seen₁, ReadMemberText slot seen m seen₁ ∧ PartsRead seen₁ ms seen' := by
  obtain ⟨herror, hid⟩ : m.1 ≠ "Error" ∧ m.1 ≠ "RequestId" := by simpa [isResult] using h
  simp only [readMemberText_result_iff h]
  constructor
  · rintro ⟨herrors, hids, members, hmembers, htrees⟩
    rw [List.filter_cons_of_pos h] at htrees
    cases htrees with
    | @cons _ w _ members hw htrees =>
      obtain ⟨name, v⟩ := w
      obtain ⟨rfl, hv⟩ := hw
      refine ⟨_, ⟨v, hv, rfl⟩, (readOnce_cons_of_ne herror).1 herrors,
        (readOnce_cons_of_ne hid).1 hids, members, ?_, htrees⟩
      rw [hmembers, List.reverse_cons, List.append_assoc]
      rfl
  · rintro ⟨_, ⟨v, hv, rfl⟩, herrors, hids, members, hmembers, htrees⟩
    refine ⟨(readOnce_cons_of_ne herror).2 herrors, (readOnce_cons_of_ne hid).2 hids,
      (m.1, v) :: members, ?_, ?_⟩
    · rw [hmembers, List.reverse_cons, List.append_assoc]
      rfl
    · rw [List.filter_cons_of_pos h]
      exact .cons ⟨rfl, hv⟩ htrees

/-- Reading the members one after the other is reading the parts. -/
theorem readMemberTexts_slot_iff :
    ReadMemberTexts slot seen ms seen' ↔ PartsRead seen ms seen' := by
  induction ms generalizing seen with
  | nil => rw [ReadMemberTexts, partsRead_nil]
  | cons m ms ih =>
    simp only [ReadMemberTexts, ih]
    -- a member counts for exactly one of the three parts, and is unseen by the others
    by_cases herror : m.1 = "Error"
    · exact (partsRead_cons_error herror).symm
    · by_cases hid : m.1 = "RequestId"
      · exact (partsRead_cons_requestId hid).symm
      · exact (partsRead_cons_result (by simp [isResult, herror, hid])).symm

/-- **A response is read off the texts of its members.** -/
theorem readAll_responseForm_iff {envelope : Envelope} :
    readAll responseForm.readObjectOnly text = .ok envelope ↔
      ∃ ms error requestId, memberTexts? text = some ms ∧
        ReadOnce (Json.readOptional ReplyError.reader) "Error" ms none error ∧
        ReadOnce (Json.readOptional Json.readStringValue) "RequestId" ms none requestId ∧
        HaveTrees (ms.filter isResult) envelope.members ∧
        envelope.error = error.join ∧ envelope.requestId = requestId.join := by
  have hslot : responseForm.slot = slot := rfl
  have hall : AllTaken responseForm.slot := allTaken_slot
  rw [Json.readAll_readObjectOnly_iff hall, hslot]
  simp only [readMemberTexts_slot_iff]
  constructor
  · rintro ⟨ms, seen, hms, ⟨herror, hid, members, hmembers, htrees⟩, hfinish⟩
    obtain rfl : _ = envelope := Except.ok.inj hfinish
    obtain rfl : members = seen.members.reverse := by
      rw [hmembers]
      exact (List.reverse_eq_iff.2 (by simp [responseForm])).symm
    exact ⟨ms, seen.error, seen.requestId, hms, herror, hid, htrees, rfl, rfl⟩
  · rintro ⟨ms, error, requestId, hms, herror, hid, htrees, he, hi⟩
    refine ⟨ms, ⟨error, requestId, envelope.members.reverse⟩, hms, ⟨herror, hid, _, ?_, htrees⟩, ?_⟩
    · exact (List.append_nil _).symm
    · obtain ⟨e, i, l⟩ := envelope
      obtain rfl : e = error.join := he
      obtain rfl : i = requestId.join := hi
      exact congrArg (fun l => Except.ok (Envelope.mk error.join requestId.join l))
        (List.reverse_reverse l)

/-! ## Envelopes -/

/-- The text of the response in a reply: its one member of that name, or its only element. -/
def responseText? (text : String) : Option String :=
  match memberTexts? text, itemTexts? text with
  | some ms, _ => (Page.single? ms "Response").join
  | none, some [response] => some response
  | _, _ => none

theorem readsValue_readResponse (seen : Option Envelope) : ReadsValue (readResponse seen) :=
  (Json.readsValue_readObjectOnly (show AllTaken responseForm.slot from allTaken_slot)).map some

theorem allTaken_form : AllTaken form.slot := by
  intro seen name value hslot
  unfold form at hslot
  by_cases hname : name = "Response"
  · cases seen with
    | some e => simp [hname] at hslot
    | none =>
      simp only [if_pos hname, Option.isSome_none, Bool.false_eq_true, if_false] at hslot
      obtain rfl := Json.Slot.take.inj hslot
      exact readsValue_readResponse none
  · simp [hname] at hslot

theorem readAll_readResponse_iff {before after : Option Envelope} :
    readAll (readResponse before) text = .ok after ↔
      ∃ e, readAll responseForm.readObjectOnly text = .ok e ∧ after = some e :=
  readAll_map_iff (f := some)

/-- The members of an envelope: a response, and others that are passed over. -/
theorem readMemberTexts_form_iff {before after : Option Envelope} :
    ReadMemberTexts form.slot before ms after ↔
      ReadOnce responseForm.readObjectOnly "Response" ms before after := by
  induction ms generalizing before with
  | nil => rw [ReadMemberTexts, readOnce_nil]
  | cons m ms ih =>
    simp only [ReadMemberTexts, ih]
    by_cases hname : m.1 = "Response"
    · rw [readOnce_cons_self hname]
      cases before with
      | some e => simp [ReadMemberText, form, hname]
      | none => simp [ReadMemberText, form, hname, readAll_readResponse_iff]
    · rw [readOnce_cons_of_ne hname]
      simp [ReadMemberText, form, hname]

/-- The elements of an envelope: a response and nothing else. -/
theorem readItemTexts_form_iff {texts : List String} {envelope : Envelope} :
    ReadItemTexts (Json.nextField form.elements) (none, 0) texts (some envelope, 1) ↔
      ∃ response, texts = [response] ∧
        readAll responseForm.readObjectOnly response = .ok envelope := by
  have hnext : Json.nextField form.elements (none, 0) =
      some (Json.readCounted readResponse (none, 0)) := rfl
  have hend : ∀ seen, Json.nextField form.elements (seen, 1) = none := fun _ => rfl
  have hread : ∀ {response p}, readAll (Json.readCounted readResponse (none, 0)) response = .ok p ↔
      ∃ seen, readAll (readResponse none) response = .ok seen ∧ p = (seen, 1) := by
    intro response p
    exact readAll_map_iff (f := fun seen => (seen, 1))
  constructor
  · intro h
    rcases texts with _ | ⟨response, _ | ⟨other, texts⟩⟩
    · cases h
    · obtain ⟨r, p, hr, hp, rfl⟩ := h
      obtain rfl := Option.some.inj (hnext.symm.trans hr)
      obtain ⟨seen, hseen, hsame⟩ := hread.1 hp
      obtain rfl : some envelope = seen := congrArg Prod.fst hsame
      obtain ⟨e, he, hsome⟩ := readAll_readResponse_iff.1 hseen
      obtain rfl := Option.some.inj hsome
      exact ⟨response, rfl, he⟩
    · obtain ⟨r, p, hr, hp, r', -, hr', -⟩ := h
      obtain rfl := Option.some.inj (hnext.symm.trans hr)
      obtain ⟨seen, -, rfl⟩ := hread.1 hp
      rw [hend] at hr'
      cases hr'
  · rintro ⟨response, rfl, he⟩
    exact ⟨_, (some envelope, 1), hnext,
      hread.2 ⟨some envelope, readAll_readResponse_iff.2 ⟨envelope, he, rfl⟩, rfl⟩, rfl⟩

/-- **A reply is its response.** -/
theorem ofText_eq_ok_iff {envelope : Envelope} :
    ofText text = .ok envelope ↔
      ∃ response, responseText? text = some response ∧
        readAll responseForm.readObjectOnly response = .ok envelope := by
  have hfields : ∀ field ∈ form.elements, ∀ seen, ReadsValue (field seen) := by
    intro field hfield seen
    obtain rfl : field = readResponse := List.mem_singleton.1 hfield
    exact readsValue_readResponse seen
  have hfinish : ∀ {seen}, form.finish seen = .ok envelope ↔ seen = some envelope := by
    intro seen
    cases seen <;> simp [form]
  have hstart : form.start = none := rfl
  have hlength : form.elements.length = 1 := rfl
  rw [ofText, Json.readAll_read_iff allTaken_form hfields, hstart, hlength]
  simp only [hfinish, readMemberTexts_form_iff, responseText?]
  cases hms : memberTexts? text with
  | some ms =>
    rw [Json.itemTexts?_of_memberTexts? hms]
    simp [ReadOnce, Option.join_eq_some_iff]
  | none =>
    simp only [reduceCtorEq, false_and, exists_const, or_false]
    cases itemTexts? text with
    | none => simp
    | some texts =>
      rcases texts with _ | ⟨response, _ | ⟨other, texts⟩⟩ <;> simp [readItemTexts_form_iff]

end Envelope

end DbInventory
