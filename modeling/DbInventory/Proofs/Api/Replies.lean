/-
# DbInventory.Proofs.Api.Replies -- which outcome a reply has

Four things of a reply can count: its status, whether its body is an envelope, the error in it,
and the result beside the error. `TellsEnvelope` says of a text alone that it is an envelope,
and `TellsResult` that its other members are a page; `Classifies` says which of the four is
looked at first. Both calls of the client classify their replies so
(`Client.replies_classified`).
-/

import DbInventory.Proofs.Api.ListingReply
import DbInventory.Proofs.Api.Records

namespace DbInventory

open Json (Readable memberTexts? itemTexts? readAll)
open Envelope (memberDepth responseText? isResult HaveTrees)

variable {α τ : Type} {text listName action : String} {entry : String → α → Prop}
  {ms : List (String × String)} {page : Page α}

/-! ## Envelopes -/

/-- **What a text tells that is an envelope**: a response that gives an error and an identifier at
most once, each perhaps as null. Of its other members nothing is asked but that they are JSON:
they may be repeated, and have any values. -/
structure TellsEnvelope (text : String) (error : Option ReplyError) (requestId : Option String)
    (ms : List (String × String)) : Prop where
  response : ∃ response, responseText? text = some response ∧ memberTexts? response = some ms
  error : MayGive ReplyError.Told ms "Error" error
  requestId : MayGive SaysText ms "RequestId" requestId
  readable : ∀ m ∈ ms, isResult m = true → Readable memberDepth m.2

/-- The text is an envelope. -/
def IsEnvelope (text : String) : Prop := ∃ error requestId ms, TellsEnvelope text error requestId ms

/-- An error starts with a bracket. -/
theorem ReplyError.head_of_reader {s rest : List Char} {error : ReplyError}
    (h : reader s = .ok (error, rest)) : ∃ c t, Json.skipBlanks s = c :: t ∧ c ≠ 'n' := by
  obtain ⟨⟨f, m⟩, hread, -⟩ := bind_eq_ok.1 h
  rcases Json.read_eq_ok_iff.1 hread with ⟨t, ht, -⟩ | ⟨t, ht, -⟩
  · exact ⟨'[', t, ht, by decide⟩
  · exact ⟨'{', t, ht, by decide⟩

theorem ReplyError.readsValue_reader : Json.ReadsValue reader :=
  fields.readsValue_read.map (f := fun f => (⟨(f .code).getD "", (f .text).getD ""⟩ : ReplyError))

theorem readAll_readOptional_error_iff {error : Option ReplyError} :
    readAll (Json.readOptional ReplyError.reader) text = .ok error ↔
      MayTell ReplyError.Told (some text) error :=
  readAll_readOptional_iff ReplyError.readsValue_reader ReplyError.head_of_reader
    fun _ => ReplyError.readAll_reader_iff

/-- A member that is read once, and may be null, is left out, null or read. -/
theorem readOnce_join_iff {r : Json.Reader (Option α)} {name : String} {told : String → α → Prop}
    {y : Option α} (hread : ∀ text, readAll r text = .ok y ↔ MayTell told (some text) y) :
    (∃ x, ReadOnce r name ms none x ∧ y = x.join) ↔ MayGive told ms name y := by
  constructor
  · rintro ⟨x, ⟨hsingle, rfl⟩ | ⟨text, x, hsingle, hx, rfl⟩, rfl⟩
    · exact ⟨none, hsingle, rfl⟩
    · exact ⟨some text, hsingle, (hread text).1 hx⟩
  · rintro ⟨_ | text, hsingle, htold⟩
    · exact ⟨none, .inl ⟨hsingle, rfl⟩, htold⟩
    · exact ⟨some y, .inr ⟨text, y, hsingle, (hread text).2 htold, rfl⟩, rfl⟩

/-- **An envelope is read off exactly the texts that tell it.** -/
theorem Envelope.ofText_ok_iff_tells {envelope : Envelope} :
    Envelope.ofText text = .ok envelope ↔
      ∃ ms, TellsEnvelope text envelope.error envelope.requestId ms ∧
        HaveTrees (ms.filter isResult) envelope.members := by
  have herror : ∀ {ms}, (∃ x, ReadOnce (Json.readOptional ReplyError.reader) "Error" ms none x ∧
      envelope.error = x.join) ↔ MayGive ReplyError.Told ms "Error" envelope.error := fun {ms} =>
    readOnce_join_iff fun _ => readAll_readOptional_error_iff
  have hid : ∀ {ms}, (∃ x, ReadOnce (Json.readOptional Json.readStringValue) "RequestId" ms none x ∧
      envelope.requestId = x.join) ↔ MayGive SaysText ms "RequestId" envelope.requestId :=
    fun {ms} => readOnce_join_iff fun _ => readAll_readOptional_text_iff
  rw [Envelope.ofText_eq_ok_iff]
  simp only [Envelope.readAll_responseForm_iff]
  constructor
  · rintro ⟨response, hresponse, ms, error, requestId, hms, he, hi, htrees, heq, hieq⟩
    refine ⟨ms, ⟨⟨response, hresponse, hms⟩, herror.1 ⟨error, he, heq⟩,
      hid.1 ⟨requestId, hi, hieq⟩, ?_⟩, htrees⟩
    intro m hm hresult
    obtain ⟨w, -, hw⟩ := Json.exists_forall₂_iff.1 ⟨_, htrees⟩ m (List.mem_filter.2 ⟨hm, hresult⟩)
    exact ⟨w.2, hw⟩
  · rintro ⟨ms, ⟨⟨response, hresponse, hms⟩, he, hi, -⟩, htrees⟩
    obtain ⟨error, he, heq⟩ := herror.2 he
    obtain ⟨requestId, hi, hieq⟩ := hid.2 hi
    exact ⟨response, hresponse, ms, error, requestId, hms, he, hi, htrees, heq, hieq⟩

/-- The members of the result have trees. -/
theorem TellsEnvelope.exists_trees {error : Option ReplyError} {requestId : Option String}
    (h : TellsEnvelope text error requestId ms) :
    ∃ members, HaveTrees (ms.filter isResult) members := by
  unfold HaveTrees
  rw [Json.exists_forall₂_iff]
  intro m hm
  obtain ⟨hm, hresult⟩ := List.mem_filter.1 hm
  obtain ⟨v, hv⟩ := h.readable m hm hresult
  exact ⟨(m.1, v), rfl, hv⟩

theorem isEnvelope_iff : IsEnvelope text ↔ ∃ envelope, Envelope.ofText text = .ok envelope := by
  constructor
  · rintro ⟨error, requestId, ms, h⟩
    obtain ⟨members, htrees⟩ := h.exists_trees
    exact ⟨⟨error, requestId, members⟩, Envelope.ofText_ok_iff_tells.2 ⟨ms, h, htrees⟩⟩
  · rintro ⟨envelope, h⟩
    obtain ⟨ms, h, -⟩ := Envelope.ofText_ok_iff_tells.1 h
    exact ⟨_, _, ms, h⟩

/-! ## Results -/

/-- The other members of a response tell a page. -/
structure TellsResult (listName : String) (entry : String → α → Prop)
    (ms : List (String × String)) (page : Page α) : Prop where
  total : ∃ t, Page.single? ms "TotalCount" = some t ∧ TotalTold t page.total
  entries : ∃ t, Page.single? ms listName = some t ∧ EntriesTold entry t page.entries

/-! ## Outcomes -/

/-- **How replies are classified.** The error of an envelope counts before everything else, then
its result; the status counts only where there is no envelope. -/
structure Classifies (listName : String) (entry : String → α → Prop) (action : String)
    (outcome : HttpReply → Except ClientError (Page α)) : Prop where
  /-- An error is the outcome, whatever the status and the other members are. -/
  api : ∀ {reply error requestId ms}, TellsEnvelope reply.text (some error) requestId ms →
    outcome reply = .error (.api error.code error.text (requestId.getD ""))
  /-- Without an error, the outcome is the page that is told. -/
  page : ∀ {reply requestId ms page}, TellsEnvelope reply.text none requestId ms →
    TellsResult listName entry ms page → outcome reply = .ok page
  /-- Without an error and a page, there is nothing to give. -/
  noPage : ∀ {reply requestId ms}, TellsEnvelope reply.text none requestId ms →
    (∀ page, ¬TellsResult listName entry ms page) →
    outcome reply = .error (.parse action "response body is missing")
  /-- An envelope has the same outcome under every status. -/
  anyStatus : ∀ {reply reply' : HttpReply}, reply'.body = reply.body → IsEnvelope reply.text →
    outcome reply' = outcome reply
  /-- No envelope and no success is an error of the status. -/
  http : ∀ {reply}, ¬IsEnvelope reply.text → ¬(200 ≤ reply.status ∧ reply.status < 300) →
    outcome reply =
      .error (.http reply.status ((reasonPhrase? reply.status).getD "unexpected status"))
  /-- No envelope under a success is the fault of the reader. -/
  parse : ∀ {reply}, ¬IsEnvelope reply.text → 200 ≤ reply.status ∧ reply.status < 300 →
    ∃ fault, Envelope.ofText reply.text = .error fault ∧
      outcome reply = .error (.parse action (fault.message reply.text))

/-- The trees of the members tell the page that their texts tell. -/
theorem tellsResult_iff {decode : Json → Option α} {members : List (String × Json)}
    (hlist : listName ≠ "Error" ∧ listName ≠ "RequestId")
    (hentry : ∀ {depth text v x}, readAll (Json.readTree depth) text = .ok v →
      (decode v = some x ↔ entry text x))
    (htrees : HaveTrees (ms.filter isResult) members) :
    TellsResult listName entry ms page ↔ Page.ofMembers? listName decode members = some page := by
  rw [← told_iff_ofMembers? hlist hentry htrees]
  exact ⟨fun h => ⟨h.total, h.entries⟩, fun h => ⟨h.1, h.2⟩⟩

theorem outcome_of_envelope {reply : HttpReply} {decode : List (String × Json) → Option α}
    {envelope : Envelope} (h : Envelope.ofText reply.text = .ok envelope) :
    reply.outcome action decode = envelope.outcome action decode := by
  rw [HttpReply.outcome, h]

/-- What is no envelope has a fault. -/
theorem exists_fault {reply : HttpReply} (h : ¬IsEnvelope reply.text) :
    ∃ fault, Envelope.ofText reply.text = .error fault := by
  cases hread : Envelope.ofText reply.text with
  | error fault => exact ⟨fault, rfl⟩
  | ok envelope => exact absurd (isEnvelope_iff.2 ⟨envelope, hread⟩) h

theorem isSuccess_iff {reply : HttpReply} :
    reply.isSuccess = true ↔ 200 ≤ reply.status ∧ reply.status < 300 := by
  simp [HttpReply.isSuccess]

/-- **The outcome of a reply with a page classifies it.** -/
theorem classifies_outcome {decode : Json → Option α}
    (hlist : listName ≠ "Error" ∧ listName ≠ "RequestId")
    (hentry : ∀ {depth text v x}, readAll (Json.readTree depth) text = .ok v →
      (decode v = some x ↔ entry text x)) :
    Classifies listName entry action
      fun reply => reply.outcome action (Page.ofMembers? listName decode) where
  api {reply error requestId ms} h := by
    obtain ⟨members, htrees⟩ := h.exists_trees
    have henvelope : Envelope.ofText reply.text = .ok ⟨some error, requestId, members⟩ :=
      Envelope.ofText_ok_iff_tells.2 ⟨ms, h, htrees⟩
    exact outcome_of_envelope henvelope
  page {reply requestId ms page} h hresult := by
    obtain ⟨members, htrees⟩ := h.exists_trees
    have hpage := (tellsResult_iff hlist hentry htrees).1 hresult
    have henvelope : Envelope.ofText reply.text = .ok ⟨none, requestId, members⟩ :=
      Envelope.ofText_ok_iff_tells.2 ⟨ms, h, htrees⟩
    show reply.outcome action _ = .ok page
    rw [outcome_of_envelope henvelope, Envelope.outcome]
    simp only [hpage]
  noPage {reply requestId ms} h hnone := by
    obtain ⟨members, htrees⟩ := h.exists_trees
    have hpage : Page.ofMembers? listName decode members = none := by
      rw [Option.eq_none_iff_forall_ne_some]
      intro page hpage
      exact hnone page ((tellsResult_iff hlist hentry htrees).2 hpage)
    have henvelope : Envelope.ofText reply.text = .ok ⟨none, requestId, members⟩ :=
      Envelope.ofText_ok_iff_tells.2 ⟨ms, h, htrees⟩
    show reply.outcome action _ = _
    rw [outcome_of_envelope henvelope, Envelope.outcome]
    simp only [hpage]
  anyStatus {reply reply'} hbody h := by
    obtain ⟨envelope, henvelope⟩ := isEnvelope_iff.1 h
    have htext : reply'.text = reply.text := congrArg Text.decodeMarkedUtf8 hbody
    show reply'.outcome action _ = reply.outcome action _
    rw [outcome_of_envelope henvelope, outcome_of_envelope (htext ▸ henvelope)]
  http {reply} h hstatus := by
    obtain ⟨fault, hfault⟩ := exists_fault h
    have hfailed : reply.isSuccess = false := by
      rw [← Bool.not_eq_true]
      exact fun hsuccess => hstatus (isSuccess_iff.1 hsuccess)
    simp only [HttpReply.outcome, hfault, hfailed, Bool.false_eq_true, if_false]
  parse {reply} h hstatus := by
    obtain ⟨fault, hfault⟩ := exists_fault h
    refine ⟨fault, hfault, ?_⟩
    simp only [HttpReply.outcome, hfault, isSuccess_iff.2 hstatus, if_true]

/-! ## Calls -/

namespace Client

/-- The call of an action posts its request and gets a reply. -/
def Receives (c : Client) (net : Network τ) (action : ApiAction) (body : Json) (s : τ)
    (reply : HttpReply) (s' : τ) : Prop :=
  ∃ url host request, c.address action.service = .ok (url, host) ∧
    c.request action body url host (net.now s).1 = .ok request ∧
    net.post request (net.now s).2 = (.ok reply, s')

/-- A call that gets a reply ends with its outcome. -/
theorem call_of_receives {c : Client} {net : Network τ} {action : ApiAction} {body : Json}
    {s s' : τ} {reply : HttpReply} (h : c.Receives net action body s reply s')
    (decode : List (String × Json) → Option α) :
    c.call net action body decode s = (reply.outcome action.name decode, s') := by
  obtain ⟨url, host, request, haddress, hrequest, hpost⟩ := h
  simp only [call, haddress, hrequest, hpost]

/-- A ready call gets the reply that the server gives. -/
theorem Ready.receives {c : Client} {net : Network τ} {action : ApiAction} (h : c.Ready net action)
    {reply : HttpReply} (hsend : ∀ request s, net.send request s = (.ok reply, s)) (body : Json)
    (s : τ) : c.Receives net action body s reply (net.now s).2 := by
  obtain ⟨url, host, request, haddress, hrequest, -, hheaders, hsendable⟩ := exists_request h body s
  exact ⟨url, host, request, haddress, hrequest,
    Network.post_eq_ok_iff.2 ⟨hheaders, hsendable, hsend request _⟩⟩

/-- **Both calls of the client classify replies.** A call that gets a reply ends with the outcome
of that reply, which is one function of the reply for all clients, networks, requests and
moments: an error in an envelope before everything else, then the page that its other members
tell, and the status only where there is no envelope. -/
theorem replies_classified :
    (∃ outcome, Classifies "DBInstances" (fun t x => DbInstance.ofText t = .ok x) listAction.name
        outcome ∧
      ∀ (τ : Type) (c : Client) (net : Network τ) filter offset s reply s',
        c.Receives net listAction (listBody filter offset) s reply s' →
        c.listPage net filter offset s = (outcome reply, s')) ∧
    ∃ outcome, Classifies "Tags" ResourceTag.Told tagAction.name outcome ∧
      ∀ (τ : Type) (c : Client) (net : Network τ) query offset s reply s',
        c.Receives net tagAction (tagBody query offset) s reply s' →
        c.tagPage net query offset s = (outcome reply, s') := by
  refine ⟨⟨_, classifies_outcome (by simp) DbInstance.ofTree?_eq_some_iff, ?_⟩,
    _, classifies_outcome (by simp) ResourceTag.ofTree?_eq_some_iff, ?_⟩
  · intro τ c net filter offset s reply s' h
    exact call_of_receives h instancePage?
  · intro τ c net query offset s reply s' h
    exact call_of_receives h tagPage?

end Client

/-! ### An error beside a spoiled result -/

/-- A reply that fails with an error, with a list that is none and a total given twice. -/
def failingReply : HttpReply where
  status := 503
  body := Text.utf8 ("\x7b\"Response\":\x7b\"TotalCount\":-1,\"Error\":" ++
    "\x7b\"Code\":\"AuthFailure\",\"Message\":\"denied\"\x7d,\"DBInstances\":7," ++
    "\"TotalCount\":null\x7d\x7d")

/-- The members of the response. -/
def failingMembers : List (String × String) :=
  [("TotalCount", "-1"), ("Error", "\x7b\"Code\":\"AuthFailure\",\"Message\":\"denied\"\x7d"),
    ("DBInstances", "7"), ("TotalCount", "null")]

theorem failingReply_tells :
    TellsEnvelope failingReply.text (some ⟨"AuthFailure", "denied"⟩) none failingMembers where
  response := ⟨"\x7b\"TotalCount\":-1,\"Error\":\x7b\"Code\":\"AuthFailure\"," ++
    "\"Message\":\"denied\"\x7d,\"DBInstances\":7,\"TotalCount\":null\x7d",
    by decide +kernel, by decide +kernel⟩
  error := by
    refine ⟨_, rfl, .inr ⟨_, .inl ⟨[("Code", "\"AuthFailure\""), ("Message", "\"denied\"")],
      by decide +kernel, ⟨_, rfl, ?_⟩, _, rfl, ?_⟩, rfl⟩⟩
    · exact toOption_eq_some_iff.1 (by decide +kernel)
    · exact toOption_eq_some_iff.1 (by decide +kernel)
  requestId := ⟨none, rfl, rfl⟩
  readable := by
    have hall : ∀ m ∈ failingMembers,
        (readAll (Json.readTree memberDepth) m.2).toOption.isSome = true := by decide +kernel
    intro m hm _
    obtain ⟨v, hv⟩ := Option.isSome_iff_exists.1 (hall m hm)
    exact ⟨v, toOption_eq_some_iff.1 hv⟩

/-- The call ends with the error, and not with the status. -/
theorem replies_classified_failing :
    usualClient.Receives (steadyServer failingReply) Client.listAction
      (Client.listBody noFilter 0) () failingReply () ∧
    TellsEnvelope failingReply.text (some ⟨"AuthFailure", "denied"⟩) none failingMembers ∧
    usualClient.listPage (steadyServer failingReply) noFilter 0 () =
      (.error (.api "AuthFailure" "denied" ""), ()) := by
  have hready : usualClient.Ready (steadyServer failingReply) Client.listAction :=
    usualClient_ready fun _ => rfl
  have hreceives := hready.receives (fun _ _ => rfl) (Client.listBody noFilter 0) ()
  obtain ⟨⟨outcome, hclass, hcall⟩, -⟩ := Client.replies_classified
  refine ⟨hreceives, failingReply_tells, ?_⟩
  rw [hcall _ _ _ _ _ _ _ _ hreceives, hclass.api failingReply_tells]
  rfl

end DbInventory
