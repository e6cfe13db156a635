/-
# DbInventory.Proofs.Api.Requests -- what a call sends, and what comes back

`Client.Makes` says that a request is one that a client makes for an action and a body. All
that differs between two of them is the body and what the moment decides (`Makes.alike`).
`Network.recorded` keeps every exchange, request and answer, beside the state of a network: a
call adds one exchange at most, of a request that it made, and its outcome is that of the
answer (`Client.call_recorded`). Nothing is asked here of the client, the network or its clock.
A walk over pages then has one exchange for each page (`Page.Walk.record_eq`).
-/

import DbInventory.Proofs.Api.Sending
import DbInventory.Proofs.Api.Walk
import DbInventory.Proofs.Except

namespace DbInventory

variable {α τ : Type}

/-! ## Exchanges -/

/-- A request that was sent, and what came back. -/
structure Exchange where
  request : HttpRequest
  answer : Except SendFault HttpReply

/-- The same network, with the exchanges so far, in order, beside the state. -/
def Network.recorded (net : Network τ) : Network (τ × List Exchange) where
  now := fun (s, exchanges) =>
    let (moment, s) := net.now s
    (moment, s, exchanges)
  send request := fun (s, exchanges) =>
    let (answer, s) := net.send request s
    (answer, s, exchanges ++ [⟨request, answer⟩])

@[simp] theorem Network.recorded_now (net : Network τ) (s : τ) (exchanges : List Exchange) :
    net.recorded.now (s, exchanges) = ((net.now s).1, (net.now s).2, exchanges) := rfl

@[simp] theorem Network.recorded_send (net : Network τ) (request : HttpRequest) (s : τ)
    (exchanges : List Exchange) :
    net.recorded.send request (s, exchanges) =
      ((net.send request s).1, (net.send request s).2,
        exchanges ++ [⟨request, (net.send request s).1⟩]) := rfl

/-- Two requests differ at most in the body and in the headers that depend on the moment and
on the body. -/
structure HttpRequest.Alike (r r' : HttpRequest) : Prop where
  url : r.url = r'.url
  header : ∀ name, name ≠ "Authorization" → name ≠ "X-TC-Timestamp" →
    r.header? name = r'.header? name

namespace Client

variable {c : Client} {net : Network τ} {action : ApiAction} {body body' : Json}
  {request request' : HttpRequest}

/-! ## Requests of a client -/

/-- The request is one that the client makes for an action and a body, at some moment. -/
def Makes (c : Client) (action : ApiAction) (body : Json) (request : HttpRequest) : Prop :=
  ∃ url host timestamp, c.address action.service = .ok (url, host) ∧
    c.request action body url host timestamp = .ok request

/-- The parts of a request that was made. -/
theorem request_eq_ok_iff {url : Url} {host : String} {timestamp : Int64} :
    c.request action body url host timestamp = .ok request ↔
      ∃ authorization,
        c.authorization { service := action.service, host,
                          payload := Text.utf8 body.compactText, timestamp } =
          .ok authorization ∧
        request = {
          url := url.sendAddress
          headers := url.userHeaders ++ c.headers action timestamp authorization
          body := Text.utf8 body.compactText } := by
  rw [Client.request, bind_eq_ok]
  simp only [Except.ok.injEq, eq_comm]

/-- The headers of the user hold an authorization and nothing else. -/
theorem lookup_userHeaders (u : Url) {name : String} (hname : name ≠ "Authorization") :
    u.userHeaders.lookup name = none := by
  rw [Url.userHeaders]
  split
  · rw [List.lookup_cons, beq_false_of_ne hname]
    rfl
  · rfl

theorem Makes.carries (h : c.Makes action body request) : Carries request action body := by
  obtain ⟨url, host, timestamp, -, hrequest⟩ := h
  obtain ⟨authorization, -, rfl⟩ := request_eq_ok_iff.1 hrequest
  refine ⟨?_, rfl⟩
  rw [HttpRequest.header?, List.lookup_append, lookup_userHeaders url (by decide)]
  rfl

/-- **Requests of one action are alike**, whatever their bodies and their moments. -/
theorem Makes.alike (h : c.Makes action body request) (h' : c.Makes action body' request') :
    request.Alike request' := by
  obtain ⟨url, host, timestamp, haddress, hrequest⟩ := h
  obtain ⟨url', host', timestamp', haddress', hrequest'⟩ := h'
  obtain ⟨rfl, rfl⟩ := Prod.mk.inj (Except.ok.inj (haddress.symm.trans haddress'))
  obtain ⟨authorization, -, rfl⟩ := request_eq_ok_iff.1 hrequest
  obtain ⟨authorization', -, rfl⟩ := request_eq_ok_iff.1 hrequest'
  refine ⟨rfl, ?_⟩
  intro name hauthorization htimestamp
  simp only [HttpRequest.header?, List.lookup_append, lookup_userHeaders url hauthorization,
    Option.none_or, headers]
  simp only [List.lookup_cons, beq_false_of_ne hauthorization,
    beq_false_of_ne htimestamp]

/-! ## Calls -/

/-- What a call has sent, and how it ends: nothing, with an error that was there before, or one
request that it made, with the outcome of the answer. -/
inductive Sends (c : Client) (action : ApiAction) (body : Json)
    (decode : List (String × Json) → Option α) : List Exchange → Except ClientError α → Prop where
  | unsent (e : ClientError) (hcause : ∀ name text, e ≠ .invalidRequest name text) :
      Sends c action body decode [] (.error e)
  | sent (request : HttpRequest) (answer : Except SendFault HttpReply)
      (hmakes : c.Makes action body request) :
      Sends c action body decode [⟨request, answer⟩] (answered request action decode answer)

/-- An address that is not found is an invalid endpoint. -/
theorem address_error_cause {service : String} {e : ClientError}
    (h : c.address service = .error e) (name text : String) : e ≠ .invalidRequest name text := by
  unfold address at h
  simp only at h
  split at h
  · cases h; simp
  · split at h
    · cases h; simp
    · cases h

/-- A request that is not made has no authorization. -/
theorem request_error_cause {url : Url} {host : String} {timestamp : Int64} {e : ClientError}
    (h : c.request action body url host timestamp = .error e) (name text : String) :
    e ≠ .invalidRequest name text := by
  unfold Client.request Client.authorization at h
  simp only at h
  split at h
  · cases h
  · cases h; simp

/-- A call whose request nothing keeps back is one post. -/
theorem call_of_sent {url : Url} {host : String} {s : τ}
    (haddress : c.address action.service = .ok (url, host))
    (hrequest : c.request action body url host (net.now s).1 = .ok request)
    (hheaders : ¬(request.headers.any fun h => !isHeaderText h.2) = true)
    (hurl : ¬(!request.url.isSendable) = true) (decode : List (String × Json) → Option α) :
    c.call net action body decode s =
      (answered request action decode (net.send request (net.now s).2).1,
        (net.send request (net.now s).2).2) := by
  simp only [call, haddress, hrequest, Network.post, if_neg hheaders, if_neg hurl]
  rcases net.send request (net.now s).2 with ⟨answer | answer, s'⟩
  · cases answer <;> rfl
  · rfl

/-- **A call sends one request at most**, which it made, and ends with the outcome of the
answer. Recording the exchange changes nothing about it. -/
theorem call_recorded (c : Client) (net : Network τ) (action : ApiAction) (body : Json)
    (decode : List (String × Json) → Option α) (s : τ) (exchanges : List Exchange) :
    ∃ result s' sent,
      c.call net action body decode s = (result, s') ∧
        c.call net.recorded action body decode (s, exchanges) =
          (result, s', exchanges ++ sent) ∧
        c.Sends action body decode sent result := by
  cases haddress : c.address action.service with
  | error e =>
    refine ⟨.error e, s, [], ?_, ?_, .unsent e (address_error_cause haddress)⟩
    · simp only [call, haddress]
    · simp only [call, haddress, List.append_nil]
  | ok found =>
    obtain ⟨url, host⟩ := found
    cases hrequest : c.request action body url host (net.now s).1 with
    | error e =>
      refine ⟨.error e, (net.now s).2, [], ?_, ?_, .unsent e (request_error_cause hrequest)⟩
      · simp only [call, haddress, hrequest]
      · simp only [call, haddress, Network.recorded_now, hrequest, List.append_nil]
    | ok request =>
      by_cases hheaders : (request.headers.any fun h => !isHeaderText h.2) = true
      · refine ⟨.error (.network .badHeader), (net.now s).2, [], ?_, ?_, .unsent _ (by simp)⟩
        · simp only [call, haddress, hrequest, Network.post, if_pos hheaders]
        · simp only [call, haddress, Network.recorded_now, hrequest, Network.post,
            if_pos hheaders, List.append_nil]
      · by_cases hurl : (!request.url.isSendable) = true
        · refine ⟨.error (.network (.badAddress request.url)), (net.now s).2, [], ?_, ?_,
            .unsent _ (by simp)⟩
          · simp only [call, haddress, hrequest, Network.post, if_neg hheaders, if_pos hurl]
          · simp only [call, haddress, Network.recorded_now, hrequest, Network.post,
              if_neg hheaders, if_pos hurl, List.append_nil]
        · refine ⟨_, _, _, call_of_sent haddress hrequest hheaders hurl decode, ?_,
            .sent request _ ⟨url, host, _, haddress, hrequest⟩⟩
          have hrequest' : c.request action body url host
              (net.recorded.now (s, exchanges)).1 = .ok request := by
            rw [Network.recorded_now, hrequest]
          rw [call_of_sent haddress hrequest' hheaders hurl decode, Network.recorded_now,
            Network.recorded_send]

/-- A call that gives a result has sent a request, and the result is what the reply says. -/
theorem Sends.exists_of_ok {decode : List (String × Json) → Option α} {sent : List Exchange}
    {result : Except ClientError α} {x : α} (h : c.Sends action body decode sent result)
    (hx : result = .ok x) :
    ∃ request reply, sent = [⟨request, .ok reply⟩] ∧ c.Makes action body request ∧
      reply.outcome action.name decode = .ok x := by
  cases h with
  | unsent e => cases hx
  | sent request answer hmakes =>
    cases answer with
    | ok reply => exact ⟨request, reply, rfl, hmakes, hx⟩
    | error fault => cases fault <;> cases hx

/-- An outcome is never an error about the request. -/
theorem answered_error_cause {decode : List (String × Json) → Option α}
    {answer : Except SendFault HttpReply} {e : ClientError}
    (h : answered request action decode answer = .error e) (name text : String) :
    e ≠ .invalidRequest name text := by
  cases answer with
  | error fault => cases fault <;> (cases h; simp)
  | ok reply =>
    simp only [answered, HttpReply.outcome] at h
    split at h
    · unfold Envelope.outcome at h
      split at h
      · cases h; simp
      · split at h
        · cases h
        · cases h; simp
    · split at h
      · cases h; simp
      · cases h; simp

/-- **A call does not complain about its own request.** -/
theorem Sends.error_cause {decode : List (String × Json) → Option α} {sent : List Exchange}
    {result : Except ClientError α} {e : ClientError}
    (h : c.Sends action body decode sent result) (he : result = .error e) (name text : String) :
    e ≠ .invalidRequest name text := by
  cases h with
  | unsent e' hcause =>
    obtain rfl : e' = e := Except.error.inj he
    exact hcause name text
  | sent request answer => exact answered_error_cause he name text

/-- A call without a record is one with a record, and the record left out. -/
theorem call_unrecorded (c : Client) (net : Network τ) (action : ApiAction) (body : Nat → Json)
    (decode : List (String × Json) → Option α) (o : Nat) (t : τ × List Exchange) :
    c.call net action (body o) decode t.1 =
      ((c.call net.recorded action (body o) decode t).1,
        (c.call net.recorded action (body o) decode t).2.1) := by
  obtain ⟨result, s', sent, hcall, hrecorded, -⟩ :=
    call_recorded c net action (body o) decode t.1 t.2
  rw [hcall, hrecorded]

/-- A call adds nothing to a record and fails, or it adds one exchange of a request it made. -/
theorem call_recorded_cases (c : Client) (net : Network τ) (action : ApiAction) (body : Json)
    (decode : List (String × Json) → Option α) (t : τ × List Exchange) :
    ∃ sent, (c.call net.recorded action body decode t).2.2 = t.2 ++ sent ∧
      ((sent = [] ∧ ∃ e, (c.call net.recorded action body decode t).1 = .error e) ∨
        ∃ x, sent = [x] ∧ c.Makes action body x.request) := by
  obtain ⟨result, s', sent, -, hrecorded, hsends⟩ :=
    call_recorded c net action body decode t.1 t.2
  refine ⟨sent, by rw [hrecorded], ?_⟩
  rw [hrecorded]
  cases hsends with
  | unsent e => exact Or.inl ⟨rfl, e, rfl⟩
  | sent request answer hmakes => exact Or.inr ⟨_, rfl, hmakes⟩

/-- Recording does not change what is ready. -/
theorem Ready.recorded (h : c.Ready net action) : c.Ready net.recorded action :=
  { h with clock := fun s => h.clock s.1 }

/-- A ready call adds to the record. -/
theorem Ready.call_recorded_ne (h : c.Ready net action) (body : Json)
    (decode : List (String × Json) → Option α) (t : τ × List Exchange) :
    (c.call net.recorded action body decode t).2.2 ≠ t.2 := by
  obtain ⟨request, -, hcall⟩ := call_of_ready h.recorded body decode t
  rw [hcall]
  show t.2 ++ [_] ≠ t.2
  simp

/-! ## Pages -/

/-- The pages of an action without a record are those with a record, and the record left out. -/
theorem collectAll_unrecorded (c : Client) (net : Network τ) (action : ApiAction)
    (body : Nat → Json) (decode : List (String × Json) → Option (Page α)) (limit : Nat)
    (exhausted : ClientError) (t : τ × List Exchange) :
    Page.collectAll limit (fun o => c.call net action (body o) decode) exhausted t.1 =
      ((Page.collectAll limit (fun o => c.call net.recorded action (body o) decode) exhausted
          t).1,
        (Page.collectAll limit (fun o => c.call net.recorded action (body o) decode) exhausted
          t).2.1) :=
  Page.collect_forget Prod.fst (call_unrecorded c net action body decode) exhausted
    (Page.budget limit) 0 t

/-- **The pages of an action ask in steps of the limit**, however the loop over them ends. It
fails as a call does or because its budget is exhausted. -/
theorem collectAll_recorded (c : Client) (net : Network τ) (action : ApiAction)
    (body : Nat → Json) (decode : List (String × Json) → Option (Page α)) (limit : Nat)
    (exhausted : ClientError) (s : τ) (exchanges : List Exchange) :
    ∃ result s' sent,
      Page.collectAll limit (fun o => c.call net.recorded action (body o) decode) exhausted
        (s, exchanges) = (result, s', exchanges ++ sent) ∧
      (∀ k x, sent[k]? = some x → c.Makes action (body (k * limit)) x.request) ∧
      (0 < Page.budget limit → c.Ready net action → sent ≠ []) ∧
      (∀ e, result = .error e → e = exhausted ∨ ∀ name text, e ≠ .invalidRequest name text) := by
  obtain ⟨sent, hsent, hasks, hne⟩ := Page.collect_record limit
    (fun o => call_recorded_cases c net action (body o) decode) exhausted (Page.budget limit) 0
    (s, exchanges)
  rcases hrecorded : Page.collect limit (fun o => c.call net.recorded action (body o) decode)
    exhausted (Page.budget limit) 0 (s, exchanges) with ⟨result, s', record⟩
  rw [hrecorded] at hsent
  obtain rfl : record = exchanges ++ sent := hsent
  refine ⟨result, s', sent, hrecorded, ?_, ?_, ?_⟩
  · intro k x hk
    simpa using hasks k x hk
  · intro hbudget hready
    exact hne hbudget (hready.call_recorded_ne _ decode _)
  · intro e he
    have hpage : ∀ o t e, (c.call net.recorded action (body o) decode t).1 = .error e →
        e = exhausted ∨ ∀ name text, e ≠ .invalidRequest name text := by
      intro o t e he
      obtain ⟨result, s', sent, -, hcall, hsends⟩ :=
        call_recorded c net action (body o) decode t.1 t.2
      rw [hcall] at he
      exact Or.inr (hsends.error_cause he)
    apply Page.collect_error_cause hpage (Or.inl rfl)
    rw [hrecorded, he]

end Client

end DbInventory
