/-
# DbInventory.Proofs.Secrecy -- what secrets leave no trace in

Two clients of one identifier, region and address may differ in their secret key and in their
token (`Client.SameButSecrets`). Their requests then differ in two headers only, which are left
out of the bare request (`HttpRequest.bare`), and one is refused just when the other is: a
signature is written in hexadecimal digits, and a token has passed as the text of a header. On
a network that does not look at those two headers (`Network.Blind`) their calls agree, and so do
whole listings, look-ups and reads. The exchanges on the way have the same bare requests and the
same answers (`secrets_unseen`).
-/

import DbInventory.Proofs.Alike
import DbInventory.Proofs.Api.Completeness
import DbInventory.Proofs.Listing.Wire

namespace DbInventory

variable {α τ : Type}

/-! ## Bare requests -/

/-- The headers that a secret goes into. -/
def secretHeaders : List String := ["Authorization", "X-TC-Token"]

/-- The request without the headers that a secret goes into. -/
def HttpRequest.bare (r : HttpRequest) : HttpRequest :=
  { r with headers := r.headers.filter fun h => !secretHeaders.contains h.1 }

/-- A bare request still has the address and the body. -/
theorem HttpRequest.same_of_bare {r r' : HttpRequest} (h : r.bare = r'.bare) :
    r.url = r'.url ∧ r.body = r'.body := by
  have hurl := congrArg HttpRequest.url h
  have hbody := congrArg HttpRequest.body h
  exact ⟨hurl, hbody⟩

/-- The exchange with its bare request. -/
def Exchange.bare (x : Exchange) : HttpRequest × Except SendFault HttpReply :=
  (x.request.bare, x.answer)

/-- A network whose moments and answers do not depend on the headers that a secret goes into. Its
states may hold all of a request, so they need not be equal, but related. -/
structure Network.Blind (net : Network τ) (R : τ → τ → Prop) : Prop where
  now : ∀ s s', R s s' → Agree R (net.now s) (net.now s')
  send : ∀ (r r' : HttpRequest) s s', r.bare = r'.bare → R s s' →
    Agree R (net.send r s) (net.send r' s')

/-- A network that answers requests alike if they are the same but for the two headers. -/
theorem Network.blind_of_send_eq {net : Network τ}
    (h : ∀ (r r' : HttpRequest) s, r.bare = r'.bare → net.send r s = net.send r' s) :
    net.Blind Eq where
  now := by
    rintro s _ rfl
    exact ⟨rfl, rfl⟩
  send := by
    rintro r r' s _ hbare rfl
    rw [h r r' s hbare]
    exact ⟨rfl, rfl⟩

/-- States of a recording network with the same exchanges, but for the secrets in them. -/
def RecordedAlike (R : τ → τ → Prop) (t t' : τ × List Exchange) : Prop :=
  R t.1 t'.1 ∧ t.2.map Exchange.bare = t'.2.map Exchange.bare

theorem Network.Blind.recorded {net : Network τ} {R : τ → τ → Prop} (h : net.Blind R) :
    net.recorded.Blind (RecordedAlike R) where
  now := by
    rintro ⟨s, sent⟩ ⟨s', sent'⟩ ⟨hs, hsent⟩
    exact ⟨(h.now s s' hs).answer, (h.now s s' hs).state, hsent⟩
  send := by
    rintro r r' ⟨s, sent⟩ ⟨s', sent'⟩ hbare ⟨hs, hsent⟩
    obtain ⟨hanswer, hstate⟩ := h.send r r' s s' hbare hs
    refine ⟨hanswer, hstate, ?_⟩
    simp only [recorded_send, List.map_append, hsent, List.map_cons, List.map_nil, Exchange.bare,
      hbare, hanswer]

/-! ## Requests -/

namespace Client

/-- Clients that differ in their secrets only, with tokens that headers can hold. -/
structure SameButSecrets (c c' : Client) : Prop where
  secretId : c.credential.secretId = c'.credential.secretId
  region : c.region = c'.region
  baseUrl : c.baseUrl = c'.baseUrl
  token : ∀ t ∈ c.credential.token, isHeaderText t = true
  token' : ∀ t ∈ c'.credential.token, isHeaderText t = true

variable {c c' : Client} {net : Network τ} {R : τ → τ → Prop} {action : ApiAction} {body : Json}
  {url : Url} {host : String} {timestamp : Int64}

theorem SameButSecrets.address (h : c.SameButSecrets c') (service : String) :
    c.address service = c'.address service := by
  unfold Client.address endpoint
  rw [h.baseUrl]

/-- What a client shows of itself tells no more of its secrets than whether there is a token. -/
theorem SameButSecrets.shown_eq (h : c.SameButSecrets c')
    (htoken : c.credential.token.isSome = c'.credential.token.isSome) : c.shown = c'.shown := by
  have hcredential : c.credential.shown = c'.credential.shown := by
    unfold Credential.shown
    rw [h.secretId, htoken]
  unfold shown
  rw [hcredential, h.region]

/-- Whether an authorization is text does not depend on the key: a signature is always text. -/
theorem isHeaderText_authorizationOn_key (secretId key key' : String) (timestamp : Int64)
    (date service canonical : String) :
    isHeaderText (authorizationOn secretId key timestamp date service canonical) =
      isHeaderText (authorizationOn secretId key' timestamp date service canonical) := by
  simp only [authorizationOn, isHeaderText_append, isHeaderText_hexBytes]

/-- The headers that no secret goes into. -/
def plainHeaders (c : Client) (action : ApiAction) (timestamp : Int64) : List (String × String) :=
  [("Content-Type", contentType), ("X-TC-Action", action.name), ("X-TC-Version", action.version),
    ("X-TC-Timestamp", toString timestamp.toInt), ("X-TC-Region", c.region)]

theorem filter_headers (c : Client) (action : ApiAction) (timestamp : Int64)
    (authorization : String) :
    (c.headers action timestamp authorization).filter (fun h => !secretHeaders.contains h.1) =
      c.plainHeaders action timestamp := by
  unfold headers
  cases c.credential.token with
  | none => rfl
  | some token => rfl

/-- A token that headers can hold refuses no request. -/
theorem any_headers (htoken : ∀ t ∈ c.credential.token, isHeaderText t = true)
    (authorization : String) :
    ((c.headers action timestamp authorization).any fun h => !isHeaderText h.2) =
      (!isHeaderText authorization ||
        (c.plainHeaders action timestamp).any fun h => !isHeaderText h.2) := by
  unfold headers plainHeaders
  cases ht : c.credential.token with
  | none => simp [Bool.or_left_comm]
  | some token => simp [Bool.or_left_comm, htoken token ht]

/-- **The requests of the two clients differ in the two headers only**, and the headers of one
can be sent just when those of the other can. -/
theorem SameButSecrets.request (h : c.SameButSecrets c') (action : ApiAction) (body : Json)
    (url : Url) (host : String) (timestamp : Int64) :
    (∃ e, c.request action body url host timestamp = .error e ∧
      c'.request action body url host timestamp = .error e) ∨
    ∃ r r', c.request action body url host timestamp = .ok r ∧
      c'.request action body url host timestamp = .ok r' ∧ r.bare = r'.bare ∧
      (r.headers.any fun h => !isHeaderText h.2) = r'.headers.any fun h => !isHeaderText h.2 := by
  cases hdate : dateOfSeconds? timestamp with
  | none =>
    simp only [Client.request, Client.authorization, SigningRequest.authorization?, hdate,
      Option.map_none]
    exact .inl ⟨_, rfl, rfl⟩
  | some date =>
    simp only [Client.request, Client.authorization, SigningRequest.authorization?, hdate,
      Option.map_some]
    -- from here on the key is in the signature, and nowhere else
    refine .inr ⟨_, _, rfl, rfl, ?_, ?_⟩
    · simp only [HttpRequest.bare, List.filter_append, filter_headers, plainHeaders, h.region]
    · simp only [List.any_append, any_headers h.token, any_headers h.token', plainHeaders,
        h.region, h.secretId]
      rw [isHeaderText_authorizationOn_key]

/-! ## Calls -/

/-- Posts of requests that are the same but for secrets agree. -/
theorem post_agree (hnet : net.Blind R) {r r' : HttpRequest} (hbare : r.bare = r'.bare)
    (hheaders : (r.headers.any fun h => !isHeaderText h.2) =
      r'.headers.any fun h => !isHeaderText h.2) {s s' : τ} (hs : R s s') :
    Agree R (net.post r s) (net.post r' s') := by
  unfold Network.post
  rw [hheaders, (HttpRequest.same_of_bare hbare).1]
  split
  · exact ⟨rfl, hs⟩
  · split
    · exact ⟨rfl, hs⟩
    · obtain ⟨answer, t, t', hsend, hsend', ht⟩ := (hnet.send r r' s s' hbare hs).exists_eq
      rw [hsend, hsend']
      rcases answer with fault | reply
      · cases fault <;> exact ⟨rfl, ht⟩
      · exact ⟨rfl, ht⟩

/-- **Calls agree**, whatever they are for and however they end. -/
theorem SameButSecrets.call (h : c.SameButSecrets c') (hnet : net.Blind R) (action : ApiAction)
    (body : Json) (decode : List (String × Json) → Option α) {s s' : τ} (hs : R s s') :
    Agree R (c.call net action body decode s) (c'.call net action body decode s') := by
  unfold Client.call
  rw [h.address]
  cases c'.address action.service with
  | error e => exact ⟨rfl, hs⟩
  | ok found =>
    obtain ⟨url, host⟩ := found
    obtain ⟨timestamp, t, t', hnow, hnow', ht⟩ := (hnet.now s s' hs).exists_eq
    simp only [hnow, hnow']
    -- neither has a request at this moment, or both requests are kept back, or both are sent
    rcases h.request action body url host timestamp with
      ⟨e, hrequest, hrequest'⟩ | ⟨r, r', hrequest, hrequest', hbare, hheaders⟩
    · simp only [hrequest, hrequest']
      exact ⟨rfl, ht⟩
    · obtain ⟨answer, u, u', hpost, hpost', hu⟩ := (post_agree hnet hbare hheaders ht).exists_eq
      simp only [hrequest, hrequest', hpost, hpost']
      cases answer with
      | error fault => exact ⟨rfl, hu⟩
      | ok reply => exact ⟨rfl, hu⟩

/-! ## Listings and look-ups -/

theorem SameButSecrets.list (h : c.SameButSecrets c') (hnet : net.Blind R)
    (filter : InstanceFilter) {s s' : τ} (hs : R s s') :
    Agree R (c.list net filter s) (c'.list net filter s') := by
  unfold Client.list
  cases filter.projectId.filter (· < 0) with
  | some id => exact ⟨rfl, hs⟩
  | none =>
    exact Page.collect_agree (fun o _ _ => h.call hnet listAction (listBody filter o) instancePage?)
      _ _ 0 hs

theorem SameButSecrets.tags (h : c.SameButSecrets c') (hnet : net.Blind R) (query : TagQuery)
    {s s' : τ} (hs : R s s') : Agree R (c.tags net query s) (c'.tags net query s') := by
  have hpages : Agree R
      (Page.collectAll tagLimit (c.tagPage net query) (exhausted tagAction) s)
      (Page.collectAll tagLimit (c'.tagPage net query) (exhausted tagAction) s') :=
    Page.collect_agree (fun o _ _ => h.call hnet tagAction (tagBody query o) tagPage?) _ _ 0 hs
  obtain ⟨answer, t, t', htags, htags', ht⟩ := hpages.exists_eq
  simp only [Client.tags, htags, htags']
  cases answer with
  | error e => exact ⟨rfl, ht⟩
  | ok tags => exact ⟨rfl, ht⟩

/-- **The data sources of the two clients are alike.** -/
theorem SameButSecrets.listing (h : c.SameButSecrets c') (hnet : net.Blind R)
    (home : Option String) : Listing.Alike R (c.listing net home) (c'.listing net home) where
  list filter s s' hs := by
    simp only [listing_services, services_list]
    exact (h.list hnet filter hs).map (Except.mapError ClientError.toService)
  tags query s s' hs := by
    simp only [listing_services, services_tags]
    exact (h.tags hnet query hs).map (Except.mapError ClientError.toService)
  region := h.region
  home := rfl

/-- The data source of a name is unknown to both clients, or to neither. -/
theorem dataSource_cases (c c' : Client) (net : Network τ) (home : Option String) (name : String) :
    (∃ e, c.dataSource net home name = .error e ∧ c'.dataSource net home name = .error e) ∨
      c.dataSource net home name = .ok (c.listing net home) ∧
        c'.dataSource net home name = .ok (c'.listing net home) := by
  unfold dataSource
  split
  · exact .inr ⟨rfl, rfl⟩
  · exact .inl ⟨_, rfl, rfl⟩

/-! ## Secrets -/

/-- **Nothing tells two clients apart on a network.** From related states, their calls, listings
and look-ups give the same answers, down to the texts of errors, and their reads give the same
results and leave the same data and files; and related states are what they lead to. -/
structure Indistinct (net : Network τ) (R : τ → τ → Prop) (c c' : Client) : Prop where
  call : ∀ {α : Type} (action : ApiAction) (body : Json) (decode : List (String × Json) → Option α)
    (s s' : τ), R s s' →
    Agree R (c.call net action body decode s) (c'.call net action body decode s')
  list : ∀ (filter : InstanceFilter) (s s' : τ), R s s' →
    Agree R (c.list net filter s) (c'.list net filter s')
  tags : ∀ (query : TagQuery) (s s' : τ), R s s' →
    Agree R (c.tags net query s) (c'.tags net query s')
  read : ∀ (home : Option String) (name : String),
    (∃ e, c.dataSource net home name = .error e ∧ c'.dataSource net home name = .error e) ∨
    ∃ source source', c.dataSource net home name = .ok source ∧
      c'.dataSource net home name = .ok source' ∧
      (∀ (d : ResourceData) (s s' : τ) (files : FileTree), R s s' →
        ∃ result d' t t' files', source.read ⟨d, s, files⟩ = (result, ⟨d', t, files'⟩) ∧
          source'.read ⟨d, s', files⟩ = (result, ⟨d', t', files'⟩) ∧ R t t') ∧
      ∀ (config : Dict Json) (s s' : τ) (files : FileTree), R s s' →
        ∃ result t t' files', source.readConfig config s files = (result, t, files') ∧
          source'.readConfig config s' files = (result, t', files') ∧ R t t'

theorem SameButSecrets.indistinct (h : c.SameButSecrets c') (hnet : net.Blind R) :
    Indistinct net R c c' where
  call action body decode _ _ := h.call hnet action body decode
  list filter _ _ := h.list hnet filter
  tags query _ _ := h.tags hnet query
  read home name := by
    rcases dataSource_cases c c' net home name with hunknown | ⟨hsource, hsource'⟩
    · exact .inl hunknown
    · refine .inr ⟨_, _, hsource, hsource', ?_, ?_⟩
      · exact fun d _ _ files hs => (h.listing hnet home).read d hs files
      · exact fun config _ _ files hs => (h.listing hnet home).readConfig config hs files

end Client

/-- A client can be made of secrets that are set; an empty token is none. -/
theorem Client.of_eq_ok {secretId key : String} (hid : secretId ≠ "") (hkey : key ≠ "")
    (token : Option String) (region : String) (baseUrl : Option String) :
    Client.of (.of secretId key token) region baseUrl =
      .ok ⟨⟨secretId, key, token.filter (· ≠ "")⟩, region, baseUrl⟩ :=
  if_neg (not_or.2 ⟨hid, hkey⟩)

theorem isHeaderText_of_filter {token : Option String} (h : ∀ t ∈ token, isHeaderText t = true) :
    ∀ t ∈ token.filter (· ≠ ""), isHeaderText t = true :=
  fun t ht => h t (Option.filter_eq_some_iff.1 ht).1

/-- **Secrets are not seen.** Two clients that are made of one identifier, region and address, of
any keys that are set and any tokens that are absent, empty or text, are both refused with one
error, or on every network whose clock and answers do not look at the two headers nothing tells
them apart; and if the exchanges are recorded, they are the same but for those headers. -/
theorem secrets_unseen (key key' : String) (token token' : Option String) (hkey : key ≠ "")
    (hkey' : key' ≠ "") (htoken : ∀ t ∈ token, isHeaderText t = true)
    (htoken' : ∀ t ∈ token', isHeaderText t = true) (secretId region : String)
    (baseUrl : Option String) :
    (∃ e, Client.of (.of secretId key token) region baseUrl = .error e ∧
      Client.of (.of secretId key' token') region baseUrl = .error e) ∨
    ∃ c c', Client.of (.of secretId key token) region baseUrl = .ok c ∧
      Client.of (.of secretId key' token') region baseUrl = .ok c' ∧
      ∀ {τ : Type} (net : Network τ) (R : τ → τ → Prop), net.Blind R →
        Client.Indistinct net R c c' ∧
          Client.Indistinct net.recorded (RecordedAlike R) c c' := by
  by_cases hid : secretId = ""
  · exact .inl ⟨_, if_pos (.inl hid), if_pos (.inl hid)⟩
  · refine .inr ⟨_, _, Client.of_eq_ok hid hkey token region baseUrl,
      Client.of_eq_ok hid hkey' token' region baseUrl, fun net R hnet => ?_⟩
    have hsame : Client.SameButSecrets ⟨⟨secretId, key, token.filter (· ≠ "")⟩, region, baseUrl⟩
        ⟨⟨secretId, key', token'.filter (· ≠ "")⟩, region, baseUrl⟩ :=
      ⟨rfl, rfl, rfl, isHeaderText_of_filter htoken, isHeaderText_of_filter htoken'⟩
    exact ⟨hsame.indistinct hnet, hsame.indistinct hnet.recorded⟩

/-- Two keys, one with a token and one without, at a server that looks at the body only. -/
theorem secrets_unseen_oneInstance :
    oneInstanceServer.Blind Eq ∧
    ∃ c c', Client.of (.of "id" "key" none) "ap-guangzhou" none = .ok c ∧
      Client.of (.of "id" "another key" (some "token")) "ap-guangzhou" none = .ok c' ∧
      ∃ answer s s' sent sent',
        c.list oneInstanceServer.recorded noFilter ((), []) = (answer, s, sent) ∧
        c'.list oneInstanceServer.recorded noFilter ((), []) = (answer, s', sent') ∧
        sent.map Exchange.bare = sent'.map Exchange.bare := by
  have hblind : oneInstanceServer.Blind Eq := by
    refine Network.blind_of_send_eq fun r r' s hbare => ?_
    simp only [oneInstanceServer, instanceServer, holding, (HttpRequest.same_of_bare hbare).2]
  have htoken : ∀ t ∈ some "token", isHeaderText t = true := by
    intro t ht
    cases ht
    decide
  refine ⟨hblind, ?_⟩
  rcases secrets_unseen "key" "another key" none (some "token") (by decide) (by decide) (by simp)
    htoken "id" "ap-guangzhou" none with ⟨e, herror, -⟩ | ⟨c, c', hc, hc', hunseen⟩
  · cases (Client.of_eq_ok (by decide) (by decide) none "ap-guangzhou" none).symm.trans herror
  · refine ⟨c, c', hc, hc', ?_⟩
    obtain ⟨answer, ⟨s, sent⟩, ⟨s', sent'⟩, hlist, hlist', -, hsent⟩ :=
      ((hunseen _ _ hblind).2.list noFilter ((), []) ((), []) ⟨rfl, rfl⟩).exists_eq
    exact ⟨answer, s, s', sent, sent', hlist, hlist', hsent⟩

end DbInventory
