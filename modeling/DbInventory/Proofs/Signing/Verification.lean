/-
# DbInventory.Proofs.Signing.Verification -- what a receiver makes of a request

A receiver that knows the secret key can sign a request as it arrives: its path and query, its
content type, the host it names, its body and its moment. A client signs a request to the root of
the host, without a query, and posts it to its address as it stands. So the receiver gets the
authorization that it came with exactly if the address has no other path, no query and no user,
short of a collision of SHA-256 (`Client.Arrives`): a user would be sent as an authorization of
its own. The usual addresses have none of these. Every request of every call, listing, look-up
and read arrives so (`Client.requests_verify`); with any other address of one's own, requests are
posted that nobody has signed (`Client.misdirected_unverified`).
-/

import DbInventory.Proofs.Alike
import DbInventory.Proofs.Api.TagCollection
import DbInventory.Proofs.Listing.Wire
import DbInventory.Proofs.Signing.Binding

namespace DbInventory

open Sha256 (digest keyedDigest Collide)

/-! ## Keyed digests -/

namespace Sha256

variable {key a b : List UInt8}

/-- What the inner digest of a keyed digest is taken of. -/
def innerMessage (key message : List UInt8) : List UInt8 :=
  (blockKey key).map (· ^^^ 0x36) ++ message

/-- What the outer digest of a keyed digest is taken of. -/
def outerMessage (key message : List UInt8) : List UInt8 :=
  (blockKey key).map (· ^^^ 0x5c) ++ digest (innerMessage key message)

theorem keyedDigest_eq (key message : List UInt8) :
    keyedDigest key message = digest (outerMessage key message) := rfl

/-- **Messages with one keyed digest** are equal, or one of the two digests has a collision. -/
theorem keyedDigest_eq_iff :
    keyedDigest key a = keyedDigest key b ↔
      a = b ∨ Collide (innerMessage key a) (innerMessage key b) ∨
        Collide (outerMessage key a) (outerMessage key b) := by
  rw [keyedDigest_eq, keyedDigest_eq]
  constructor
  · intro h
    by_cases houter : outerMessage key a = outerMessage key b
    · have hdigest : digest (innerMessage key a) = digest (innerMessage key b) :=
        List.append_cancel_left houter
      by_cases hinner : innerMessage key a = innerMessage key b
      · exact .inl (List.append_cancel_left hinner)
      · exact .inr (.inl ⟨hinner, hdigest⟩)
    · exact .inr (.inr ⟨houter, h⟩)
  · rintro (rfl | hinner | houter)
    · rfl
    · rw [outerMessage, outerMessage, hinner.digest_eq]
    · exact houter.digest_eq

end Sha256

/-! ## Authorizations of two texts -/

section Forged

variable {secretId secretKey date service x y : String} {timestamp : Int64}

/-- A collision that gives two canonical texts one authorization: of the texts themselves, or of
what the keyed digest of the texts to sign is taken of. -/
inductive Forged (secretKey : String) (timestamp : Int64) (date service x y : String) : Prop where
  | canonical (h : Collide (Text.utf8 x) (Text.utf8 y))
  | inner (h : Collide
      (Sha256.innerMessage (signingKey secretKey date service)
        (Text.utf8 (stringToSign timestamp date service x)))
      (Sha256.innerMessage (signingKey secretKey date service)
        (Text.utf8 (stringToSign timestamp date service y))))
  | outer (h : Collide
      (Sha256.outerMessage (signingKey secretKey date service)
        (Text.utf8 (stringToSign timestamp date service x)))
      (Sha256.outerMessage (signingKey secretKey date service)
        (Text.utf8 (stringToSign timestamp date service y))))

/-- An authorization tells the keyed digest in it. -/
theorem authorizationOn_inj :
    authorizationOn secretId secretKey timestamp date service x =
        authorizationOn secretId secretKey timestamp date service y ↔
      keyedDigest (signingKey secretKey date service)
          (Text.utf8 (stringToSign timestamp date service x)) =
        keyedDigest (signingKey secretKey date service)
          (Text.utf8 (stringToSign timestamp date service y)) := by
  simp only [authorizationOn, String.append_right_inj, hexText_inj]

/-- Texts whose keyed digests are one are equal, or forged. -/
theorem keyedDigest_signed_eq_iff :
    keyedDigest (signingKey secretKey date service)
          (Text.utf8 (stringToSign timestamp date service x)) =
        keyedDigest (signingKey secretKey date service)
          (Text.utf8 (stringToSign timestamp date service y)) ↔
      x = y ∨ Forged secretKey timestamp date service x y := by
  have hsigned : Text.utf8 (stringToSign timestamp date service x) =
      Text.utf8 (stringToSign timestamp date service y) ↔
        digest (Text.utf8 x) = digest (Text.utf8 y) := by
    constructor
    · intro h
      exact ((stringToSign_inj fun _ => rfl).1 (Text.utf8_injective h)).2.2
    · intro h
      rw [(stringToSign_inj fun _ => rfl).2 ⟨rfl, rfl, h⟩]
  rw [Sha256.keyedDigest_eq_iff, hsigned]
  constructor
  · rintro (hdigest | hinner | houter)
    · by_cases htext : x = y
      · exact .inl htext
      · exact .inr (.canonical ⟨fun hbytes => htext (Text.utf8_injective hbytes), hdigest⟩)
    · exact .inr (.inner hinner)
    · exact .inr (.outer houter)
  · rintro (rfl | hcanonical | hinner | houter)
    · exact .inl rfl
    · exact .inl hcanonical.digest_eq
    · exact .inr (.inl hinner)
    · exact .inr (.inr houter)

/-- **Texts with one authorization** are equal, or forged. -/
theorem authorizationOn_eq_iff :
    authorizationOn secretId secretKey timestamp date service x =
        authorizationOn secretId secretKey timestamp date service y ↔
      x = y ∨ Forged secretKey timestamp date service x y := by
  rw [authorizationOn_inj, keyedDigest_signed_eq_iff]

end Forged

/-! ## Targets -/

namespace CanonicalRequest

/-- The same request to the root, without a query. -/
def toRoot (r : CanonicalRequest) : CanonicalRequest := { r with path := "/", query := "" }

/-- Only the root without a query is written as that: one character and the line break leave no
room for another path or for a query. -/
theorem target_eq_root_iff {path query : String} :
    path ++ "\n" ++ query = "/" ++ "\n" ++ "" ↔ path = "/" ∧ query = "" := by
  constructor
  · intro h
    have hchars : path.toList ++ '\n' :: query.toList = ['/', '\n'] := by
      simpa using congrArg String.toList h
    cases hpath : path.toList with
    | nil =>
      rw [hpath] at hchars
      exact absurd (List.cons.inj hchars).1 (by decide)
    | cons c rest =>
      rw [hpath, List.cons_append, List.cons.injEq] at hchars
      obtain ⟨rfl, hrest⟩ := hchars
      obtain ⟨rfl, hquery⟩ : rest = [] ∧ '\n' :: query.toList = ['\n'] := by
        rcases List.append_eq_singleton_iff.1 hrest with hempty | ⟨-, hnone⟩
        · exact hempty
        · cases hnone
      exact ⟨String.toList_injective hpath, String.toList_injective (List.cons.inj hquery).2⟩
  · rintro ⟨rfl, rfl⟩
    rfl

/-- **A canonical text tells whether it is one of the root.** -/
theorem text_eq_toRoot_iff {r : CanonicalRequest} :
    r.text = r.toRoot.text ↔ r.path = "/" ∧ r.query = "" := by
  have hparts : ∀ r : CanonicalRequest, r.text = r.method ++ "\n" ++ (r.path ++ "\n" ++ r.query) ++
      ("\n" ++ "content-type:" ++ r.contentType ++ "\n" ++ "host:" ++ r.host ++ "\n" ++ "\n" ++
        signedHeaders ++ "\n" ++ hexDigest r.payload) := by
    intro r
    simp only [text, String.append_assoc]
  rw [hparts, hparts, toRoot, String.append_left_inj, String.append_right_inj, target_eq_root_iff]

end CanonicalRequest

/-! ## Receivers -/

namespace HttpRequest

/-- The texts of all headers of a name, in order. -/
def headerTexts (r : HttpRequest) (name : String) : List String :=
  (r.headers.filter (·.1 = name)).map (·.2)

/-- The canonical form of a request as it arrives: it names a content type and a host. -/
def canonical? (r : HttpRequest) : Option CanonicalRequest := do
  let contentType ← r.header? "Content-Type"
  let host ← r.url.hostAndPort?
  some {
    method := "POST"
    path := r.url.path
    query := r.url.query.getD ""
    contentType
    host
    payload := r.body }

/-- The moment that a request names. -/
def timestamp? (r : HttpRequest) : Option Int64 :=
  (r.header? "X-TC-Timestamp").bind Text.int64OfDecimal?

/-- The authorization that a receiver forms for a request as it arrives, with a secret key and
for a service. -/
def recomputed? (r : HttpRequest) (credential : Credential) (service : String) :
    Option String := do
  let canonical ← r.canonical?
  let timestamp ← r.timestamp?
  let date ← dateOfSeconds? timestamp
  some (authorizationOn credential.secretId credential.secretKey timestamp date.text service
    canonical.text)

/-- The receiver forms the authorization that the request came with, and it came with no
other. -/
def Verifies (r : HttpRequest) (credential : Credential) (service : String) : Prop :=
  ∃ authorization, r.recomputed? credential service = some authorization ∧
    r.headerTexts "Authorization" = [authorization]

/-- What there is to sign in a request as it arrives. -/
structure Received (r : HttpRequest) (canonical : CanonicalRequest) (timestamp : Int64)
    (date : Date) : Prop where
  canonical_eq : r.canonical? = some canonical
  timestamp_eq : r.timestamp? = some timestamp
  date_eq : dateOfSeconds? timestamp = some date

/-- The request as it arrives and the same request to the root have one authorization, by a
collision of SHA-256. -/
def IsForged (r : HttpRequest) (credential : Credential) (service : String) : Prop :=
  ∃ canonical timestamp date, r.Received canonical timestamp date ∧
    Forged credential.secretKey timestamp date.text service canonical.text canonical.toRoot.text

variable {r : HttpRequest} {canonical : CanonicalRequest} {timestamp : Int64} {date : Date}

theorem Received.recomputed (h : r.Received canonical timestamp date) (credential : Credential)
    (service : String) :
    r.recomputed? credential service =
      some (authorizationOn credential.secretId credential.secretKey timestamp date.text service
        canonical.text) := by
  rw [recomputed?, h.canonical_eq, h.timestamp_eq]
  show (dateOfSeconds? timestamp >>= _) = _
  rw [h.date_eq]
  rfl

theorem Received.isForged_iff (h : r.Received canonical timestamp date) {credential : Credential}
    {service : String} :
    r.IsForged credential service ↔
      Forged credential.secretKey timestamp date.text service canonical.text
        canonical.toRoot.text := by
  constructor
  · rintro ⟨canonical', timestamp', date', h', hforged⟩
    obtain rfl := Option.some.inj (h.canonical_eq.symm.trans h'.canonical_eq)
    obtain rfl := Option.some.inj (h.timestamp_eq.symm.trans h'.timestamp_eq)
    obtain rfl := Option.some.inj (h.date_eq.symm.trans h'.date_eq)
    exact hforged
  · exact fun hforged => ⟨canonical, timestamp, date, h, hforged⟩

end HttpRequest

/-! ## Addresses -/

namespace Url

/-- Sending leaves out the user, and nothing that is signed. -/
theorem sendAddress_signed (u : Url) :
    u.sendAddress.hostAndPort? = u.hostAndPort? ∧ u.sendAddress.path = u.path ∧
      u.sendAddress.query = u.query := by
  unfold sendAddress
  split
  · exact ⟨rfl, rfl, rfl⟩
  · exact ⟨rfl, rfl, rfl⟩

theorem userHeaders_eq_nil_iff {u : Url} : u.userHeaders = [] ↔ u.userAndPassword? = none := by
  unfold userHeaders
  split
  next h => simp [h]
  next h => simp [h]

end Url

namespace Client

variable {τ : Type} {c : Client} {net : Network τ} {action : ApiAction} {body : Json}
  {request : HttpRequest} {url : Url} {host service : String} {timestamp : Int64}

theorem hostAndPort?_of_address (h : c.address service = .ok (url, host)) :
    url.hostAndPort? = some host := by
  unfold address at h
  simp only at h
  split at h
  · cases h
  · split at h
    · cases h
    next hhost => cases h; exact hhost

/-- The address of a service is the root of its host, without a query and without a user. -/
def PostsToRoot (c : Client) (service : String) : Prop :=
  ∃ url host, c.address service = .ok (url, host) ∧ url.userAndPassword? = none ∧
    url.path = "/" ∧ url.query.getD "" = ""

theorem postsToRoot_iff (h : c.address service = .ok (url, host)) :
    c.PostsToRoot service ↔
      url.userAndPassword? = none ∧ url.path = "/" ∧ url.query.getD "" = "" := by
  constructor
  · rintro ⟨url', host', h', hroot⟩
    obtain ⟨rfl, -⟩ := Prod.mk.inj (Except.ok.inj (h.symm.trans h'))
    exact hroot
  · exact fun hroot => ⟨url, host, h, hroot⟩

/-- The usual addresses of both services are roots. -/
theorem postsToRoot_of_usual (h : c.baseUrl = none) :
    c.PostsToRoot listAction.service ∧ c.PostsToRoot tagAction.service := by
  have hsame : ∀ service, c.address service = usualClient.address service := by
    intro service
    simp only [address, endpoint, h, usualClient]
  constructor
  · exact ⟨usualUrl, _, (hsame _).trans usualClient_address, by decide +kernel, rfl, rfl⟩
  · exact ⟨tagUrl, _, (hsame _).trans usualClient_tagAddress, by decide +kernel, rfl, rfl⟩

/-- A root of one's own, with a port and in capital letters. -/
example : Client.PostsToRoot { usualClient with baseUrl := some "HTTP://LocalHost:8080" }
    "sqlserver" :=
  ⟨⟨"http", "", none, some (.domain "localhost"), some 8080, "/", none, none⟩, "localhost:8080",
    toOption_eq_some_iff.1 (by decide +kernel), by decide +kernel, rfl, rfl⟩

/-! ## Requests as they arrive -/

/-- A client gives one authorization of its own. -/
theorem authorizations_headers (c : Client) (action : ApiAction) (timestamp : Int64)
    (authorization : String) :
    (c.headers action timestamp authorization).filter (·.1 = "Authorization") =
      [("Authorization", authorization)] := by
  unfold headers
  cases c.credential.token <;> rfl

/-- All that is sent of a user is an authorization. -/
theorem authorizations_userHeaders (u : Url) :
    u.userHeaders.filter (·.1 = "Authorization") = u.userHeaders := by
  unfold Url.userHeaders
  split <;> rfl

/-- What a client signs for an action and a body. -/
def signing (action : ApiAction) (body : Json) (host : String) (timestamp : Int64) :
    SigningRequest :=
  { service := action.service, host, payload := Text.utf8 body.compactText, timestamp }

/-- The canonical form of a signed request, at the address that it is posted to. -/
def arriving (action : ApiAction) (body : Json) (host : String) (timestamp : Int64) (url : Url) :
    CanonicalRequest :=
  { (signing action body host timestamp).canonical with
    path := url.path, query := url.query.getD "" }

theorem toRoot_arriving (action : ApiAction) (body : Json) (host : String) (timestamp : Int64)
    (url : Url) :
    (arriving action body host timestamp url).toRoot =
      (signing action body host timestamp).canonical := rfl

/-- What a receiver finds in a request that a client made for an address. -/
theorem received_of_request (haddress : c.address action.service = .ok (url, host))
    (hrequest : c.request action body url host timestamp = .ok request) :
    ∃ date, request.Received (arriving action body host timestamp url) timestamp date ∧
      request.headerTexts "Authorization" = url.userHeaders.map (·.2) ++
        [authorizationOn c.credential.secretId c.credential.secretKey timestamp date.text
          action.service (arriving action body host timestamp url).toRoot.text] := by
  obtain ⟨authorization, hauthorization, rfl⟩ := request_eq_ok_iff.1 hrequest
  cases hdate : dateOfSeconds? timestamp with
  | none =>
    simp only [Client.authorization, SigningRequest.authorization?, hdate, Option.map_none]
      at hauthorization
    cases hauthorization
  | some date =>
    simp only [Client.authorization, SigningRequest.authorization?, hdate, Option.map_some,
      Except.ok.injEq] at hauthorization
    have hheader : ∀ name text, name ≠ "Authorization" →
        (c.headers action timestamp authorization).lookup name = some text →
        (url.userHeaders ++ c.headers action timestamp authorization).lookup name = some text := by
      intro name text hname htext
      rw [List.lookup_append, lookup_userHeaders url hname, Option.none_or, htext]
    obtain ⟨hhost, hpath, hquery⟩ := url.sendAddress_signed
    refine ⟨date, ⟨?_, ?_, hdate⟩, ?_⟩
    · rw [HttpRequest.canonical?, HttpRequest.header?, hheader _ contentType (by decide) rfl,
        hhost, hpath, hquery, hostAndPort?_of_address haddress]
      rfl
    · rw [HttpRequest.timestamp?, HttpRequest.header?,
        hheader _ (toString timestamp.toInt) (by decide) rfl, Option.bind_some,
        Text.int64OfDecimal?_decimal]
    · rw [HttpRequest.headerTexts, List.filter_append, authorizations_userHeaders,
        authorizations_headers, List.map_append, toRoot_arriving, ← hauthorization]
      rfl

/-- A receiver can sign every request that a client made, and forms the authorization that it
came with exactly if no user is sent and the canonical form that arrives is signed as that of the
root. -/
theorem verifies_iff_of_request (haddress : c.address action.service = .ok (url, host))
    (hrequest : c.request action body url host timestamp = .ok request) :
    (∃ authorization,
      request.recomputed? c.credential action.service = some authorization) ∧
    (request.Verifies c.credential action.service ↔
      url.userAndPassword? = none ∧
        (url.path = "/" ∧ url.query.getD "" = "" ∨
          request.IsForged c.credential action.service)) := by
  obtain ⟨date, hreceived, htexts⟩ := received_of_request haddress hrequest
  have hrecomputed := hreceived.recomputed c.credential action.service
  refine ⟨⟨_, hrecomputed⟩, ?_⟩
  have hsingle : request.Verifies c.credential action.service ↔
      url.userHeaders = [] ∧
        authorizationOn c.credential.secretId c.credential.secretKey timestamp date.text
            action.service (arriving action body host timestamp url).text =
          authorizationOn c.credential.secretId c.credential.secretKey timestamp date.text
            action.service (arriving action body host timestamp url).toRoot.text := by
    rw [HttpRequest.Verifies, hrecomputed, htexts]
    constructor
    · rintro ⟨authorization, hsome, hlist⟩
      obtain rfl := Option.some.inj hsome
      rcases List.append_eq_singleton_iff.1 hlist with ⟨hnil, hone⟩ | ⟨-, hnone⟩
      · exact ⟨List.map_eq_nil_iff.1 hnil, (List.cons.inj hone).1.symm⟩
      · cases hnone
    · rintro ⟨hnil, hsame⟩
      refine ⟨_, rfl, ?_⟩
      rw [hnil, hsame]
      rfl
  rw [hsingle, Url.userHeaders_eq_nil_iff, authorizationOn_eq_iff,
    CanonicalRequest.text_eq_toRoot_iff, hreceived.isForged_iff]
  rfl

/-- How a request for an action arrives. A receiver can sign it, and forms the authorization that
it came with if the address of the service is a root, and otherwise only by a collision. -/
structure Arrives (c : Client) (action : ApiAction) (r : HttpRequest) : Prop where
  action_eq : r.header? "X-TC-Action" = some action.name
  signable : ∃ authorization, r.recomputed? c.credential action.service = some authorization
  verifies : c.PostsToRoot action.service → r.Verifies c.credential action.service
  root : r.Verifies c.credential action.service →
    c.PostsToRoot action.service ∨ r.IsForged c.credential action.service

/-- **Every request that a client makes arrives so.** -/
theorem Makes.arrives (h : c.Makes action body request) : c.Arrives action request := by
  have haction := h.carries.action
  obtain ⟨url, host, timestamp, haddress, hrequest⟩ := h
  obtain ⟨hsignable, hiff⟩ := verifies_iff_of_request haddress hrequest
  refine ⟨haction, hsignable, ?_, ?_⟩
  · intro hroot
    obtain ⟨huser, htarget⟩ := (postsToRoot_iff haddress).1 hroot
    exact hiff.2 ⟨huser, .inl htarget⟩
  · intro hverifies
    obtain ⟨huser, htarget⟩ := hiff.1 hverifies
    exact htarget.imp_left fun htarget => (postsToRoot_iff haddress).2 ⟨huser, htarget⟩

/-! ## Requests of runs -/

theorem call_arrives {α : Type} (c : Client) (net : Network τ) (action : ApiAction) (body : Json)
    (decode : List (String × Json) → Option α) (s : τ) :
    ∀ x ∈ (c.call net.recorded action body decode (s, [])).2.2, c.Arrives action x.request := by
  obtain ⟨sent, hsent, hcases⟩ := call_recorded_cases c net action body decode (s, [])
  rw [hsent, List.nil_append]
  rcases hcases with ⟨rfl, -⟩ | ⟨x, rfl, hmakes⟩
  · simp
  · intro y hy
    rw [List.mem_singleton.1 hy]
    exact hmakes.arrives

/-- A listing adds requests for listings to a record. -/
theorem list_arrives (c : Client) (net : Network τ) (filter : InstanceFilter)
    (t : τ × List Exchange) :
    ∃ sent, (c.list net.recorded filter t).2.2 = t.2 ++ sent ∧
      ∀ x ∈ sent, c.Arrives listAction x.request := by
  by_cases hproject : ∀ p ∈ filter.projectId, 0 ≤ p
  · obtain ⟨result, s', sent, hrecorded, hmakes, -, -⟩ := list_recorded c net hproject t.1 t.2
    refine ⟨sent, by rw [hrecorded], ?_⟩
    intro x hx
    obtain ⟨k, hk⟩ := List.getElem?_of_mem hx
    exact (hmakes k x hk).arrives
  · obtain ⟨p, hp, hneg⟩ : ∃ p, filter.projectId = some p ∧ p < 0 := by
      simpa using hproject
    refine ⟨[], ?_, by simp⟩
    rw [list_of_negative c net.recorded hp hneg, List.append_nil]

/-- A look-up adds requests for tags to a record. -/
theorem tags_arrive (c : Client) (net : Network τ) (query : TagQuery) (t : τ × List Exchange) :
    ∃ sent, (c.tags net.recorded query t).2.2 = t.2 ++ sent ∧
      ∀ x ∈ sent, c.Arrives tagAction x.request := by
  obtain ⟨result, s', sent, hrecorded, hmakes, -⟩ := tags_recorded c net query t.1 t.2
  refine ⟨sent, by rw [hrecorded], ?_⟩
  intro x hx
  obtain ⟨body, hbody⟩ := hmakes x hx
  exact hbody.arrives

theorem readConfig_arrives (c : Client) (net : Network τ) (home : Option String)
    (config : Dict Json) (s : τ) (files : FileTree) :
    ∀ x ∈ ((c.listing net.recorded home).readConfig config (s, []) files).2.1.2,
      c.Arrives listAction x.request ∨ c.Arrives tagAction x.request := by
  refine Listing.readConfig_keeps (P := fun t : τ × List Exchange => ∀ x ∈ t.2,
    c.Arrives listAction x.request ∨ c.Arrives tagAction x.request) ?_ ?_ config (by simp) files
  · intro filter t ht
    obtain ⟨sent, hsent, harrives⟩ := list_arrives c net filter t
    rw [listing_services, services_list, hsent]
    intro x hx
    exact (List.mem_append.1 hx).elim (ht x) fun hx => .inl (harrives x hx)
  · intro query t ht
    obtain ⟨sent, hsent, harrives⟩ := tags_arrive c net query t
    rw [listing_services, services_tags, hsent]
    intro x hx
    exact (List.mem_append.1 hx).elim (ht x) fun hx => .inr (harrives x hx)

/-- **Requests posted to a root are the requests that were signed.** Whatever the server answers,
a receiver can sign every request of every call, listing, look-up and read, and forms the
authorization that it came with exactly if the address of its service is a root, short of a
collision of SHA-256. The usual addresses are roots. -/
theorem requests_verify (c : Client) (net : Network τ) (home : Option String) (s : τ) :
    (∀ {α : Type} (action : ApiAction) (body : Json) (decode : List (String × Json) → Option α),
      ∀ x ∈ (c.call net.recorded action body decode (s, [])).2.2, c.Arrives action x.request) ∧
    (∀ filter, ∀ x ∈ (c.list net.recorded filter (s, [])).2.2,
      c.Arrives listAction x.request) ∧
    (∀ query, ∀ x ∈ (c.tags net.recorded query (s, [])).2.2, c.Arrives tagAction x.request) ∧
    (∀ config files,
      ∀ x ∈ ((c.listing net.recorded home).readConfig config (s, []) files).2.1.2,
        c.Arrives listAction x.request ∨ c.Arrives tagAction x.request) ∧
    (c.baseUrl = none → c.PostsToRoot listAction.service ∧ c.PostsToRoot tagAction.service) := by
  refine ⟨fun action body decode => call_arrives c net action body decode s, ?_, ?_,
    fun config files => readConfig_arrives c net home config s files, postsToRoot_of_usual⟩
  · intro filter
    obtain ⟨sent, hsent, harrives⟩ := list_arrives c net filter (s, [])
    rw [hsent]
    exact harrives
  · intro query
    obtain ⟨sent, hsent, harrives⟩ := tags_arrive c net query (s, [])
    rw [hsent]
    exact harrives

end Client

/-- The usual client lists, and its request arrives with the authorization that a receiver
forms. -/
theorem requests_verify_usual :
    usualClient.baseUrl = none ∧
    ∃ x, x ∈ (usualClient.list oneInstanceServer.recorded noFilter ((), [])).2.2 ∧
      usualClient.PostsToRoot Client.listAction.service ∧
      x.request.Verifies usualClient.credential Client.listAction.service := by
  refine ⟨rfl, ?_⟩
  obtain ⟨-, hlist, -, -, husual⟩ := Client.requests_verify usualClient oneInstanceServer none ()
  have hproject : ∀ p ∈ noFilter.projectId, 0 ≤ p := by simp [noFilter]
  obtain ⟨result, s', sent, hrecorded, -, hne, -⟩ :=
    Client.list_recorded usualClient oneInstanceServer hproject () []
  obtain ⟨x, rest, rfl⟩ := List.exists_cons_of_ne_nil (hne (usualClient_ready fun _ => rfl))
  have hx : x ∈ (usualClient.list oneInstanceServer.recorded noFilter ((), [])).2.2 := by
    rw [hrecorded]
    exact List.mem_cons_self
  have hroot := (husual rfl).1
  exact ⟨x, hx, hroot, (hlist noFilter x hx).verifies hroot⟩

/-! ### An address with a path -/

/-- A client of an address with a path and a query. -/
def misdirectedClient : Client := { usualClient with baseUrl := some "http://127.0.0.1:1/v3?x=1" }

def misdirectedUrl : Url where
  scheme := "http"
  username := ""
  password := none
  host := some (.ipv4 0x7F000001)
  port := some 1
  path := "/v3"
  query := some "x=1"
  fragment := none

theorem misdirectedClient_address :
    misdirectedClient.address Client.listAction.service = .ok (misdirectedUrl, "127.0.0.1:1") :=
  toOption_eq_some_iff.1 (by decide +kernel)

theorem misdirectedClient_ready :
    misdirectedClient.Ready oneInstanceServer Client.listAction :=
  have hready : usualClient.Ready oneInstanceServer Client.listAction :=
    usualClient_ready fun _ => rfl
  { hready with
    address := ⟨misdirectedUrl, _, misdirectedClient_address, by decide +kernel⟩ }

/-- The canonical form of its first request, as it arrives. -/
def misdirectedForm : CanonicalRequest :=
  Client.arriving Client.listAction (Client.listBody noFilter 0) "127.0.0.1:1" 1700000000
    misdirectedUrl

/-- What arrives and what was signed have different keyed digests. The digests on the way are
written out, so that each is computed once. -/
theorem misdirectedForm_unsigned :
    keyedDigest (signingKey "secret" "2023-11-14" "sqlserver")
        (Text.utf8 (stringToSign 1700000000 "2023-11-14" "sqlserver" misdirectedForm.text)) ≠
      keyedDigest (signingKey "secret" "2023-11-14" "sqlserver")
        (Text.utf8
          (stringToSign 1700000000 "2023-11-14" "sqlserver" misdirectedForm.toRoot.text)) := by
  have hkey : signingKey "secret" "2023-11-14" "sqlserver" =
      [128, 124, 62, 138, 119, 132, 212, 105, 227, 212, 206, 155, 222, 15, 7, 22, 77, 181, 42, 160,
        214, 139, 110, 162, 52, 228, 84, 76, 146, 134, 82, 105] := by decide +kernel
  have hpayload : hexDigest misdirectedForm.payload =
      "a1f447256f265a34e97dec7c1d9f073fa04455d9302cab622949c6d3c18af141" := by decide +kernel
  have hposted : hexDigest (Text.utf8 misdirectedForm.text) =
      "19ee2fd0d062ea57a68606856d0987157ca0fc6744bdaa067ad4ba41eff7be8e" := by
    rw [CanonicalRequest.text, hpayload]
    decide +kernel
  have hsigned : hexDigest (Text.utf8 misdirectedForm.toRoot.text) =
      "cd1bcf38c1f9120f79c83b30f88252153d9333f4e0e3414cc9183889911aecc9" := by
    have hsame : hexDigest misdirectedForm.toRoot.payload = hexDigest misdirectedForm.payload := rfl
    rw [CanonicalRequest.text, hsame, hpayload]
    decide +kernel
  rw [hkey, stringToSign, stringToSign, hposted, hsigned]
  decide +kernel

/-- **A request that nobody has signed.** The client signs a request to the root and posts it to
its path with the query, so a receiver forms another authorization than the request comes with. -/
theorem Client.misdirected_unverified :
    ∃ x, (misdirectedClient.listPage oneInstanceServer.recorded noFilter 0 ((), [])).2.2 = [x] ∧
      x.request.url = misdirectedUrl ∧
      ¬x.request.Verifies misdirectedClient.credential Client.listAction.service := by
  obtain ⟨url, host, request, haddress, hrequest, -, hheaders, hsendable⟩ :=
    exists_request misdirectedClient_ready.recorded (listBody noFilter 0) ((), [])
  obtain ⟨rfl, rfl⟩ :=
    Prod.mk.inj (Except.ok.inj (misdirectedClient_address.symm.trans haddress))
  have hpage : misdirectedClient.listPage oneInstanceServer.recorded noFilter 0 ((), []) = _ :=
    call_of_sent haddress hrequest (by simp [hheaders]) (by simp [hsendable]) instancePage?
  refine ⟨⟨request, _⟩, by rw [hpage]; rfl, ?_, ?_⟩
  · obtain ⟨authorization, -, rfl⟩ := request_eq_ok_iff.1 hrequest
    show misdirectedUrl.sendAddress = misdirectedUrl
    decide +kernel
  · intro hverifies
    obtain ⟨date, hreceived, -⟩ := received_of_request haddress hrequest
    obtain rfl : (⟨2023, 11, 14⟩ : Date) = date := by
      have hdate : dateOfSeconds? 1700000000 = some ⟨2023, 11, 14⟩ := by decide
      exact Option.some.inj (hdate.symm.trans hreceived.date_eq)
    rcases ((verifies_iff_of_request haddress hrequest).2.1 hverifies).2 with ⟨hpath, -⟩ | hforged
    · exact absurd hpath (by decide)
    · have hsame := keyedDigest_signed_eq_iff.2 (.inr (hreceived.isForged_iff.1 hforged))
      exact misdirectedForm_unsigned hsame

end DbInventory
