/-
# DbInventory.Proofs.Api.Sending -- calls that get as far as sending

Before a request goes out its address has to be found, its moment has to have a date, and
every header has to be text. `Client.Ready` names what that takes of a client and of the clock
of its network, and nothing else can keep a request from being sent: a ready call is one post
to the server, and the outcome of its reply (`call_of_ready`).
-/

import DbInventory.Api.Client

namespace DbInventory

/-! ## Header texts -/

@[simp]
theorem isHeaderText_append (s t : String) :
    isHeaderText (s ++ t) = (isHeaderText s && isHeaderText t) := by
  simp [isHeaderText]

theorem isHeaderText_ofList (l : List Char) :
    isHeaderText (String.ofList l) = l.all isHeaderChar := by
  simp [isHeaderText]

theorem isHeaderChar_of_isDigit {c : Char} (h : c.isDigit = true) : isHeaderChar c = true := by
  simp only [Char.isDigit, Bool.and_eq_true, decide_eq_true_eq, UInt32.le_iff_toNat_le] at h
  have hlow : ' ' ≤ c := by
    show (' ' : Char).val.toNat ≤ c.val.toNat
    have : ('0' : Char).val.toNat = 48 := rfl
    have : (' ' : Char).val.toNat = 32 := rfl
    omega
  have hne : c ≠ '\x7f' := by
    rintro rfl
    exact absurd h.2 (by decide)
  simp [isHeaderChar, hlow, hne]

theorem isHeaderText_natText (n : Nat) : isHeaderText (toString n) = true := by
  rw [Nat.toString_eq_ofList_toDigits, isHeaderText_ofList, List.all_eq_true]
  exact fun c hc => isHeaderChar_of_isDigit (Nat.isDigit_of_mem_toDigits (by decide) (by decide) hc)

theorem isHeaderText_intText (n : Int) : isHeaderText (toString n) = true := by
  cases n with
  | ofNat m => exact isHeaderText_natText m
  | negSucc m =>
    show isHeaderText ("-" ++ toString (m + 1)) = true
    rw [isHeaderText_append, isHeaderText_natText]
    decide

theorem isHeaderText_padded (width n : Nat) : isHeaderText (Date.padded width n) = true := by
  simp only [Date.padded, isHeaderText_append, isHeaderText_ofList, isHeaderText_natText,
    Bool.and_true, List.all_eq_true]
  intro c hc
  rw [List.eq_of_mem_replicate hc]
  decide

theorem isHeaderText_date (d : Date) : isHeaderText d.text = true := by
  have hsign : isHeaderText "-" = true := by decide
  have hplus : isHeaderText "+" = true := by decide
  have hyear : isHeaderText (Date.yearText d.year) = true := by
    simp only [Date.yearText]
    split
    · simp [hsign, isHeaderText_padded]
    · split <;> simp [hplus, isHeaderText_padded]
  simp [Date.text, hyear, hsign, isHeaderText_padded]

theorem isHeaderChar_hexDigit : ∀ n < 16, isHeaderChar (Text.hexDigit n) = true := by decide

theorem isHeaderText_hexBytes (bytes : List UInt8) :
    isHeaderText (String.ofList (Text.hexBytes bytes)) = true := by
  rw [isHeaderText_ofList, Text.hexBytes, List.all_flatMap, List.all_eq_true]
  intro b _
  have hb := b.toNat_lt
  simp [Text.hexByte, isHeaderChar_hexDigit _ (show b.toNat / 16 < 16 by omega),
    isHeaderChar_hexDigit _ (show b.toNat % 16 < 16 by omega)]

theorem isHeaderChar_base64Digit (n : Nat) : isHeaderChar (Text.base64Digit n) = true := by
  have h : ∀ m < 64, isHeaderChar (Text.base64Digits.getD m '=') = true := by decide +kernel
  exact h (n % 64) (Nat.mod_lt n (by decide))

theorem isHeaderText_base64 (bytes : List UInt8) :
    isHeaderText (String.ofList (Text.base64 bytes)) = true := by
  have hpad : isHeaderChar '=' = true := by decide
  rw [isHeaderText_ofList]
  fun_induction Text.base64 bytes with
  | case1 a b c rest n ih => simp [isHeaderChar_base64Digit, ih]
  | case2 a b n => simp [isHeaderChar_base64Digit, hpad]
  | case3 a n => simp [isHeaderChar_base64Digit, hpad]
  | case4 => rfl

/-- An authorization is text if the identifier in it and the service are. -/
theorem isHeaderText_authorizationOn {secretId service : String} (secretKey : String)
    (timestamp : Int64) (date : Date) (canonical : String)
    (hid : isHeaderText secretId = true) (hservice : isHeaderText service = true) :
    isHeaderText (authorizationOn secretId secretKey timestamp date.text service canonical) =
      true := by
  have hfixed : isHeaderText signingAlgorithm = true ∧ isHeaderText " Credential=" = true ∧
      isHeaderText "/" = true ∧ isHeaderText scopeEnd = true ∧
      isHeaderText ", SignedHeaders=" = true ∧ isHeaderText signedHeaders = true ∧
      isHeaderText ", Signature=" = true := by decide
  simp [authorizationOn, signingScope, hfixed, hid, hservice, isHeaderText_date,
    isHeaderText_hexBytes]

/-- The header of user and password is text. -/
theorem isHeaderText_userHeaders (u : Url) {header : String × String} (h : header ∈ u.userHeaders) :
    isHeaderText header.2 = true := by
  have hbasic : isHeaderText "Basic " = true := by decide
  rw [Url.userHeaders] at h
  split at h
  · rw [List.mem_singleton] at h
    simp [h, hbasic, isHeaderText_base64]
  · exact absurd h List.not_mem_nil

namespace Client

variable {α τ : Type} {c : Client} {net : Network τ} {action : ApiAction}

/-! ## Calls that are ready -/

/-- Nothing keeps the requests of an action from being sent: the service has an address, what
goes into the headers is text, and every moment of the clock has a date. -/
structure Ready (c : Client) (net : Network τ) (action : ApiAction) : Prop where
  address : ∃ url host, c.address action.service = .ok (url, host) ∧
    url.sendAddress.isSendable = true
  action : isHeaderText action.service = true ∧ isHeaderText action.name = true ∧
    isHeaderText action.version = true
  secretId : isHeaderText c.credential.secretId = true
  region : isHeaderText c.region = true
  token : ∀ token ∈ c.credential.token, isHeaderText token = true
  clock : ∀ s, datedSeconds (net.now s).1 = true

theorem isHeaderText_headers (h : c.Ready net action) (timestamp : Int64) {authorization : String}
    (hauth : isHeaderText authorization = true) :
    ∀ header ∈ c.headers action timestamp authorization, isHeaderText header.2 = true := by
  have htype : isHeaderText contentType = true := by decide
  intro header hmem
  simp only [headers, List.mem_append, List.mem_cons, List.not_mem_nil, or_false] at hmem
  rcases hmem with (rfl | rfl | rfl | rfl | rfl | rfl) | htoken
  · exact htype
  · exact hauth
  · exact h.action.2.1
  · exact h.action.2.2
  · exact isHeaderText_intText _
  · exact h.region
  · split at htoken
    next token hsome =>
      rw [List.mem_singleton] at htoken
      rw [htoken]
      exact h.token token hsome
    next => exact absurd htoken List.not_mem_nil

/-- What a request says of its action and its body. -/
structure Carries (request : HttpRequest) (action : ApiAction) (body : Json) : Prop where
  action : request.header? "X-TC-Action" = some action.name
  body : request.body = Text.utf8 body.compactText

/-- The request of a ready call: it carries the action and the body, and nothing in it is
refused. -/
theorem exists_request (h : c.Ready net action) (body : Json) (s : τ) :
    ∃ url host request, c.address action.service = .ok (url, host) ∧
      c.request action body url host (net.now s).1 = .ok request ∧
      Carries request action body ∧
      (request.headers.any fun header => !isHeaderText header.2) = false ∧
      request.url.isSendable = true := by
  obtain ⟨url, host, haddress, hsendable⟩ := h.address
  let signing : SigningRequest :=
    { service := action.service, host, payload := Text.utf8 body.compactText,
      timestamp := (net.now s).1 }
  let date : Date := .ofDayNumber ((net.now s).1.toInt / daySeconds)
  let authorization := authorizationOn c.credential.secretId c.credential.secretKey
    (net.now s).1 date.text action.service signing.canonical.text
  have hdate : dateOfSeconds? (net.now s).1 = some date := by
    rw [dateOfSeconds?, if_pos (h.clock s)]
  have hsigned : c.authorization signing = .ok authorization := by
    simp only [Client.authorization, SigningRequest.authorization?, signing, hdate,
      Option.map_some, authorization]
  have hauth : isHeaderText authorization = true :=
    isHeaderText_authorizationOn _ _ date _ h.secretId h.action.1
  refine ⟨url, host, {
    url := url.sendAddress
    headers := url.userHeaders ++ c.headers action (net.now s).1 authorization
    body := Text.utf8 body.compactText }, haddress, ?_, ⟨?_, rfl⟩, ?_, hsendable⟩
  · show (c.authorization signing >>= _) = _
    rw [hsigned]
    rfl
  · simp only [HttpRequest.header?, List.lookup_append, headers]
    -- the headers of the user come first, but none of them names an action
    have huser : url.userHeaders.lookup "X-TC-Action" = none := by
      rw [Url.userHeaders]
      split <;> rfl
    rw [huser]
    rfl
  · rw [List.any_eq_false]
    intro header hmem
    rcases List.mem_append.1 hmem with huser | hown
    · simp [isHeaderText_userHeaders url huser]
    · simp [isHeaderText_headers h _ hauth header hown]

/-- The outcome of a call whose request was sent. -/
def answered (request : HttpRequest) (action : ApiAction)
    (decode : List (String × Json) → Option α) :
    Except SendFault HttpReply → Except ClientError α
  | .ok reply => reply.outcome action.name decode
  | .error .notSent => .error (.network (.notSent request.url))
  | .error .cutShort => .error (.network (.cutShort request.url))

/-- **A ready call is one post.** It steps the clock, sends its request, and its outcome is that
of the reply. -/
theorem call_of_ready (h : c.Ready net action) (body : Json)
    (decode : List (String × Json) → Option α) (s : τ) :
    ∃ request, Carries request action body ∧
      c.call net action body decode s =
        (answered request action decode (net.send request (net.now s).2).1,
          (net.send request (net.now s).2).2) := by
  obtain ⟨url, host, request, haddress, hrequest, hcarries, hheaders, hsendable⟩ :=
    exists_request h body s
  refine ⟨request, hcarries, ?_⟩
  simp only [call, haddress, hrequest, Network.post, hheaders, hsendable, Bool.not_true,
    Bool.false_eq_true, if_false]
  generalize net.send request (net.now s).2 = answer
  obtain ⟨answer | answer, s'⟩ := answer
  · cases answer <;> rfl
  · rfl

end Client

end DbInventory
