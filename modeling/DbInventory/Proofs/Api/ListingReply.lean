/-
# DbInventory.Proofs.Api.ListingReply -- nothing is lost between a listing reply and its page

A listing call ends well only if its reply tells the page that comes out (`TellsListing`): there
is no error, and the entries are the elements of the list of instances, each as its own text is
decoded, in order. A reply that says the same in another order tells the same page, and a
spoiled one tells none (`Client.listPage_tells`).
-/

import DbInventory.Proofs.Api.Completeness
import DbInventory.Proofs.Api.Pages

namespace DbInventory

open Json (Readable memberTexts? itemTexts? readAll)
open DbInstance (oneInstance sameText_shuffled)
open Envelope (memberDepth responseText?)

/-! ## Listing replies -/

/-- **What a listing reply tells**: its response tells a page, and each entry is the instance of
the text of its element. -/
def TellsListing (text : String) (page : Page DbInstance) : Prop :=
  ∃ response ms, responseText? text = some response ∧ memberTexts? response = some ms ∧
    TellsPage "DBInstances" (fun t x => DbInstance.ofText t = .ok x) ms page

/-- What keeps a response from telling a page: a name that is asked for is given twice, the
total is no unsigned word, the list is none, as null is none, or one of its elements is no
instance. -/
inductive Spoiled (ms : List (String × String)) : Prop
  | repeated {name : String} (hname : name ∈ ["Error", "RequestId", "TotalCount", "DBInstances"])
    (h : Page.single? ms name = none) : Spoiled ms
  | badTotal {text : String} {v : Json} (h : Page.single? ms "TotalCount" = some (some text))
    (htree : readAll (Json.readTree 0) text = .ok v) (hnull : v ≠ .null)
    (hword : v.uint64? = none) : Spoiled ms
  | noList {text : String} (h : Page.single? ms "DBInstances" = some (some text))
    (hlist : itemTexts? text = none) : Spoiled ms
  | badEntry {text t : String} {texts : List String}
    (h : Page.single? ms "DBInstances" = some (some text)) (hlist : itemTexts? text = some texts)
    (ht : t ∈ texts) (hbad : ∀ x, DbInstance.ofText t ≠ .ok x) : Spoiled ms

/-- A reply whose response is spoiled. -/
def SpoiledListing (text : String) : Prop :=
  ∃ response ms, responseText? text = some response ∧ memberTexts? response = some ms ∧ Spoiled ms

/-- Two replies that say the same: the members of the response and of each instance may stand in
another order, and members of other names may stand between them. -/
def SameListing (text text' : String) : Prop :=
  ∃ response response' ms ms', responseText? text = some response ∧
    responseText? text' = some response' ∧ memberTexts? response = some ms ∧
    memberTexts? response' = some ms' ∧ SameMembers "DBInstances" DbInstance.SameText ms ms'

/-- **A page of instances comes out of a reply exactly if the reply tells it.** -/
theorem outcome_listing_iff {reply : HttpReply} {action : String} {page : Page DbInstance} :
    reply.outcome action instancePage? = .ok page ↔ TellsListing reply.text page :=
  outcome_page_iff (by simp) DbInstance.ofTree?_eq_some_iff

theorem TellsListing.same {text text' : String} {page : Page DbInstance}
    (h : TellsListing text page) (hsame : SameListing text text') : TellsListing text' page := by
  obtain ⟨response, ms, hresponse, hms, htells⟩ := h
  obtain ⟨response₀, response', ms₀, ms', hresponse₀, hresponse', hms₀, hms', hsame⟩ := hsame
  obtain rfl := Option.some.inj (hresponse.symm.trans hresponse₀)
  obtain rfl := Option.some.inj (hms.symm.trans hms₀)
  refine ⟨response', ms', hresponse', hms', htells.reordered hsame (by simp) ?_ ?_⟩
  · intro t t' htext
    exact htext.readable
  · intro t t' x htext
    exact htext.ofText_eq

/-- No page is told by a spoiled response. -/
theorem Spoiled.not_tells {ms : List (String × String)} (h : Spoiled ms) (page : Page DbInstance) :
    ¬TellsPage "DBInstances" (fun t x => DbInstance.ofText t = .ok x) ms page := by
  rintro ⟨herror, hid, -, htotal, hentries⟩
  cases h with
  | @repeated name hname h =>
    have hgiven : ∀ {told : Option String → Prop},
        ¬∃ t, Page.single? ms name = some t ∧ told t := by
      rintro told ⟨t, ht, -⟩
      rw [h] at ht
      cases ht
    simp only [List.mem_cons, List.not_mem_nil, or_false] at hname
    rcases hname with rfl | rfl | rfl | rfl
    · exact hgiven herror
    · exact hgiven hid
    · exact hgiven htotal
    · exact hgiven hentries
  | badTotal h htree hnull hword =>
    obtain ⟨t, ht, htold⟩ := htotal
    obtain rfl := Option.some.inj (h.symm.trans ht)
    have hdecoded := decodeTotal_some_eq_some_iff.1 ((totalTold_iff htree).1 htold)
    rcases hdecoded with ⟨hv, -⟩ | ⟨n, hn, -⟩
    · exact hnull hv
    · rw [hword] at hn
      cases hn
  | noList h hlist =>
    obtain ⟨t, ht, htold⟩ := hentries
    obtain rfl := Option.some.inj (h.symm.trans ht)
    obtain ⟨texts, hts, -⟩ := htold
    rw [hlist] at hts
    cases hts
  | badEntry h hlist ht hbad =>
    obtain ⟨t, hsingle, htold⟩ := hentries
    obtain rfl := Option.some.inj (h.symm.trans hsingle)
    obtain ⟨texts, hts, hall⟩ := htold
    obtain rfl := Option.some.inj (hlist.symm.trans hts)
    obtain ⟨x, hx⟩ := Json.exists_forall₂_iff.1 ⟨page.entries, hall⟩ _ ht
    exact hbad x hx

/-- A null list spoils a response. -/
example : Spoiled [("DBInstances", "null")] := .noList rfl (by decide +kernel)

theorem SpoiledListing.not_tells {text : String} (h : SpoiledListing text)
    (page : Page DbInstance) : ¬TellsListing text page := by
  obtain ⟨response, ms, hresponse, hms, hspoiled⟩ := h
  rintro ⟨response₀, ms₀, hresponse₀, hms₀, htells⟩
  obtain rfl := Option.some.inj (hresponse.symm.trans hresponse₀)
  obtain rfl := Option.some.inj (hms.symm.trans hms₀)
  exact hspoiled.not_tells page htells

/-! ## Calls -/

variable {α τ : Type} {net : Network τ} {s s' : τ}

/-- A post that is answered was sent. -/
theorem Network.post_eq_ok_iff {request : HttpRequest} {reply : HttpReply} :
    net.post request s = (.ok reply, s') ↔
      (request.headers.any fun header => !isHeaderText header.2) = false ∧
        request.url.isSendable = true ∧ net.send request s = (.ok reply, s') := by
  unfold Network.post
  by_cases hheaders : (request.headers.any fun header => !isHeaderText header.2) = true
  · simp [hheaders]
  rw [Bool.not_eq_true] at hheaders
  by_cases hsendable : request.url.isSendable = true
  · simp only [hheaders, hsendable, Bool.not_true, Bool.false_eq_true, if_false, true_and]
    obtain ⟨answer, s₁⟩ := net.send request s
    rcases answer with (_ | _) | reply' <;> simp
  · simp [hheaders, hsendable]

namespace Client

variable {c : Client}

/-- A call that ends well is one post, and ends as the outcome of its reply says. -/
theorem exists_reply_of_call {action : ApiAction} {body : Json}
    {decode : List (String × Json) → Option α} {x : α}
    (h : c.call net action body decode s = (.ok x, s')) :
    ∃ request reply, net.send request (net.now s).2 = (.ok reply, s') ∧
      reply.outcome action.name decode = .ok x ∧
      ∀ (net' : Network τ) reply' s'', net'.now s = net.now s →
        net'.send request (net.now s).2 = (.ok reply', s'') →
        c.call net' action body decode s = (reply'.outcome action.name decode, s'') := by
  unfold call at h
  cases haddress : c.address action.service with
  | error e => simp [haddress] at h
  | ok address =>
    obtain ⟨url, host⟩ := address
    simp only [haddress] at h
    cases hrequest : c.request action body url host (net.now s).1 with
    | error e => simp [hrequest] at h
    | ok request =>
      simp only [hrequest] at h
      cases hpost : net.post request (net.now s).2 with
      | mk answer s₁ =>
        rw [hpost] at h
        cases answer with
        | error fault => simp at h
        | ok reply =>
          obtain ⟨houtcome, rfl⟩ := Prod.mk.inj h
          obtain ⟨hheaders, hsendable, hsend⟩ := Network.post_eq_ok_iff.1 hpost
          refine ⟨request, reply, hsend, houtcome, ?_⟩
          intro net' reply' s'' hnow hsend'
          have hpost' := Network.post_eq_ok_iff.2 ⟨hheaders, hsendable, hsend'⟩
          simp only [call, haddress, hnow, hrequest, hpost']

/-- **Nothing is lost in decoding a listing reply.** If the call ends well, its reply has no
error and tells the page that comes out, entry by entry and in order. In its place any other
reply gives exactly the page that it tells, if it tells one: the call fails if the reply is
spoiled, and gives the same page if the reply only has its members in another order and members
that nobody asks for between them. -/
theorem listPage_tells {filter : InstanceFilter} {offset : Nat} {page : Page DbInstance}
    (h : c.listPage net filter offset s = (.ok page, s')) :
    ∃ request reply, net.send request (net.now s).2 = (.ok reply, s') ∧
      TellsListing reply.text page ∧
      ∀ (net' : Network τ) reply' s'', net'.now s = net.now s →
        net'.send request (net.now s).2 = (.ok reply', s'') →
        (∀ page', c.listPage net' filter offset s = (.ok page', s'') ↔
          TellsListing reply'.text page') ∧
        (SpoiledListing reply'.text →
          ∃ e, c.listPage net' filter offset s = (.error e, s'')) ∧
        (SameListing reply.text reply'.text →
          c.listPage net' filter offset s = (.ok page, s'')) := by
  obtain ⟨request, reply, hsend, houtcome, hother⟩ := exists_reply_of_call h
  have htells := outcome_listing_iff.1 houtcome
  refine ⟨request, reply, hsend, htells, ?_⟩
  intro net' reply' s'' hnow hsend'
  have hcall : c.listPage net' filter offset s =
      (reply'.outcome listAction.name instancePage?, s'') := hother net' reply' s'' hnow hsend'
  -- the request is the same, so only what the reply tells can differ
  have hpage : ∀ page', c.listPage net' filter offset s = (.ok page', s'') ↔
      TellsListing reply'.text page' := by
    intro page'
    rw [hcall, ← outcome_listing_iff, Prod.mk.injEq]
    exact and_iff_left rfl
  refine ⟨hpage, ?_, fun hsame => (hpage page).2 (htells.same hsame)⟩
  intro hspoiled
  rw [hcall]
  cases houtcome' : reply'.outcome listAction.name instancePage? with
  | error e => exact ⟨e, rfl⟩
  | ok page' => exact absurd (outcome_listing_iff.1 houtcome') (hspoiled.not_tells page')

end Client

/-! ### The page with one instance, shuffled -/

/-- A page with one instance, and its total. -/
def onePage : HttpReply where
  status := 200
  body := Text.utf8 ("\x7b\"Response\":\x7b\"TotalCount\":1,\"DBInstances\":" ++
    "[\x7b\"InstanceId\":\"mssql-1\"\x7d]\x7d\x7d")

/-- The same page, with its members in another order and others between them. -/
def shuffledPage : HttpReply where
  status := 200
  body := Text.utf8 ("\x7b\"Response\":\x7b\"DBInstances\":" ++
    "[\x7b\"Flag\":[true],\"InstanceId\":\"mssql-1\"\x7d],\"Note\":null,\"TotalCount\":1\x7d\x7d")

theorem sameListing_shuffled : SameListing onePage.text shuffledPage.text := by
  refine ⟨"\x7b\"TotalCount\":1,\"DBInstances\":[\x7b\"InstanceId\":\"mssql-1\"\x7d]\x7d",
    "\x7b\"DBInstances\":[\x7b\"Flag\":[true],\"InstanceId\":\"mssql-1\"\x7d]," ++
      "\"Note\":null,\"TotalCount\":1\x7d",
    [("TotalCount", "1"), ("DBInstances", "[\x7b\"InstanceId\":\"mssql-1\"\x7d]")],
    [("DBInstances", "[\x7b\"Flag\":[true],\"InstanceId\":\"mssql-1\"\x7d]"), ("Note", "null"),
      ("TotalCount", "1")],
    by decide +kernel, by decide +kernel, by decide +kernel, by decide +kernel,
    [("TotalCount", "1"),
      ("DBInstances", "[\x7b\"Flag\":[true],\"InstanceId\":\"mssql-1\"\x7d]")],
    [("Note", "null")], by decide, ?_, ?_⟩
  · refine .cons (.inl rfl)
      (.cons (.inr ⟨rfl, rfl, _, _, ?_, ?_, .cons sameText_shuffled .nil⟩) .nil)
    · decide +kernel
    · decide +kernel
  · intro m hm
    obtain rfl := List.mem_singleton.1 hm
    exact ⟨by decide, .null, toOption_eq_some_iff.1 (by decide +kernel)⟩

theorem onePage_outcome :
    onePage.outcome Client.listAction.name instancePage? = .ok ⟨some 1, [oneInstance]⟩ :=
  toOption_eq_some_iff.1 (by decide +kernel)

theorem listPage_onePage :
    usualClient.listPage (steadyServer onePage) noFilter 0 () =
      (.ok ⟨some 1, [oneInstance]⟩, ()) := by
  have hready : usualClient.Ready (steadyServer onePage) Client.listAction :=
    usualClient_ready fun _ => rfl
  obtain ⟨request, -, hcall⟩ :=
    Client.call_of_ready hready (Client.listBody noFilter 0) instancePage? ()
  rw [Client.listPage, hcall]
  exact congrArg (·, ()) onePage_outcome

theorem listPage_tells_shuffled :
    usualClient.listPage (steadyServer onePage) noFilter 0 () =
      (.ok ⟨some 1, [oneInstance]⟩, ()) ∧
    usualClient.listPage (steadyServer shuffledPage) noFilter 0 () =
      (.ok ⟨some 1, [oneInstance]⟩, ()) := by
  refine ⟨listPage_onePage, ?_⟩
  obtain ⟨request, reply, hsend, -, hother⟩ := Client.listPage_tells listPage_onePage
  obtain rfl : onePage = reply := Except.ok.inj (Prod.mk.inj hsend).1
  exact (hother (steadyServer shuffledPage) shuffledPage () rfl rfl).2.2 sameListing_shuffled

end DbInventory
