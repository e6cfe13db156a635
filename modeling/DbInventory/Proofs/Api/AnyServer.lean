/-
# DbInventory.Proofs.Api.AnyServer -- a listing against any server

Nothing is asked of the server here: pages may be longer than the limit, totals may change from
page to page, and any reply may fail. `Client.Collects` has one case for each thing that a round
of the loop over pages can come to, and every run of the loop is built of them
(`Client.collect_collects`). What holds of a run is then an induction on its rounds: requests ask
in steps of the limit (`Collects.request`), a page that another request follows is full and does
not reach its total (`Collects.followed`), the first failure is the last reply and the result
(`Collects.failed_eq`), and a result is all pages (`Collects.collected`).

The server's own totals bound the number of requests: the page in front of the last request lies
within the total that it tells (`Client.list_any_server`).
-/

import DbInventory.Proofs.Api.Completeness

namespace DbInventory

variable {α τ : Type}

/-- What an exchange comes to: what the reply holds, or a failure. -/
def Exchange.outcome (x : Exchange) (action : ApiAction)
    (decode : List (String × Json) → Option α) : Except ClientError α :=
  Client.answered x.request action decode x.answer

namespace Client

/-! ## Rounds -/

/-- The exchanges of a loop over pages from an offset on, and how the loop ends: its budget is
exhausted, a client that is not ready sends nothing, a reply fails, a page is the last, or
another page follows. -/
inductive Collects (c : Client) (net : Network τ) (action : ApiAction) (body : Nat → Json)
    (decode : List (String × Json) → Option (Page α)) (limit : Nat) (exhausted : ClientError) :
    (budget offset : Nat) → List Exchange → Except ClientError (List α) → Prop
  | exhausted {o : Nat} :
      Collects c net action body decode limit exhausted 0 o [] (.error exhausted)
  | unsent {budget o : Nat} {e : ClientError} (hready : ¬c.Ready net action) :
      Collects c net action body decode limit exhausted (budget + 1) o [] (.error e)
  | failed {budget o : Nat} {x : Exchange} {e : ClientError}
      (hmakes : c.Makes action (body o) x.request) (houtcome : x.outcome action decode = .error e) :
      Collects c net action body decode limit exhausted (budget + 1) o [x] (.error e)
  | last {budget o : Nat} {x : Exchange} {page : Page α}
      (hmakes : c.Makes action (body o) x.request) (houtcome : x.outcome action decode = .ok page)
      (hlast : page.isLast o limit = true) :
      Collects c net action body decode limit exhausted (budget + 1) o [x] (.ok page.entries)
  | next {budget o : Nat} {x : Exchange} {page : Page α} {exchanges : List Exchange}
      {result : Except ClientError (List α)}
      (hmakes : c.Makes action (body o) x.request) (houtcome : x.outcome action decode = .ok page)
      (hlast : page.isLast o limit = false)
      (hrest : Collects c net action body decode limit exhausted budget (o + limit) exchanges
        result) :
      Collects c net action body decode limit exhausted (budget + 1) o (x :: exchanges)
        (result.map (page.entries ++ ·))

variable {c : Client} {net : Network τ} {action : ApiAction} {body : Nat → Json}
  {decode : List (String × Json) → Option (Page α)} {limit : Nat} {exhausted : ClientError}

/-- **Every run of the loop is built of rounds.** -/
theorem collect_collects (c : Client) (net : Network τ) (action : ApiAction) (body : Nat → Json)
    (decode : List (String × Json) → Option (Page α)) (limit : Nat) (exhausted : ClientError)
    (budget o : Nat) (s : τ) (exchanges : List Exchange) :
    ∃ result s' sent,
      Page.collect limit (fun o => c.call net.recorded action (body o) decode) exhausted budget o
        (s, exchanges) = (result, s', exchanges ++ sent) ∧
      c.Collects net action body decode limit exhausted budget o sent result := by
  induction budget generalizing o s exchanges with
  | zero => exact ⟨.error exhausted, s, [], by rw [List.append_nil]; rfl, .exhausted⟩
  | succ budget ih =>
    obtain ⟨answer, s₁, sent, -, hcall, hsends⟩ :=
      call_recorded c net action (body o) decode s exchanges
    simp only [Page.collect, hcall]
    cases hsends with
    | unsent e hcause =>
      refine ⟨.error e, s₁, [], rfl, .unsent fun hready => ?_⟩
      exact hready.call_recorded_ne (body o) decode (s, exchanges)
        (by rw [hcall, List.append_nil])
    | sent request reply hmakes =>
      rcases houtcome : answered request action decode reply with e | page
      · exact ⟨.error e, s₁, [⟨request, reply⟩], rfl, .failed hmakes houtcome⟩
      · by_cases hlast : page.isLast o limit = true
        · refine ⟨.ok page.entries, s₁, [⟨request, reply⟩], ?_, .last hmakes houtcome hlast⟩
          simp only [if_pos hlast]
        · obtain ⟨result, s₂, sent, hrest, hcollects⟩ :=
            ih (o + limit) s₁ (exchanges ++ [⟨request, reply⟩])
          refine ⟨result.map (page.entries ++ ·), s₂, ⟨request, reply⟩ :: sent, ?_,
            .next hmakes houtcome (eq_false_of_ne_true hlast) hcollects⟩
          simp only [if_neg hlast, hrest, List.append_assoc, List.singleton_append]
          cases result <;> rfl

namespace Collects

variable {budget o : Nat} {exchanges : List Exchange} {result : Except ClientError (List α)}

theorem length_le
    (h : c.Collects net action body decode limit exhausted budget o exchanges result) :
    exchanges.length ≤ budget := by
  induction h with
  | next _ _ _ _ ih => exact Nat.succ_le_succ ih
  | _ => simp

/-- **Requests ask in steps of the limit.** -/
theorem request
    (h : c.Collects net action body decode limit exhausted budget o exchanges result) :
    ∀ k x, exchanges[k]? = some x → c.Makes action (body (o + k * limit)) x.request := by
  induction h with
  | exhausted => simp
  | unsent => simp
  | failed hmakes | last hmakes =>
    rintro (_ | k) x hk
    · obtain rfl := Option.some.inj hk
      simpa using hmakes
    · simp at hk
  | @next _ o _ _ _ _ hmakes _ _ _ ih =>
    rintro (_ | k) x hk
    · obtain rfl := Option.some.inj hk
      simpa using hmakes
    · have hlater := ih k x hk
      rwa [show o + limit + k * limit = o + (k + 1) * limit by rw [Nat.succ_mul]; omega] at hlater

/-- **A page that another request follows** is one that does not end the walk. -/
theorem followed
    (h : c.Collects net action body decode limit exhausted budget o exchanges result) :
    ∀ k x, exchanges[k]? = some x → k + 1 < exchanges.length →
      ∃ page, x.outcome action decode = .ok page ∧ page.isLast (o + k * limit) limit = false := by
  induction h with
  | exhausted => simp
  | unsent => simp
  | failed | last =>
    intro k x _ hmore
    simp at hmore
  | @next _ o _ page _ _ _ houtcome hlast _ ih =>
    rintro (_ | k) x hk hmore
    · obtain rfl := Option.some.inj hk
      exact ⟨page, houtcome, by simpa using hlast⟩
    · obtain ⟨page', houtcome', hlast'⟩ := ih k x hk (Nat.lt_of_succ_lt_succ hmore)
      rw [show o + limit + k * limit = o + (k + 1) * limit by rw [Nat.succ_mul]; omega] at hlast'
      exact ⟨page', houtcome', hlast'⟩

/-- **The first failure is the last reply, and the result.** -/
theorem failed_eq
    (h : c.Collects net action body decode limit exhausted budget o exchanges result) :
    ∀ k x e, exchanges[k]? = some x → x.outcome action decode = .error e →
      k + 1 = exchanges.length ∧ result = .error e := by
  induction h with
  | exhausted => simp
  | unsent => simp
  | @failed _ _ _ e _ houtcome =>
    rintro (_ | k) x' e' hk he
    · obtain rfl := Option.some.inj hk
      rw [houtcome] at he
      obtain rfl := Except.error.inj he
      exact ⟨rfl, rfl⟩
    · simp at hk
  | last _ houtcome =>
    rintro (_ | k) x' e' hk he
    · obtain rfl := Option.some.inj hk
      rw [houtcome] at he
      cases he
    · simp at hk
  | next _ houtcome _ _ ih =>
    rintro (_ | k) x' e' hk he
    · obtain rfl := Option.some.inj hk
      rw [houtcome] at he
      cases he
    · obtain ⟨hend, rfl⟩ := ih k x' e' hk he
      exact ⟨congrArg Nat.succ hend, rfl⟩

/-- **A result is all pages**, up to one that ends the walk. -/
theorem collected
    (h : c.Collects net action body decode limit exhausted budget o exchanges result) {L : List α}
    (hL : result = .ok L) :
    ∃ pages last, exchanges.map (·.outcome action decode) = (pages ++ [last]).map .ok ∧
      L = (pages ++ [last]).flatMap (·.entries) ∧
      last.isLast (o + pages.length * limit) limit = true := by
  induction h generalizing L with
  | exhausted | unsent | failed => cases hL
  | @last _ _ _ page _ houtcome hlast =>
    obtain rfl := Except.ok.inj hL
    exact ⟨[], page, by simp [houtcome], by simp, by simpa using hlast⟩
  | @next _ o _ page _ result _ houtcome _ _ ih =>
    cases result with
    | error e => cases hL
    | ok rest =>
      obtain rfl := Except.ok.inj hL
      obtain ⟨pages, last, houtcomes, rfl, hlast⟩ := ih rfl
      refine ⟨page :: pages, last, by simp [houtcome, houtcomes], by simp, ?_⟩
      rwa [List.length_cons,
        show o + (pages.length + 1) * limit = o + limit + pages.length * limit by
          rw [Nat.succ_mul]; omega]

/-- **A ready client goes on to a failure or to a page that ends the walk**, as long as its
budget lasts. -/
theorem settled
    (h : c.Collects net action body decode limit exhausted budget o exchanges result)
    (hready : c.Ready net action) (hbudget : exchanges.length < budget) :
    ∃ x, exchanges[exchanges.length - 1]? = some x ∧
      ((∃ e, x.outcome action decode = .error e) ∨ ∃ L, result = .ok L) := by
  induction h with
  | exhausted => cases hbudget
  | unsent hnot => exact absurd hready hnot
  | @failed _ _ x e _ houtcome => exact ⟨x, rfl, .inl ⟨e, houtcome⟩⟩
  | @last _ _ x page _ houtcome _ => exact ⟨x, rfl, .inr ⟨_, rfl⟩⟩
  | @next _ _ x page exchanges result _ _ _ _ ih =>
    obtain ⟨y, hy, hend⟩ := ih (Nat.lt_of_succ_lt_succ hbudget)
    have hsome : 0 < exchanges.length := by
      obtain ⟨hlt, -⟩ := List.getElem?_eq_some_iff.1 hy
      omega
    refine ⟨y, ?_, hend.imp_right ?_⟩
    · rw [List.length_cons, Nat.add_sub_cancel, ← hy]
      obtain ⟨n, hn⟩ : ∃ n, exchanges.length = n + 1 := ⟨exchanges.length - 1, by omega⟩
      rw [hn]
      rfl
    · rintro ⟨L, rfl⟩
      exact ⟨_, rfl⟩

end Collects

/-! ## Listings -/

/-- What a listing has exchanged with a server, and how it ended. -/
structure Lists (c : Client) (net : Network τ) (filter : InstanceFilter)
    (exchanges : List Exchange) (result : Except ClientError (List DbInstance)) : Prop where
  /-- The requests differ in the offset only, which goes up in steps of the limit. -/
  request : ∀ k x, exchanges[k]? = some x → ∃ offset : UInt64, offset.toNat = 20 * k ∧
    c.Makes listAction (.object (filterMembers filter ++
      [("Offset", .uint64 offset), ("Limit", .uint64 20)])) x.request
  /-- A page that another request follows is full and does not reach the total that it tells. -/
  followed : ∀ k x, exchanges[k]? = some x → k + 1 < exchanges.length →
    ∃ page, x.outcome listAction instancePage? = .ok page ∧ 20 ≤ page.entries.length ∧
      ∀ n ∈ page.total, 20 * k + page.entries.length < n.toNat
  /-- A reply that fails is the last, and the result is its failure. -/
  failed : ∀ k x e, exchanges[k]? = some x → x.outcome listAction instancePage? = .error e →
    k + 1 = exchanges.length ∧ result = .error e
  /-- A result is all pages, of which the last is not full or reaches its total. -/
  listed : ∀ L, result = .ok L →
    ∃ pages last, exchanges.map (·.outcome listAction instancePage?) =
        (pages ++ [last]).map .ok ∧
      L = (pages ++ [last]).flatMap (·.entries) ∧
      (last.entries.length < 20 ∨
        ∃ n ∈ last.total, n.toNat ≤ 20 * pages.length + last.entries.length)
  /-- The last reply fails, or there is a result, if the client is ready and offsets stay below
  half of the words. -/
  settled : c.Ready net listAction → 20 * exchanges.length ≤ 9223372036854775808 →
    ∃ x, exchanges[exchanges.length - 1]? = some x ∧
      ((∃ e, x.outcome listAction instancePage? = .error e) ∨ ∃ L, result = .ok L)
  /-- Totals bound the number of requests. -/
  bounded : ∀ T : Nat,
    (∀ x ∈ exchanges, ∀ page, x.outcome listAction instancePage? = .ok page →
      ∃ n ∈ page.total, n.toNat ≤ T) →
    exchanges.length ≤ max 1 ((T + 19) / 20)

theorem isLast_eq_false_iff {page : Page α} {o : Nat} :
    page.isLast o limit = false ↔
      limit ≤ page.entries.length ∧ ∀ n ∈ page.total, o + page.entries.length < n.toNat := by
  rw [Page.isLast, Bool.or_eq_false_iff, decide_eq_false_iff_not, Nat.not_lt]
  cases page.total <;> simp

theorem isLast_eq_true_iff {page : Page α} {o : Nat} :
    page.isLast o limit = true ↔
      page.entries.length < limit ∨ ∃ n ∈ page.total, n.toNat ≤ o + page.entries.length := by
  rw [Page.isLast, Bool.or_eq_true, decide_eq_true_iff]
  cases page.total <;> simp

/-- The rounds of a listing say all of it. -/
theorem Collects.lists {filter : InstanceFilter} {exchanges : List Exchange}
    {result : Except ClientError (List DbInstance)}
    (h : c.Collects net listAction (listBody filter) instancePage? listLimit exhausted
      (Page.budget listLimit) 0 exchanges result) : c.Lists net filter exchanges result where
  request k x hk := by
    have hmakes := h.request k x hk
    obtain ⟨hlt, -⟩ := List.getElem?_eq_some_iff.1 hk
    have hbudget := h.length_le
    have hlimit : Page.budget listLimit = 922337203685477580 := rfl
    have hsize : UInt64.size = 18446744073709551616 := rfl
    refine ⟨.ofNat (k * listLimit), ?_, ?_⟩
    · rw [UInt64.toNat_ofNat_of_lt' (by rw [listLimit]; omega), listLimit, Nat.mul_comm]
    · rw [Nat.zero_add, listBody_eq] at hmakes
      exact hmakes
  followed k x hk hmore := by
    obtain ⟨page, houtcome, hlast⟩ := h.followed k x hk hmore
    rw [Nat.zero_add, Nat.mul_comm, isLast_eq_false_iff] at hlast
    exact ⟨page, houtcome, hlast⟩
  failed := h.failed_eq
  listed L hL := by
    obtain ⟨pages, last, houtcomes, hentries, hlast⟩ := h.collected hL
    rw [Nat.zero_add, Nat.mul_comm, isLast_eq_true_iff] at hlast
    exact ⟨pages, last, houtcomes, hentries, hlast⟩
  settled hready hoffsets := by
    have hlimit : Page.budget listLimit = 922337203685477580 := rfl
    exact h.settled hready (by omega)
  bounded T htotals := by
    -- the page in front of the last request is what bounds them
    by_cases hone : exchanges.length ≤ 1
    · omega
    · have hk : exchanges.length - 2 < exchanges.length := by omega
      obtain ⟨page, houtcome, hlast⟩ := h.followed _ _ (List.getElem?_eq_getElem hk) (by omega)
      rw [Nat.zero_add, isLast_eq_false_iff] at hlast
      obtain ⟨n, hn, hle⟩ := htotals _ (List.getElem_mem hk) page houtcome
      have hlt := hlast.2 n hn
      have hfull := hlast.1
      rw [listLimit] at hlt hfull
      omega

/-- **A listing against any server.** It asks for one offset after the other. The first reply
that fails is the last one, and its failure is the result. A result is all pages, each of which
is full and below its total but for the last. The totals that the server tells bound the number
of requests. -/
theorem list_any_server (c : Client) (net : Network τ) (filter : InstanceFilter)
    (hproject : ∀ id ∈ filter.projectId, 0 ≤ id) (s : τ) :
    ∃ result s' exchanges,
      c.list net filter s = (result, s') ∧
      c.list net.recorded filter (s, []) = (result, s', exchanges) ∧
      c.Lists net filter exchanges result := by
  obtain ⟨result, s', exchanges, hrecorded, hcollects⟩ :=
    collect_collects c net listAction (listBody filter) instancePage? listLimit
      (Client.exhausted listAction) (Page.budget listLimit) 0 s []
  have hplain := collectAll_unrecorded c net listAction (listBody filter) instancePage? listLimit
    (Client.exhausted listAction) (s, [])
  rw [Page.collectAll, Page.collectAll, hrecorded] at hplain
  refine ⟨result, s', exchanges, ?_, ?_, hcollects.lists⟩
  · rw [list_eq_collectAll hproject]
    exact hplain
  · rw [list_eq_collectAll hproject]
    exact hrecorded

end Client

/-! ### A server with pages that are too long -/

open Client (listAction listLimit)

/-- A page with more entries than were asked for. -/
def crowdedPage : Page DbInstance := ⟨some 30, List.replicate 21 .blank⟩

def crowdedReply : HttpReply where
  status := 200
  body := Text.utf8 ("\x7b\"Response\":\x7b\"TotalCount\":30,\"DBInstances\":[\x7b\x7d" ++
    String.join (List.replicate 20 ",\x7b\x7d") ++ "]\x7d\x7d")

theorem crowdedReply_outcome :
    crowdedReply.outcome listAction.name instancePage? = .ok crowdedPage :=
  toOption_eq_some_iff.1 (by decide +kernel)

theorem listPage_crowded (o : Nat) (s : Unit) (exchanges : List Exchange) :
    ∃ x, usualClient.listPage (steadyServer crowdedReply).recorded noFilter o (s, exchanges) =
      (.ok crowdedPage, s, exchanges ++ [x]) := by
  have hready : usualClient.Ready (steadyServer crowdedReply) listAction :=
    usualClient_ready fun _ => rfl
  obtain ⟨request, -, hcall⟩ :=
    Client.call_of_ready hready.recorded (Client.listBody noFilter o) instancePage? (s, exchanges)
  have hsend : (steadyServer crowdedReply).send request s = (.ok crowdedReply, s) := rfl
  have hpage : Client.answered request listAction instancePage? (.ok crowdedReply) =
      .ok crowdedPage := crowdedReply_outcome
  refine ⟨⟨request, .ok crowdedReply⟩, ?_⟩
  rw [Client.listPage, hcall, Network.recorded_now, Network.recorded_send, hsend]
  simp only [hpage]

/-- The second page reaches the total, and its entries are kept all the same. -/
theorem list_any_server_crowded :
    (∀ id ∈ noFilter.projectId, 0 ≤ id) ∧
    ∃ result s' exchanges,
      usualClient.list (steadyServer crowdedReply).recorded noFilter ((), []) =
          (result, s', exchanges) ∧
      usualClient.Lists (steadyServer crowdedReply) noFilter exchanges result ∧
      exchanges.length = 2 ∧ result = .ok (List.replicate 42 .blank) := by
  have hproject : ∀ id ∈ noFilter.projectId, 0 ≤ id := by simp [noFilter]
  obtain ⟨x, hx⟩ := listPage_crowded 0 () []
  obtain ⟨y, hy⟩ := listPage_crowded 20 () [x]
  have hwalk : Page.Walk listLimit
      (usualClient.listPage (steadyServer crowdedReply).recorded noFilter) 0
      ((), []) [crowdedPage, crowdedPage] none ((), [x, y]) :=
    .next hx (by decide) (.last hy (by decide))
  obtain ⟨result, s', exchanges, -, hrecorded, hlists⟩ :=
    Client.list_any_server usualClient (steadyServer crowdedReply) noFilter hproject ()
  have hlist := hrecorded
  rw [Client.list_eq_collectAll hproject, Page.collectAll,
    hwalk.collect_eq (Client.exhausted listAction) (by decide)] at hlist
  obtain ⟨rfl, hstate⟩ := Prod.mk.inj hlist
  obtain ⟨-, rfl⟩ := Prod.mk.inj hstate
  exact ⟨hproject, _, s', _, hrecorded, hlists, rfl, rfl⟩

end DbInventory
