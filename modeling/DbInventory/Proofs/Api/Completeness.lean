/-
# DbInventory.Proofs.Api.Completeness -- nothing is lost between pages

A listing asks for one page after the other. `ServesInstances` describes a faithful server: it
holds a list, and whatever its state, it answers the request for an offset with the slice
there. What it tells as the total is free from page to page, as long as it does not fall short.
The listing then gives exactly the list (`Client.list_complete`). Every list has such a server
(`instanceServer_serves`), since the text of a request tells its offset
(`Client.offset_eq_of_listBody`).
-/

import DbInventory.Proofs.Api.Holding
import DbInventory.Proofs.Instance.RoundTrip

namespace DbInventory

open Client (Carries Ready listAction listBody listLimit)

/-! ## Requests tell their offset -/

namespace Json

theorem membersTextAt_append (style : Style) (depth : Nat) (l l' : List (String × Json)) :
    membersTextAt style depth (l ++ l') =
      membersTextAt style depth l ++ membersTextAt style depth l' := by
  induction l with
  | nil => rfl
  | cons m l ih =>
    obtain ⟨k, v⟩ := m
    simp [membersTextAt, ih]

/-- The text of a compact object tells the texts of its members. -/
theorem membersTextAt_eq_of_textAt {depth : Nat} {l l' : List (String × Json)} (hl : l ≠ [])
    (hl' : l' ≠ []) (h : textAt .compact depth (.object l) = textAt .compact depth (.object l')) :
    membersTextAt .compact (depth + 1) l = membersTextAt .compact (depth + 1) l' := by
  obtain ⟨⟨k, v⟩, l, rfl⟩ := List.exists_cons_of_ne_nil hl
  obtain ⟨⟨k', v'⟩, l', rfl⟩ := List.exists_cons_of_ne_nil hl'
  simp only [textAt, Style.lineBreak, List.append_nil, List.cons_append, List.cons.injEq,
    true_and] at h
  simp only [membersTextAt, Style.lineBreak, List.cons_append]
  exact congrArg (List.cons ',') (List.append_cancel_right h)

theorem textAt_countJson {n : Nat} (hn : n < UInt64.size) (style : Style) (depth : Nat) :
    textAt style depth (Client.countJson n) = Nat.toDigits 10 n := by
  show intText ((UInt64.ofNat n).toNat : Int) = _
  rw [UInt64.toNat_ofNat_of_lt' hn]
  rfl

end Json

namespace Client

/-- The members of a listing request that choose instances. -/
def filterMembers (filter : InstanceFilter) : List (String × Json) :=
  optionalMember "ProjectId" (filter.projectId.map Json.int64) ++
    optionalMember "InstanceIdSet" (filter.instanceId.map fun id => .array [.string id]) ++
    optionalMember "VpcId" (filter.vpcId.map .string) ++
    optionalMember "SubnetId" (filter.subnetId.map .string)

theorem listBody_eq (filter : InstanceFilter) (offset : Nat) :
    listBody filter offset = .object (filterMembers filter ++
      [("Offset", countJson offset), ("Limit", countJson listLimit)]) := rfl

/-- **A request tells its offset**: two offsets behind the same members give two texts. -/
theorem offset_eq_of_compactText {members : List (String × Json)} {limit m n : Nat}
    (hm : m < UInt64.size) (hn : n < UInt64.size)
    (h : (Json.object (members ++
        [("Offset", countJson m), ("Limit", countJson limit)])).compactText =
      (Json.object (members ++
        [("Offset", countJson n), ("Limit", countJson limit)])).compactText) : m = n := by
  have hmembers := Json.membersTextAt_eq_of_textAt (by simp) (by simp) (String.ofList_injective h)
  rw [Json.membersTextAt_append, Json.membersTextAt_append, List.append_cancel_left_eq] at hmembers
  simp only [Json.membersTextAt, Json.Style.lineBreak, Json.textAt_countJson hm,
    Json.textAt_countJson hn, List.append_assoc, List.cons_append, List.cons.injEq, true_and,
    List.append_cancel_left_eq] at hmembers
  have hdigits := congrArg (Nat.ofDigitChars 10 · 0) (List.append_cancel_right hmembers)
  simpa [Nat.ofDigitChars_ten_toDigits] using hdigits

theorem offset_eq_of_listBody {filter : InstanceFilter} {m n : Nat} (hm : m < UInt64.size)
    (hn : n < UInt64.size)
    (h : (listBody filter m).compactText = (listBody filter n).compactText) : m = n := by
  rw [listBody_eq, listBody_eq] at h
  exact offset_eq_of_compactText hm hn h

end Client

variable {τ : Type} {c : Client} {net : Network τ} {filter : InstanceFilter} {L : List DbInstance}
  {allowed : Option UInt64 → Prop}

/-! ## Faithful servers -/

/-- A faithful server of instances: whatever its state, it answers a request for the instances
of a filter from an offset on with the slice of the list there; `allowed` says what the total
may be. -/
def ServesInstances (net : Network τ) (filter : InstanceFilter) (L : List DbInstance)
    (allowed : Option UInt64 → Prop) : Prop :=
  ServesPages net listAction (listBody filter) instancePage? listLimit L allowed

namespace Client

/-- A listing of no project below zero is the loop over its pages. -/
theorem list_eq_collectAll (hproject : ∀ id ∈ filter.projectId, 0 ≤ id) (s : τ) :
    c.list net filter s =
      Page.collectAll listLimit (c.listPage net filter) (exhausted listAction) s := by
  have hnonneg : filter.projectId.filter (· < 0) = none := by
    rw [Option.filter_eq_none_iff]
    intro id hid hneg
    exact Int64.not_lt.2 (hproject id hid) (of_decide_eq_true hneg)
  rw [list, hnonneg]

end Client

/-! ## Completeness -/

/-- The exchanges of a listing against a server that tells allowed totals. -/
theorem Client.list_exchanges (hready : c.Ready net listAction)
    (hproject : ∀ id ∈ filter.projectId, 0 ≤ id) (hlength : L.length + 20 < UInt64.size)
    (hserver : ServesInstances net filter L allowed)
    (hcovers : ∀ total, allowed total → Covers L total) (s : τ) :
    ∃ s' exchanges,
      c.list net filter s = (.ok L, s') ∧
      c.list net.recorded filter (s, []) = (.ok L, s', exchanges) ∧
      exchanges ≠ [] ∧
      ∀ k x, exchanges[k]? = some x →
        Carries x.request listAction (listBody filter (20 * k)) ∧
        ∃ reply page, x.answer = .ok reply ∧
          reply.outcome listAction.name instancePage? = .ok page ∧
          page.entries = (L.drop (20 * k)).take 20 ∧ allowed page.total ∧
          (k + 1 = exchanges.length ↔ L.length < 20 * (k + 1) ∨
            L.length = 20 * (k + 1) ∧ ∃ n ∈ page.total, n.toNat = L.length) := by
  have hpages : L.length + listLimit < UInt64.size := hlength
  obtain ⟨s', exchanges, hcollect, hrecorded, hpaged⟩ :=
    collectAll_of_serves hready (by decide) hpages hserver hcovers (exhausted listAction) s
  refine ⟨s', exchanges, ?_, ?_, hpaged.ne_nil, ?_⟩
  · rw [list_eq_collectAll hproject]
    exact hcollect
  · rw [list_eq_collectAll hproject]
    exact hrecorded
  · intro k x hk
    obtain ⟨hmakes, reply, page, hanswer, houtcome, hentries, htotal, hlast⟩ :=
      hpaged.exchange k x hk
    simp only [Nat.mul_comm _ listLimit] at hmakes hentries hlast
    exact ⟨hmakes.carries, reply, page, hanswer, houtcome, hentries, htotal,
      hlast.trans ((hcovers _ htotal).reached_iff _)⟩

/-- Where a listing ends, in terms of the totals that its server tells. -/
theorem Client.list_ends (hready : c.Ready net listAction)
    (hproject : ∀ id ∈ filter.projectId, 0 ≤ id) (hlength : L.length + 20 < UInt64.size)
    (hserver : ServesInstances net filter L allowed)
    (hcovers : ∀ total, allowed total → Covers L total) {s s' : τ} {exchanges : List Exchange}
    (hlist : c.list net.recorded filter (s, []) = (.ok L, s', exchanges)) {k : Nat}
    (hk : k < exchanges.length) :
    ∃ total, allowed total ∧ (k + 1 = exchanges.length ↔ L.length < 20 * (k + 1) ∨
      L.length = 20 * (k + 1) ∧ ∃ n ∈ total, n.toNat = L.length) := by
  obtain ⟨_, exchanges', -, hlist', -, hexchanges⟩ :=
    list_exchanges hready hproject hlength hserver hcovers s
  obtain rfl : exchanges = exchanges' := congrArg (·.2.2) (hlist.symm.trans hlist')
  obtain ⟨-, reply, page, -, -, -, htotal, hlast⟩ := hexchanges k _ (List.getElem?_eq_getElem hk)
  exact ⟨page.total, htotal, hlast⟩

/-- **A listing is complete.** Against a faithful server it ends with exactly the list, in
order. The `k`-th request asks for the offset `20 * k` and is answered with the slice there, and
it is the last one if the list ends before `20 * (k + 1)`, or ends there and the page tells so. If
every page tells the length of the list, there are as many requests as pages that are needed, and
at least one; if no page tells a total, the last request finds a page that is not full. -/
theorem Client.list_complete (hready : c.Ready net listAction)
    (hproject : ∀ id ∈ filter.projectId, 0 ≤ id) (hlength : L.length + 20 < UInt64.size)
    (hserver : ServesInstances net filter L (Covers L)) (s : τ) :
    ∃ s' exchanges,
      c.list net filter s = (.ok L, s') ∧
      c.list net.recorded filter (s, []) = (.ok L, s', exchanges) ∧
      exchanges ≠ [] ∧
      (∀ k x, exchanges[k]? = some x →
        Carries x.request listAction (listBody filter (20 * k)) ∧
        ∃ reply page, x.answer = .ok reply ∧
          reply.outcome listAction.name instancePage? = .ok page ∧
          page.entries = (L.drop (20 * k)).take 20 ∧
          (k + 1 = exchanges.length ↔ L.length < 20 * (k + 1) ∨
            L.length = 20 * (k + 1) ∧ ∃ n ∈ page.total, n.toNat = L.length)) ∧
      (ServesInstances net filter L (fun total => ∃ n ∈ total, n.toNat = L.length) →
        exchanges.length = max 1 ((L.length + 19) / 20)) ∧
      (ServesInstances net filter L (fun total => total = none) →
        exchanges.length = L.length / 20 + 1) := by
  obtain ⟨s', exchanges, hlist, hrecorded, hne, hexchanges⟩ :=
    list_exchanges hready hproject hlength hserver (fun _ h => h) s
  have hpos := List.length_pos_of_ne_nil hne
  refine ⟨s', exchanges, hlist, hrecorded, hne, ?_, ?_, ?_⟩
  · intro k x hk
    obtain ⟨hcarries, reply, page, hanswer, houtcome, hentries, -, hlast⟩ := hexchanges k x hk
    exact ⟨hcarries, reply, page, hanswer, houtcome, hentries, hlast⟩
  · intro htold
    have hend : ∀ k < exchanges.length, (k + 1 = exchanges.length ↔ L.length ≤ 20 * (k + 1)) := by
      intro k hk
      obtain ⟨total, htotal, hlast⟩ :=
        list_ends hready hproject hlength htold (fun _ => covers_of_told) hrecorded hk
      rw [hlast, and_iff_left htotal, Nat.le_iff_lt_or_eq]
    have hlast := hend (exchanges.length - 1)
    have hprevious := hend (exchanges.length - 2)
    omega
  · intro huntold
    have hend : ∀ k < exchanges.length, (k + 1 = exchanges.length ↔ L.length < 20 * (k + 1)) := by
      intro k hk
      have hcovers : ∀ total, total = none → Covers L total := by
        rintro _ rfl
        exact covers_none L
      obtain ⟨total, rfl, hlast⟩ :=
        list_ends hready hproject hlength huntold hcovers hrecorded hk
      rw [hlast]
      simp
    have hlast := hend (exchanges.length - 1)
    have hprevious := hend (exchanges.length - 2)
    omega

/-! ### Servers that hold a list -/

/-- A server that holds a list of instances. -/
def instanceServer (filter : InstanceFilter) (L : List DbInstance) (total : Nat → Option UInt64) :
    Network Unit :=
  holding (listBody filter) "DBInstances" DbInstance.toJson listLimit L total

theorem instanceServer_serves {total : Nat → Option UInt64} (hlength : L.length < UInt64.size)
    (hallowed : ∀ o, allowed (total o)) :
    ServesInstances (instanceServer filter L total) filter L allowed :=
  holding_serves (by decide) (fun x => x.kept_toJson _) DbInstance.ofTree?_toJson
    (fun _ _ => Client.offset_eq_of_listBody) hlength hallowed

/-- A client of the usual endpoints. -/
def usualClient : Client where
  credential := ⟨"AKIDtest", "secret", none⟩
  region := "ap-guangzhou"
  baseUrl := none

/-- The address that the usual client sends listings to. -/
def usualUrl : Url where
  scheme := "https"
  username := ""
  password := none
  host := some (.domain "sqlserver.tencentcloudapi.com")
  port := none
  path := "/"
  query := none
  fragment := none

theorem usualClient_address :
    usualClient.address "sqlserver" = .ok (usualUrl, "sqlserver.tencentcloudapi.com") :=
  toOption_eq_some_iff.1 (by decide +kernel)

theorem usualClient_ready (hclock : ∀ s, (net.now s).1 = 1700000000) :
    usualClient.Ready net listAction where
  address := ⟨usualUrl, _, usualClient_address, by decide +kernel⟩
  action := by decide
  secretId := by decide
  region := by decide
  token := by simp [usualClient]
  clock s := by rw [hclock s]; decide

def noFilter : InstanceFilter := ⟨none, none, none, none⟩

/-- Two full pages of instances and a third that is not full. -/
def manyInstances : List DbInstance :=
  (List.range 45).map fun n => { DbInstance.blank with instanceId := some ("mssql-" ++ toString n) }

/-- The total is told on the second page only. -/
def secondTotal (offset : Nat) : Option UInt64 := if offset = 20 then some 45 else none

/-- A server that holds them. -/
def manyServer : Network Unit := instanceServer noFilter manyInstances secondTotal

theorem list_complete_manyInstances :
    usualClient.Ready manyServer listAction ∧
    ServesInstances manyServer noFilter manyInstances (Covers manyInstances) ∧
    ∃ s' exchanges,
      usualClient.list manyServer.recorded noFilter ((), []) = (.ok manyInstances, s', exchanges) ∧
      exchanges.length = 3 := by
  have hlength : manyInstances.length = 45 := by simp [manyInstances]
  have hserves : ServesInstances manyServer noFilter manyInstances (Covers manyInstances) := by
    refine instanceServer_serves (by rw [hlength]; decide) fun o => ?_
    rw [secondTotal]
    split
    · exact covers_of_told ⟨45, rfl, hlength.symm⟩
    · exact covers_none _
  have hready : usualClient.Ready manyServer listAction := usualClient_ready fun _ => rfl
  refine ⟨hready, hserves, ?_⟩
  obtain ⟨s', exchanges, -, hlist, hne, hexchanges, -, -⟩ := Client.list_complete hready
    (by simp [noFilter]) (by rw [hlength]; decide) hserves ()
  refine ⟨s', exchanges, hlist, ?_⟩
  rw [hlength] at hexchanges
  -- the list ends on the third page and on no other
  have hend : ∀ k < exchanges.length, (k + 1 = exchanges.length ↔ 2 ≤ k) := by
    intro k hk
    obtain ⟨-, reply, page, -, -, -, hlast⟩ := hexchanges k _ (List.getElem?_eq_getElem hk)
    omega
  have hpos := List.length_pos_of_ne_nil hne
  have hlast := hend (exchanges.length - 1)
  have hthird := hend 2
  omega

/-! ### Other servers -/

/-- A server that holds one instance, and tells so on every page. -/
def oneInstanceServer : Network Unit :=
  instanceServer noFilter [DbInstance.oneInstance] fun _ => some 1

/-- A server that has one reply to everything. -/
def steadyServer (reply : HttpReply) : Network Unit where
  now s := (1700000000, s)
  send _ s := (.ok reply, s)

end DbInventory
