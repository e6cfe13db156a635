/-
# DbInventory.Proofs.Api.Serving -- a list that is served in pages

`ServesPages` describes a faithful server of any action that is asked in pages: it holds a
list, and whatever its state, it answers the request for an offset with the slice there. What it
tells as the total is free from page to page, as long as it does not fall short. A client that
is ready then collects the list (`Client.collectAll_of_serves`), and the exchanges of the walk
are known one by one: which body the request has, what the answer holds, and that the walk ends
at the first page that is not full or reaches its total, and not before (`Client.Paged`).
-/

import DbInventory.Proofs.Api.Requests

namespace DbInventory

open Client (Carries Ready Makes)

variable {α τ : Type} {c : Client} {net : Network τ} {action : ApiAction} {body : Nat → Json}
  {decode : List (String × Json) → Option (Page α)} {limit : Nat} {L : List α}
  {allowed : Option UInt64 → Prop}

/-! ## Faithful servers -/

/-- In every state, a request of the action with the body of an offset is answered with the
slice of the list there; `allowed` says what the total may be. -/
def ServesPages (net : Network τ) (action : ApiAction) (body : Nat → Json)
    (decode : List (String × Json) → Option (Page α)) (limit : Nat) (L : List α)
    (allowed : Option UInt64 → Prop) : Prop :=
  ∀ (offset : UInt64) (request : HttpRequest) (s : τ),
    Carries request action (body offset.toNat) →
    ∃ reply page, (net.send request s).1 = .ok reply ∧
      reply.outcome action.name decode = .ok page ∧
      page.entries = (L.drop offset.toNat).take limit ∧ allowed page.total

theorem ServesPages.recorded (h : ServesPages net action body decode limit L allowed) :
    ServesPages net.recorded action body decode limit L allowed :=
  fun offset request s hcarries => h offset request s.1 hcarries

/-- The total of a list is missing or does not fall short of it. -/
def Covers (L : List α) (total : Option UInt64) : Prop :=
  ∀ n ∈ total, L.length ≤ n.toNat

theorem covers_none (L : List α) : Covers L none := by
  intro n hn
  cases hn

/-- The length of a list does not fall short of it. -/
theorem covers_of_told {total : Option UInt64} (h : ∃ n ∈ total, n.toNat = L.length) :
    Covers L total := by
  obtain ⟨n, hn, hsame⟩ := h
  intro m hm
  obtain rfl : n = m := Option.mem_unique hn hm
  exact Nat.le_of_eq hsame.symm

/-- A total that does not fall short is reached at the end of the list only. -/
theorem Covers.reached_iff {total : Option UInt64} (h : Covers L total) (m : Nat) :
    (L.length < m ∨ ∃ n ∈ total, n.toNat ≤ m) ↔
      L.length < m ∨ L.length = m ∧ ∃ n ∈ total, n.toNat = L.length := by
  constructor
  · rintro (hlt | ⟨n, hn, hle⟩)
    · exact .inl hlt
    · have hcovers := h n hn
      by_cases hlt : L.length < m
      · exact .inl hlt
      · exact .inr ⟨by omega, n, hn, by omega⟩
  · rintro (hlt | ⟨heq, n, hn, hsame⟩)
    · exact .inl hlt
    · exact .inr ⟨n, hn, by omega⟩

namespace Client

/-- **A page of a faithful server** is what a ready call gives. -/
theorem page_of_serves (hready : c.Ready net action)
    (hserver : ServesPages net action body decode limit L allowed) {o : Nat}
    (ho : o < UInt64.size) (s : τ) :
    ∃ page s', c.call net action (body o) decode s = (.ok page, s') ∧
      page.entries = (L.drop o).take limit ∧ allowed page.total := by
  obtain ⟨request, hcarries, hcall⟩ := call_of_ready hready (body o) decode s
  have hoffset : (UInt64.ofNat o).toNat = o := UInt64.toNat_ofNat_of_lt' ho
  obtain ⟨reply, page, hreply, houtcome, hentries, htotal⟩ :=
    hserver (UInt64.ofNat o) request (net.now s).2 (by rw [hoffset]; exact hcarries)
  refine ⟨page, (net.send request (net.now s).2).2, ?_, by rw [hentries, hoffset], htotal⟩
  rw [hcall, hreply]
  exact congrArg (·, (net.send request (net.now s).2).2) houtcome

/-- The walk over a faithful server. -/
theorem exists_walk_of_serves (hready : c.Ready net action) (hlimit : 0 < limit)
    (hlength : L.length + limit < UInt64.size)
    (hserver : ServesPages net action body decode limit L allowed)
    (hcovers : ∀ total, allowed total → Covers L total) (s : τ) :
    ∃ pages s',
      Page.Walk limit (fun o => c.call net action (body o) decode) 0 s pages none s' ∧
      Page.Tiles L limit 0 pages ∧ ∀ page ∈ pages, allowed page.total := by
  refine Page.exists_walk_of_slices hlimit ?_ 0 s (Nat.zero_le _)
  intro o s ho
  have hword : o < UInt64.size := by omega
  obtain ⟨page, s', hpage, hentries, htotal⟩ := page_of_serves hready hserver hword s
  exact ⟨page, s', hpage, ⟨hentries, hcovers _ htotal⟩, htotal⟩

end Client

/-- **A walk whose pages tile a list collects the list.** A list this short needs fewer pages
than the offsets can count. -/
theorem Page.Walk.collectAll_eq {ε : Type} {fetch : Nat → τ → Except ε (Page α) × τ}
    {pages : List (Page α)} {s s' : τ} (h : Page.Walk limit fetch 0 s pages none s')
    (htiles : Page.Tiles L limit 0 pages) (hlimit : 0 < limit)
    (hlength : L.length + limit < UInt64.size) (exhausted : ε) :
    Page.collectAll limit fetch exhausted s = (.ok L, s') := by
  have hbudget : pages.length < Page.budget limit + 1 := by
    have hle := htiles.length_le hlimit
    rw [Nat.sub_zero] at hle
    have hpages : (L.length + limit) / limit ≤ UInt64.size / limit :=
      Nat.div_le_div_right (Nat.le_of_lt hlength)
    rw [Nat.add_div_right _ hlimit] at hpages
    rw [Page.budget]
    omega
  rw [Page.collectAll, h.collect_eq _ hbudget, Page.collected,
    htiles.entries_eq hlimit (Nat.zero_le _)]
  rfl

namespace Client

/-! ## The exchanges of a walk -/

/-- The exchanges of a walk over a list: each request asks for the next slice, each answer is a
page with that slice and an allowed total, and the last page is the first that is not full or
reaches its total. -/
structure Paged (c : Client) (action : ApiAction) (body : Nat → Json)
    (decode : List (String × Json) → Option (Page α)) (limit : Nat) (L : List α)
    (allowed : Option UInt64 → Prop) (exchanges : List Exchange) : Prop where
  ne_nil : exchanges ≠ []
  exchange : ∀ k exchange, exchanges[k]? = some exchange →
    c.Makes action (body (k * limit)) exchange.request ∧
    ∃ reply page, exchange.answer = .ok reply ∧
      reply.outcome action.name decode = .ok page ∧
      page.entries = (L.drop (k * limit)).take limit ∧ allowed page.total ∧
      (k + 1 = exchanges.length ↔
        L.length < (k + 1) * limit ∨ ∃ n ∈ page.total, n.toNat ≤ (k + 1) * limit)

theorem Paged.alike {exchanges : List Exchange}
    (h : c.Paged action body decode limit L allowed exchanges) :
    ∀ x ∈ exchanges, ∀ y ∈ exchanges, x.request.Alike y.request := by
  intro x hx y hy
  obtain ⟨i, hi⟩ := List.getElem?_of_mem hx
  obtain ⟨j, hj⟩ := List.getElem?_of_mem hy
  exact (h.exchange i x hi).1.alike (h.exchange j y hj).1

/-- A slice ends a walk if the list ends within it, or the total is reached behind it. -/
theorem isLast_slice_iff (hlimit : 0 < limit) {page : Page α} {k : Nat}
    (hentries : page.entries = (L.drop (k * limit)).take limit) :
    page.isLast (k * limit) limit = true ↔
      L.length < (k + 1) * limit ∨ ∃ n ∈ page.total, n.toNat ≤ (k + 1) * limit := by
  have hlength : page.entries.length = min limit (L.length - k * limit) := by simp [hentries]
  have hnext : (k + 1) * limit = k * limit + limit := Nat.succ_mul k limit
  simp only [Page.isLast, Bool.or_eq_true, decide_eq_true_eq]
  cases htotal : page.total with
  | none =>
    simp
    omega
  | some n =>
    simp
    omega

/-- The exchange that a page of a recording network leaves. -/
theorem page_recorded (c : Client) (net : Network τ) (o : Nat) (t : τ × List Exchange)
    (page : Page α) (t' : τ × List Exchange)
    (h : c.call net.recorded action (body o) decode t = (.ok page, t')) :
    ∃ exchange, t'.2 = t.2 ++ [exchange] ∧ c.Makes action (body o) exchange.request ∧
      ∃ reply, exchange.answer = .ok reply ∧ reply.outcome action.name decode = .ok page := by
  obtain ⟨result, s', sent, -, hrecorded, hsends⟩ :=
    call_recorded c net action (body o) decode t.1 t.2
  obtain ⟨hresult, rfl⟩ := Prod.mk.inj (hrecorded.symm.trans h)
  obtain ⟨request, reply, rfl, hmakes, houtcome⟩ := hsends.exists_of_ok hresult
  exact ⟨⟨request, .ok reply⟩, rfl, hmakes, reply, rfl, houtcome⟩

/-- **A list that is served in pages is collected**, with the exchanges that it takes. -/
theorem collectAll_of_serves (hready : c.Ready net action) (hlimit : 0 < limit)
    (hlength : L.length + limit < UInt64.size)
    (hserver : ServesPages net action body decode limit L allowed)
    (hcovers : ∀ total, allowed total → Covers L total) (exhausted : ClientError) (s : τ) :
    ∃ s' exchanges,
      Page.collectAll limit (fun o => c.call net action (body o) decode) exhausted s =
        (.ok L, s') ∧
      Page.collectAll limit (fun o => c.call net.recorded action (body o) decode) exhausted
        (s, []) = (.ok L, s', exchanges) ∧
      c.Paged action body decode limit L allowed exchanges := by
  obtain ⟨pages, ⟨s', exchanges⟩, hwalk, htiles, htotals⟩ :=
    exists_walk_of_serves hready.recorded hlimit hlength hserver.recorded hcovers (s, [])
  have hrecorded := hwalk.collectAll_eq htiles hlimit hlength exhausted
  refine ⟨s', exchanges, ?_, hrecorded, ?_⟩
  · -- leaving the record out of the state gives the loop without it
    have hplain := collectAll_unrecorded c net action body decode limit exhausted (s, [])
    rwa [hrecorded] at hplain
  · obtain ⟨record, hrecord, hne, -, hentries⟩ := hwalk.record_eq (page_recorded c net) rfl
    obtain rfl : exchanges = record := hrecord
    refine ⟨hne, ?_⟩
    intro k exchange hk
    obtain ⟨page, hpage, ⟨hmakes, reply, hanswer, houtcome⟩, hend⟩ := hentries k exchange hk
    have hslice := htiles.isSlice_of_getElem? hpage
    have htotal := htotals page (List.mem_of_getElem? hpage)
    rw [Nat.zero_add] at hmakes hend hslice
    refine ⟨hmakes, reply, page, hanswer, houtcome, hslice.entries, htotal, ?_⟩
    rw [hend, isLast_slice_iff hlimit hslice.entries]

end Client

end DbInventory
