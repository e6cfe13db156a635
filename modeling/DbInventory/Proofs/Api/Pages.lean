/-
# DbInventory.Proofs.Api.Pages -- what the reply of a page tells

A page is decoded from trees, and where decoding fails there is no page. `TellsPage` says what a
response has to say for a page to come out, in terms of the texts of its members only: every
name that is asked for is given at most once, the total is a number, and the list is cut into
the texts of the entries, none of them lost. A page comes out exactly of such replies
(`outcome_page_iff`). What a response tells depends neither on the order of its members nor on
members of other names (`TellsPage.reordered`).
-/

import DbInventory.Proofs.Api.Response

namespace DbInventory

open Json (Readable memberTexts? itemTexts? readAll ScalarAlone)
open Envelope (memberDepth responseText?)

variable {α : Type} {text listName : String} {entry : String → α → Prop}
  {ms ms' : List (String × String)} {page : Page α}

/-! ## What a response tells -/

/-- The text says null. -/
def SaysNull (text : String) : Prop := readAll (Json.readTree 0) text = .ok .null

/-- A total is told by an unsigned word; a missing total and null tell none. -/
def TotalTold : Option String → Option UInt64 → Prop
  | none, total => total = none
  | some text, total =>
    (SaysNull text ∧ total = none) ∨
      ∃ v n, readAll (Json.readTree 0) text = .ok v ∧ v.uint64? = some n ∧ total = some n

/-- Entries are told by a list, one by each of its elements; a missing list tells none. -/
def EntriesTold (entry : String → α → Prop) : Option String → List α → Prop
  | none, entries => entries = []
  | some text, entries =>
    ∃ texts, itemTexts? text = some texts ∧ List.Forall₂ entry texts entries

/-- **What the members of a response tell**: no error, perhaps an identifier, and a page. -/
structure TellsPage (listName : String) (entry : String → α → Prop)
    (ms : List (String × String)) (page : Page α) : Prop where
  noError : ∃ t, Page.single? ms "Error" = some t ∧ ∀ text ∈ t, SaysNull text
  requestId : ∃ t, Page.single? ms "RequestId" = some t ∧
    ∀ text ∈ t, ∃ id, readAll (Json.readOptional Json.readStringValue) text = .ok id
  readable : ∀ m ∈ ms, Readable memberDepth m.2
  total : ∃ t, Page.single? ms "TotalCount" = some t ∧ TotalTold t page.total
  entries : ∃ t, Page.single? ms listName = some t ∧ EntriesTold entry t page.entries

/-! ## The error and the identifier -/

theorem saysNull_iff : SaysNull text ↔ ScalarAlone text .null :=
  Json.readAll_readTree_zero_iff

theorem readAll_readOptional_none_iff {r : Json.Reader α} :
    readAll (Json.readOptional r) text = .ok none ↔ SaysNull text := by
  rw [Json.readAll_eq_ok_iff, saysNull_iff]
  constructor
  · rintro ⟨rest, h, hend⟩
    rcases Json.readOptional_eq_ok_iff.1 h with ⟨-, hnull⟩ | ⟨x, h, -⟩
    · exact ⟨rest, Json.scalarText_null_iff.2 hnull, hend⟩
    · cases h
  · rintro ⟨rest, hnull, hend⟩
    have hnull := Json.scalarText_null_iff.1 hnull
    exact ⟨rest, Json.readOptional_eq_ok_iff.2 (.inl ⟨rfl, hnull⟩), hend⟩

/-- An identifier has a tree. -/
theorem readable_of_requestId {id : Option String}
    (h : readAll (Json.readOptional Json.readStringValue) text = .ok id) (depth : Nat) :
    Readable depth text := by
  obtain ⟨rest, hread, hend⟩ := Json.readAll_eq_ok_iff.1 h
  rcases Json.readOptional_eq_ok_iff.1 hread with ⟨rfl, hnull⟩ | ⟨x, rfl, -, hx⟩
  · exact ⟨.null, (saysNull_iff.1 (readAll_readOptional_none_iff.1 h)).readTree_eq depth⟩
  · obtain ⟨v, -, hv⟩ := Json.readStringValue_eq_ok_iff.1 hx
    rw [Json.skipBlanks_skipBlanks] at hv
    exact ⟨v, Json.ScalarAlone.readTree_eq ⟨rest, hv, hend⟩ depth⟩

/-- There is no error. -/
theorem readOnce_none_iff {r : Json.Reader (Option α)} {name : String} :
    (∃ x, ReadOnce r name ms none x ∧ x.join = none) ↔
      ∃ t, Page.single? ms name = some t ∧ ∀ text ∈ t, readAll r text = .ok none := by
  constructor
  · rintro ⟨x, ⟨hnone, rfl⟩ | ⟨text, y, hsome, hread, rfl⟩, hx⟩
    · exact ⟨none, hnone, fun text h => nomatch h⟩
    · obtain rfl : y = none := by simpa using hx
      exact ⟨some text, hsome, fun _ h => Option.some.inj h ▸ hread⟩
  · rintro ⟨_ | text, hsingle, hread⟩
    · exact ⟨none, .inl ⟨hsingle, rfl⟩, rfl⟩
    · exact ⟨some none, .inr ⟨text, none, hsingle, hread text rfl, rfl⟩, rfl⟩

theorem exists_readOnce_iff {r : Json.Reader α} {name : String} :
    (∃ x, ReadOnce r name ms none x) ↔
      ∃ t, Page.single? ms name = some t ∧ ∀ text ∈ t, ∃ y, readAll r text = .ok y := by
  constructor
  · rintro ⟨x, ⟨hnone, rfl⟩ | ⟨text, y, hsome, hread, rfl⟩⟩
    · exact ⟨none, hnone, fun text h => nomatch h⟩
    · exact ⟨some text, hsome, fun _ h => ⟨y, Option.some.inj h ▸ hread⟩⟩
  · rintro ⟨_ | text, hsingle, hread⟩
    · exact ⟨none, .inl ⟨hsingle, rfl⟩⟩
    · obtain ⟨y, hy⟩ := hread text rfl
      exact ⟨some y, .inr ⟨text, y, hsingle, hy, rfl⟩⟩

/-! ## The total and the entries -/

theorem decodeTotal_some_eq_some_iff {v : Json} {total : Option UInt64} :
    Page.decodeTotal (some v) = some total ↔
      (v = .null ∧ total = none) ∨ ∃ n, v.uint64? = some n ∧ total = some n := by
  have hmap : v.uint64?.map some = some total ↔ ∃ n, v.uint64? = some n ∧ total = some n := by
    rw [Option.map_eq_some_iff]
    exact exists_congr fun n => and_congr_right fun _ => eq_comm
  cases v with
  | null => simp [Page.decodeTotal, Json.uint64?, eq_comm]
  | _ => simpa [Page.decodeTotal] using hmap

/-- The total of a text is that of its tree. -/
theorem totalTold_iff {v : Json} {depth : Nat} {total : Option UInt64}
    (hv : readAll (Json.readTree depth) text = .ok v) :
    TotalTold (some text) total ↔ Page.decodeTotal (some v) = some total := by
  have htree : ∀ {w}, readAll (Json.readTree 0) text = .ok w → w = v := by
    intro w hw
    have hsame := (Json.readAll_readTree_zero_iff.1 hw).readTree_eq depth
    rw [hv] at hsame
    exact (Except.ok.inj hsame).symm
  -- a total that is accepted is a scalar, which is read at any depth
  have hscalar : (∀ items, v ≠ .array items) → (∀ members, v ≠ .object members) →
      readAll (Json.readTree 0) text = .ok v := fun hlist hobject =>
    Json.readAll_readTree_zero_iff.2 (Json.scalarAlone_of_readTree hv hlist hobject)
  rw [decodeTotal_some_eq_some_iff]
  constructor
  · rintro (⟨hnull, htotal⟩ | ⟨w, n, hw, hn, htotal⟩)
    · exact .inl ⟨(htree hnull).symm, htotal⟩
    · obtain rfl := htree hw
      exact .inr ⟨n, hn, htotal⟩
  · rintro (⟨rfl, htotal⟩ | ⟨n, hn, htotal⟩)
    · exact .inl ⟨hscalar (by simp) (by simp), htotal⟩
    · refine .inr ⟨v, n, hscalar ?_ ?_, hn, htotal⟩
      · rintro items rfl
        cases hn
      · rintro members rfl
        cases hn

theorem mapM_eq_some_iff {β : Type} {f : α → Option β} {xs : List α} {ys : List β} :
    xs.mapM f = some ys ↔ List.Forall₂ (fun x y => f x = some y) xs ys := by
  induction xs generalizing ys with
  | nil => simp [eq_comm]
  | cons x xs ih =>
    rw [List.forall₂_cons_left_iff, List.mapM_cons]
    simp only [Option.bind_eq_bind, Option.bind_eq_some_iff, ih, Option.pure_def,
      Option.some.injEq]
    constructor
    · rintro ⟨y, hy, ys, hys, rfl⟩
      exact ⟨y, ys, hy, hys, rfl⟩
    · rintro ⟨y, ys, hy, hys, rfl⟩
      exact ⟨y, hy, ys, hys, rfl⟩

/-- Entries that are decoded from trees are those of the texts. -/
theorem forall₂_entry_iff {depth : Nat} {decode : Json → Option α} {texts : List String}
    {items : List Json} {entries : List α}
    (hentry : ∀ {depth text v x}, readAll (Json.readTree depth) text = .ok v →
      (decode v = some x ↔ entry text x))
    (h : List.Forall₂ (fun t w => readAll (Json.readTree depth) t = .ok w) texts items) :
    List.Forall₂ (fun v x => decode v = some x) items entries ↔
      List.Forall₂ entry texts entries := by
  induction h generalizing entries with
  | nil => simp
  | cons hv _ ih =>
    rw [List.forall₂_cons_left_iff, List.forall₂_cons_left_iff]
    simp only [hentry hv, ih]

/-- The entries of a text are those of its tree. -/
theorem entriesTold_iff {v : Json} {depth : Nat} {decode : Json → Option α} {entries : List α}
    (hentry : ∀ {depth text v x}, readAll (Json.readTree depth) text = .ok v →
      (decode v = some x ↔ entry text x))
    (hv : readAll (Json.readTree (depth + 1)) text = .ok v) :
    EntriesTold entry (some text) entries ↔
      Page.decodeEntries decode (some v) = some entries := by
  show (∃ texts, itemTexts? text = some texts ∧ List.Forall₂ entry texts entries) ↔ _
  rcases Json.readAll_readTree_succ_iff.1 hv with hscalar | ⟨texts, items, hts, rfl, hall⟩ |
    ⟨ms, members, hms, rfl, hall⟩
  · have hnone : Page.decodeEntries decode (some v) = none := by
      obtain ⟨rest, hs, -⟩ := hscalar
      generalize Json.skipBlanks text.toList = u at hs
      cases hs <;> rfl
    rw [hscalar.itemTexts?_eq, hnone]
    simp
  · have hitems : Page.decodeEntries decode (some (.array items)) = items.mapM decode := rfl
    rw [hts, hitems, mapM_eq_some_iff, forall₂_entry_iff hentry hall]
    simp
  · rw [Json.itemTexts?_of_memberTexts? hms]
    simp [Page.decodeEntries]

/-! ## Pages of replies -/

theorem outcome_eq_ok_iff {reply : HttpReply} {action : String} {x : α}
    {decode : List (String × Json) → Option α} :
    reply.outcome action decode = .ok x ↔
      ∃ envelope, Envelope.ofText reply.text = .ok envelope ∧ envelope.error = none ∧
        decode envelope.members = some x := by
  unfold HttpReply.outcome
  cases Envelope.ofText reply.text with
  | error fault => by_cases h : reply.isSuccess = true <;> simp [h]
  | ok envelope =>
    simp only [Except.ok.injEq, exists_eq_left', Envelope.outcome]
    cases envelope.error with
    | some error => simp
    | none => cases decode envelope.members <;> simp

theorem ofMembers?_eq_some_iff {decode : Json → Option α} {members : List (String × Json)} :
    Page.ofMembers? listName decode members = some page ↔
      (∃ t, Page.single? members "TotalCount" = some t ∧
        Page.decodeTotal t = some page.total) ∧
      ∃ l, Page.single? members listName = some l ∧
        Page.decodeEntries decode l = some page.entries := by
  obtain ⟨total, entries⟩ := page
  simp only [Page.ofMembers?, Option.bind_eq_bind, Option.bind_eq_some_iff, Option.some.injEq,
    Page.mk.injEq]
  constructor
  · rintro ⟨t, ht, total', htotal, l, hl, entries', hentries, rfl, rfl⟩
    exact ⟨⟨t, ht, htotal⟩, l, hl, hentries⟩
  · rintro ⟨⟨t, ht, htotal⟩, l, hl, hentries⟩
    exact ⟨t, ht, total, htotal, l, hl, entries, hentries, rfl, rfl⟩

/-- What is told once by texts is told once by their trees. -/
theorem exists_single?_iff {members : List (String × Json)} {name : String}
    (hname : name ≠ "Error" ∧ name ≠ "RequestId")
    (htrees : Envelope.HaveTrees (ms.filter Envelope.isResult) members)
    {told : Option String → Prop} {decoded : Option Json → Prop} (hnone : told none ↔ decoded none)
    (hsome : ∀ text v, readAll (Json.readTree memberDepth) text = .ok v →
      (told (some text) ↔ decoded (some v))) :
    (∃ t, Page.single? ms name = some t ∧ told t) ↔
      ∃ t, Page.single? members name = some t ∧ decoded t := by
  -- the name is one of the result, of which the texts and the trees stand side by side
  have hrel := Page.single?_rel (fun _ _ h => h.1) htrees name
  rw [Page.single?_filter (by rintro m rfl; simpa [Envelope.isResult] using hname)] at hrel
  generalize Page.single? ms name = a at hrel
  generalize Page.single? members name = b at hrel
  cases hrel with
  | none => simp
  | some hrel =>
    cases hrel with
    | none => simpa using hnone
    | some h => simpa using hsome _ _ h.2

/-- All members of a response have trees if those of the result do. -/
theorem readable_of_haveTrees {members : List (String × Json)}
    (hnoError : ∃ t, Page.single? ms "Error" = some t ∧ ∀ text ∈ t, SaysNull text)
    (hid : ∃ t, Page.single? ms "RequestId" = some t ∧
      ∀ text ∈ t, ∃ id, readAll (Json.readOptional Json.readStringValue) text = .ok id)
    (htrees : Envelope.HaveTrees (ms.filter Envelope.isResult) members) :
    ∀ m ∈ ms, Readable memberDepth m.2 := by
  intro m hm
  by_cases herror : m.1 = "Error"
  · obtain ⟨t, hsingle, hnull⟩ := hnoError
    obtain rfl := Page.single?_of_mem hm (herror.symm ▸ hsingle)
    exact ⟨.null, (saysNull_iff.1 (hnull m.2 rfl)).readTree_eq memberDepth⟩
  · by_cases hrequest : m.1 = "RequestId"
    · obtain ⟨t, hsingle, hread⟩ := hid
      obtain rfl := Page.single?_of_mem hm (hrequest.symm ▸ hsingle)
      obtain ⟨id, hid⟩ := hread m.2 rfl
      exact readable_of_requestId hid memberDepth
    · have hresult : m ∈ ms.filter Envelope.isResult :=
        List.mem_filter.2 ⟨hm, by simp [Envelope.isResult, herror, hrequest]⟩
      obtain ⟨w, -, hw⟩ := Json.exists_forall₂_iff.1 ⟨members, htrees⟩ m hresult
      exact ⟨w.2, hw⟩

theorem TellsPage.exists_trees (h : TellsPage listName entry ms page) :
    ∃ members, Envelope.HaveTrees (ms.filter Envelope.isResult) members := by
  unfold Envelope.HaveTrees
  rw [Json.exists_forall₂_iff]
  intro m hm
  obtain ⟨v, hv⟩ := h.readable m (List.mem_filter.1 hm).1
  exact ⟨(m.1, v), rfl, hv⟩

/-- What the members tell of a page is what their trees are decoded to. -/
theorem told_iff_ofMembers? {members : List (String × Json)} {decode : Json → Option α}
    (hlist : listName ≠ "Error" ∧ listName ≠ "RequestId")
    (hentry : ∀ {depth text v x}, readAll (Json.readTree depth) text = .ok v →
      (decode v = some x ↔ entry text x))
    (htrees : Envelope.HaveTrees (ms.filter Envelope.isResult) members) :
    ((∃ t, Page.single? ms "TotalCount" = some t ∧ TotalTold t page.total) ∧
      ∃ t, Page.single? ms listName = some t ∧ EntriesTold entry t page.entries) ↔
      Page.ofMembers? listName decode members = some page := by
  rw [ofMembers?_eq_some_iff]
  refine and_congr ?_ ?_
  · refine exists_single?_iff (by simp) htrees ?_ ?_
    · simp [TotalTold, Page.decodeTotal, eq_comm]
    · intro text v hv
      exact totalTold_iff hv
  · refine exists_single?_iff hlist htrees ?_ ?_
    · simp [EntriesTold, Page.decodeEntries, eq_comm]
    · intro text v hv
      exact entriesTold_iff hentry hv

/-- **A page comes out of a reply exactly if its response tells that page.** -/
theorem outcome_page_iff {reply : HttpReply} {action : String} {decode : Json → Option α}
    (hlist : listName ≠ "Error" ∧ listName ≠ "RequestId")
    (hentry : ∀ {depth text v x}, readAll (Json.readTree depth) text = .ok v →
      (decode v = some x ↔ entry text x)) :
    reply.outcome action (Page.ofMembers? listName decode) = .ok page ↔
      ∃ response ms, responseText? reply.text = some response ∧
        memberTexts? response = some ms ∧ TellsPage listName entry ms page := by
  rw [outcome_eq_ok_iff]
  constructor
  · rintro ⟨envelope, henvelope, hnoerror, hpage⟩
    obtain ⟨response, hresponse, hread⟩ := Envelope.ofText_eq_ok_iff.1 henvelope
    obtain ⟨ms, error, requestId, hms, herror, hid, htrees, he, -⟩ :=
      Envelope.readAll_responseForm_iff.1 hread
    have hnull : ∃ t, Page.single? ms "Error" = some t ∧ ∀ text ∈ t, SaysNull text := by
      simp only [← readAll_readOptional_none_iff (r := ReplyError.reader)]
      exact readOnce_none_iff.1 ⟨error, herror, he.symm.trans hnoerror⟩
    have hids := exists_readOnce_iff.1 ⟨requestId, hid⟩
    obtain ⟨htotal, hentries⟩ := (told_iff_ofMembers? hlist hentry htrees).2 hpage
    exact ⟨response, ms, hresponse, hms,
      { noError := hnull
        requestId := hids
        readable := readable_of_haveTrees hnull hids htrees
        total := htotal
        entries := hentries }⟩
  · rintro ⟨response, ms, hresponse, hms, h⟩
    have hnull := h.noError
    simp only [← readAll_readOptional_none_iff (r := ReplyError.reader)] at hnull
    obtain ⟨error, herror, hnoerror⟩ := readOnce_none_iff.2 hnull
    obtain ⟨requestId, hid⟩ := exists_readOnce_iff.2 h.requestId
    obtain ⟨members, htrees⟩ := h.exists_trees
    refine ⟨⟨none, requestId.join, members⟩, ?_, rfl, ?_⟩
    · refine Envelope.ofText_eq_ok_iff.2 ⟨response, hresponse, ?_⟩
      exact Envelope.readAll_responseForm_iff.2
        ⟨ms, error, requestId, hms, herror, hid, htrees, hnoerror.symm, rfl⟩
    · exact (told_iff_ofMembers? hlist hentry htrees).1 ⟨h.total, h.entries⟩

/-! ## The order of members -/

/-- A member that stands for another one: the same, or a list whose elements stand for those of
the other list. -/
def SameMember (listName : String) (same : String → String → Prop) (m m' : String × String) :
    Prop :=
  m = m' ∨
    m.1 = listName ∧ m'.1 = listName ∧
      ∃ texts texts', itemTexts? m.2 = some texts ∧ itemTexts? m'.2 = some texts' ∧
        List.Forall₂ same texts texts'

/-- A member that nobody asks for, with any value that has a tree. -/
def OtherMember (listName : String) (m : String × String) : Prop :=
  m.1 ∉ ["Error", "RequestId", "TotalCount", listName] ∧ Readable memberDepth m.2

/-- The members of two responses that tell the same. -/
abbrev SameMembers (listName : String) (same : String → String → Prop) :
    List (String × String) → List (String × String) → Prop :=
  Json.Reordered (SameMember listName same) (OtherMember listName)

variable {same : String → String → Prop}

theorem single?_reordered (hms : SameMembers listName same ms ms') {name : String}
    (hname : name ∈ ["Error", "RequestId", "TotalCount", listName]) :
    Option.Rel (Option.Rel fun x y => SameMember listName same (name, x) (name, y))
      (Page.single? ms name) (Page.single? ms' name) := by
  obtain ⟨kept, added, hperm, hkept, hadded⟩ := hms
  have hnames : ∀ m m', SameMember listName same m m' → m.1 = m'.1 := by
    rintro m m' (rfl | ⟨h, h', -⟩)
    · rfl
    · rw [h, h']
  rw [Page.single?_perm hperm, Page.single?_append]
  · exact Page.single?_rel hnames hkept name
  · rintro m hm rfl
    exact (hadded m hm).1 hname

/-- What is asked for by name, the list apart, stays the same. -/
theorem single?_reordered_of_ne (hms : SameMembers listName same ms ms') {name : String}
    (hname : name ∈ ["Error", "RequestId", "TotalCount"]) (hne : name ≠ listName) :
    Page.single? ms' name = Page.single? ms name := by
  have hmem : name ∈ ["Error", "RequestId", "TotalCount", listName] := by
    simp only [List.mem_cons, List.not_mem_nil, or_false] at hname ⊢
    tauto
  have hrel := single?_reordered hms hmem
  generalize Page.single? ms name = a at hrel
  generalize Page.single? ms' name = b at hrel
  cases hrel with
  | none => rfl
  | some hrel =>
    cases hrel with
    | none => rfl
    | some h =>
      rcases h with h | ⟨h, -, -⟩
      · rw [(Prod.mk.inj h).2]
      · exact absurd h hne

/-- All members that take the places of readable ones are readable. -/
theorem readable_reordered (hms : SameMembers listName same ms ms')
    (hsame : ∀ t t', same t t' → Readable (memberDepth - 1) t → Readable (memberDepth - 1) t')
    (h : ∀ m ∈ ms, Readable memberDepth m.2) : ∀ m ∈ ms', Readable memberDepth m.2 := by
  have hdepth : memberDepth = memberDepth - 1 + 1 := rfl
  obtain ⟨kept, added, hperm, hkept, hadded⟩ := hms
  intro m' hm'
  rcases List.mem_append.1 (hperm.mem_iff.1 hm') with hm' | hm'
  · obtain ⟨m, hm, hsamem⟩ : ∃ m ∈ ms, SameMember listName same m m' := by
      clear hperm
      induction hkept with
      | nil => cases hm'
      | @cons a b ms kept hab _ ih =>
        rcases List.mem_cons.1 hm' with rfl | hm'
        · exact ⟨a, List.mem_cons_self, hab⟩
        · obtain ⟨m, hm, hsamem⟩ := ih (fun m hm => h m (List.mem_cons_of_mem _ hm)) hm'
          exact ⟨m, List.mem_cons_of_mem _ hm, hsamem⟩
    rcases hsamem with rfl | ⟨-, -, texts, texts', hts, hts', hall⟩
    · exact h m hm
    · have hread := h m hm
      rw [hdepth, Json.readable_list_iff hts] at hread
      rw [hdepth, Json.readable_list_iff hts']
      clear hts hts'
      induction hall with
      | nil => simp
      | cons hab _ ih =>
        rw [List.forall_mem_cons] at hread ⊢
        exact ⟨hsame _ _ hab hread.1, ih hread.2⟩
  · exact (hadded m' hm').2

/-- A list that takes the place of another one tells the same entries. -/
theorem EntriesTold.of_sameMember {text' : String} {entries : List α}
    (hentry : ∀ t t' x, same t t' → entry t x → entry t' x)
    (htext : SameMember listName same (listName, text) (listName, text'))
    (h : EntriesTold entry (some text) entries) : EntriesTold entry (some text') entries := by
  rcases htext with hsametext | ⟨-, -, texts, texts', hts, hts', hall⟩
  · rwa [← (Prod.mk.inj hsametext).2]
  · obtain ⟨texts₀, hts₀, hentries⟩ := h
    obtain rfl := Option.some.inj (hts.symm.trans hts₀)
    refine ⟨texts', hts', ?_⟩
    clear hts hts' hts₀
    -- the two lists of texts are walked together, against the entries
    induction hall generalizing entries with
    | nil => exact hentries
    | cons hab _ ih =>
      cases hentries with
      | cons hx hrest => exact .cons (hentry _ _ _ hab hx) (ih hrest)

/-- **A page does not depend on the order of the members of its response**, nor on members that
nobody asks for. -/
theorem TellsPage.reordered (hms : SameMembers listName same ms ms')
    (hlist : listName ∉ ["Error", "RequestId", "TotalCount"])
    (hsame : ∀ t t', same t t' → Readable (memberDepth - 1) t → Readable (memberDepth - 1) t')
    (hentry : ∀ t t' x, same t t' → entry t x → entry t' x)
    (h : TellsPage listName entry ms page) : TellsPage listName entry ms' page := by
  have hsingle : ∀ {name}, name ∈ ["Error", "RequestId", "TotalCount"] →
      Page.single? ms' name = Page.single? ms name := by
    intro name hname
    apply single?_reordered_of_ne hms hname
    rintro rfl
    exact hlist hname
  refine ⟨?_, ?_, readable_reordered hms hsame h.readable, ?_, ?_⟩
  · rw [hsingle (by simp)]
    exact h.noError
  · rw [hsingle (by simp)]
    exact h.requestId
  · rw [hsingle (by simp)]
    exact h.total
  · obtain ⟨t, ht, hentries⟩ := h.entries
    have hmem : listName ∈ ["Error", "RequestId", "TotalCount", listName] := by simp
    have hrel := single?_reordered hms hmem
    rw [ht] at hrel
    generalize Page.single? ms' listName = t' at hrel
    cases hrel with
    | some hrel =>
      cases hrel with
      | none => exact ⟨none, rfl, hentries⟩
      | some htext => exact ⟨_, rfl, EntriesTold.of_sameMember hentry htext hentries⟩

end DbInventory
