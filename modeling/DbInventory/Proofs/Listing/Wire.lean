/-
# DbInventory.Proofs.Listing.Wire -- from arguments to the wire

The requests of a read, on the services of a client. Every loop over pages asks in steps of its
limit, however it ends, so the requests of a read are those of its listing, page by page, and
behind them those of the look-ups (`Client.readAs_recorded`). What a read does depends on its
arguments through the filter and the result file only (`Listing.read_eq_readAs`). So a read
sends the members that its configuration decides, or nothing at all
(`Client.readConfig_sends`).
-/

import DbInventory.App
import DbInventory.Proofs.Listing.Filter
import DbInventory.Proofs.Listing.State

namespace DbInventory

open ResourceData (fromConfig fromConfig_eq_ok_iff)

/-! ## What a read does with its filter -/

namespace Listing

variable {σ : Type}

/-- Saves a list in a result file, if there is one. -/
def saved (home : Option String) (files : FileTree) (file : Option String) (list : Json) :
    Except DataSourceError Unit × FileTree :=
  match file with
  | none => (.ok (), files)
  | some path =>
    match saveResult home files path list with
    | .error e => (.error (.ofSave e), files)
    | .ok (_, files) => (.ok (), files)

/-- A read of a filter: it lists, looks up, and saves. -/
def readAs (source : Listing σ) (filter : InstanceFilter) (file : Option String) (s : σ)
    (files : FileTree) : Except DataSourceError Unit × σ × FileTree :=
  match source.services.list filter s with
  | (.error e, s) => (.error (.service e), s, files)
  | (.ok instances, s) =>
    match source.collect instances s with
    | (.error e, s) => (.error (.service e), s, files)
    | (.ok items, s) =>
      let (result, files) := saved source.home files file (.array items)
      (result, s, files)

theorem save_eq_saved (source : Listing σ) (list : Json) (d : ResourceData) (s : σ)
    (files : FileTree) :
    source.save list ⟨d, s, files⟩ =
      ((saved source.home files (resultFile? d) list).1,
        ⟨d, s, (saved source.home files (resultFile? d) list).2⟩) := by
  cases hfile : resultFile? d with
  | none => rw [save_of_no_file source hfile]; rfl
  | some path =>
    simp only [save, resultFile?_eq_some_iff.1 hfile, saved]
    cases saveResult source.home files path list <;> rfl

/-- The items of a successful look-up are those of the instances, with their tags. -/
theorem given_of_collect {source : Listing σ} {instances : List DbInstance} {items : List Json}
    {s s' : σ} (h : source.collect instances s = (.ok items, s')) :
    ∃ given, Given instances given ∧ items = itemsOf given := by
  obtain ⟨answer, s₁, asked, hcollect, hlookups⟩ := collect_recorded source instances s []
  have hplain := collect_unrecorded source instances (s, [])
  rw [hcollect, h] at hplain
  obtain ⟨hanswer, -⟩ := Prod.mk.inj hplain
  cases hlookups with
  | @answered given hgiven => exact ⟨given, hgiven, Except.ok.inj hanswer⟩
  | failed => cases hanswer

/-- **What a read does depends on its arguments through the filter and the result file only.** -/
theorem read_eq_readAs (source : Listing σ) {d : ResourceData} (hschema : d.schema = listingSchema)
    {filter : InstanceFilter} (hfilter : filterOf d = .ok filter) (s : σ) (files : FileTree) :
    ∃ d', source.read ⟨d, s, files⟩ =
      ((source.readAs filter (resultFile? d) s files).1,
        ⟨d', (source.readAs filter (resultFile? d) s files).2.1,
          (source.readAs filter (resultFile? d) s files).2.2⟩) := by
  unfold readAs
  rcases hlist : source.services.list filter s with ⟨e | instances, s₁⟩
  · exact ⟨d, by simp only [read, hfilter, hlist]⟩
  · rcases hcollect : source.collect instances s₁ with ⟨e | items, s₂⟩
    · exact ⟨d, by simp only [read, hfilter, hlist, hcollect]⟩
    · obtain ⟨given, hgiven, rfl⟩ := given_of_collect hcollect
      refine ⟨listed d given, ?_⟩
      simp only [read, hfilter, hlist, hcollect]
      rw [store_eq source hgiven hschema, save_eq_saved, resultFile?_listed]

/-- Saving fails as saving does, and not for a service or an argument. -/
theorem saved_error_cause {home : Option String} {files : FileTree} {file : Option String}
    {list : Json} {e : DataSourceError} (h : (saved home files file list).1 = .error e) :
    ∃ e', e = .ofSave e' := by
  unfold saved at h
  split at h
  · cases h
  · split at h
    next e' _ => exact ⟨e', (Except.error.inj h).symm⟩
    · cases h

/-- An instance with an identifier is asked for. -/
theorem tagsOf_of_id (source : Listing σ) {x : DbInstance} (hid : x.idText ≠ "") (s : σ) :
    source.tagsOf x s = source.services.tags (tagQuery source.region x) s := if_neg hid

/-! ## What a read does not look at -/

/-- Services with more in their state, which leave it out of what they do. -/
structure Forgets {σ' : Type} (source : Listing σ) (source' : Listing σ') (forget : σ' → σ) :
    Prop where
  list : ∀ filter t, source.services.list filter (forget t) =
    ((source'.services.list filter t).1, forget (source'.services.list filter t).2)
  tags : ∀ query t, source.services.tags query (forget t) =
    ((source'.services.tags query t).1, forget (source'.services.tags query t).2)
  region : source.region = source'.region
  home : source.home = source'.home

section Forgets

variable {σ' : Type} {source : Listing σ} {source' : Listing σ'} {forget : σ' → σ}

theorem Forgets.alike (h : Forgets source source' forget) :
    Alike (fun s t => s = forget t) source source' where
  list := by
    rintro filter _ t rfl
    rw [h.list]
    exact ⟨rfl, rfl⟩
  tags := by
    rintro query _ t rfl
    rw [h.tags]
    exact ⟨rfl, rfl⟩
  region := h.region
  home := h.home

/-- **A read leaves out what its services leave out.** -/
theorem Forgets.readConfig (h : Forgets source source' forget) (config : Dict Json) (t : σ')
    (files : FileTree) :
    source.readConfig config (forget t) files =
      ((source'.readConfig config t files).1, forget (source'.readConfig config t files).2.1,
        (source'.readConfig config t files).2.2) := by
  obtain ⟨result, _, t', files', hread, hread', rfl⟩ :=
    h.alike.readConfig config (rfl : forget t = forget t) files
  rw [hread, hread']

end Forgets

end Listing

/-! ## Errors of a client -/

/-- Texts that begin with different characters are different. -/
theorem append_ne_append {a b : String} (h : a.toList.head? ≠ b.toList.head?) (ha : a ≠ "")
    (hb : b ≠ "") (s t : String) : a ++ s ≠ b ++ t := by
  intro heq
  have hhead := congrArg (fun text => text.toList.head?) heq
  simp only [String.toList_append, List.head?_append_of_ne_nil _ (mt String.toList_eq_nil_iff.1 ha),
    List.head?_append_of_ne_nil _ (mt String.toList_eq_nil_iff.1 hb)] at hhead
  exact h hhead

namespace Client

/-- The error about a project below zero, which a listing of such a project gives. -/
def negativeProject (number : String) : ClientError :=
  .invalidRequest listAction.name ("ProjectId must not be negative, got " ++ number)

/-- A listing of a project below zero is refused with that error. -/
theorem list_of_negative {τ : Type} (c : Client) (net : Network τ) {filter : InstanceFilter}
    {p : Int64} (hp : filter.projectId = some p) (hneg : p < 0) (s : τ) :
    c.list net filter s = (.error (negativeProject (toString p.toInt)), s) := by
  rw [list, hp]
  simp only [Option.filter_some, decide_eq_true hneg, if_true]
  rfl

/-- The failures of calls and walks: one that complains about a request does so because there
are no more offsets. -/
def Ordinary (e : ClientError) : Prop :=
  e = exhausted listAction ∨ e = exhausted tagAction ∨ ∀ name text, e ≠ .invalidRequest name text

/-- The beginning of the messages about a request. -/
theorem message_invalidRequest (name text : String) :
    (ClientError.invalidRequest name text).message =
      "invalid " ++ (name ++ (" request: " ++ text)) := by
  unfold ClientError.message
  simp only [String.append_assoc]

/-- **No other failure reads like that of a project below zero.** -/
theorem Ordinary.message_ne {e : ClientError} (h : Ordinary e) (number : String) :
    e.message ≠ (negativeProject number).message := by
  rw [negativeProject, message_invalidRequest]
  rcases h with rfl | rfl | hcause
  · -- one name of an action, but another text behind it
    rw [exhausted, message_invalidRequest]
    simp only [ne_eq, String.append_right_inj]
    rw [show "no more offsets" = "no " ++ "more offsets" by decide +kernel]
    apply append_ne_append <;> simp
  · -- the names of the two actions part behind what both describe
    rw [exhausted, message_invalidRequest,
      show tagAction.name = "Describe" ++ "ResourceTagsByResourceIds" by decide +kernel,
      show listAction.name = "Describe" ++ "DBInstances" by decide +kernel]
    simp only [ne_eq, String.append_right_inj, String.append_assoc]
    apply append_ne_append <;> simp
  · unfold ClientError.message
    cases e with
    | invalidRequest name text => exact absurd rfl (hcause name text)
    | invalidEndpoint endpoint text =>
      rw [show "invalid endpoint '" = "invalid " ++ "endpoint '" by decide +kernel]
      simp only [ne_eq, String.append_right_inj, String.append_assoc]
      rw [show listAction.name = "Describe" ++ "DBInstances" by decide +kernel,
        String.append_assoc]
      apply append_ne_append <;> simp
    | auth text => apply append_ne_append <;> simp
    | api code text requestId =>
      simp only [String.append_assoc]
      apply append_ne_append <;> simp
    | http status text =>
      simp only [String.append_assoc]
      apply append_ne_append <;> simp
    | network fault => apply append_ne_append <;> simp
    | parse name text =>
      simp only [String.append_assoc]
      apply append_ne_append <;> simp

/-! ## The requests of the services -/

variable {τ : Type} {c : Client} {net : Network τ}

/-- **A listing asks in steps of its limit**, and once at least if the client is ready. -/
theorem list_recorded (c : Client) (net : Network τ) {filter : InstanceFilter}
    (hproject : ∀ p ∈ filter.projectId, 0 ≤ p) (s : τ) (exchanges : List Exchange) :
    ∃ result s' sent,
      c.list net.recorded filter (s, exchanges) = (result, s', exchanges ++ sent) ∧
      (∀ k x, sent[k]? = some x → c.Makes listAction (listBody filter (20 * k)) x.request) ∧
      (c.Ready net listAction → sent ≠ []) ∧
      (∀ e, result = .error e → Ordinary e) := by
  obtain ⟨result, s', sent, hrecorded, hasks, hne, hcause⟩ :=
    collectAll_recorded c net listAction (listBody filter) instancePage? listLimit
      (exhausted listAction) s exchanges
  rw [list_eq_collectAll hproject]
  refine ⟨result, s', sent, hrecorded, ?_, hne (by decide), ?_⟩
  · intro k x hk
    have hmakes := hasks k x hk
    rwa [Nat.mul_comm k listLimit] at hmakes
  · intro e he
    rcases hcause e he with h | h
    · exact Or.inl h
    · exact Or.inr (Or.inr h)

/-- A look-up of tags sends nothing but requests for tags. -/
theorem tags_recorded (c : Client) (net : Network τ) (query : TagQuery) (s : τ)
    (exchanges : List Exchange) :
    ∃ result s' sent,
      c.tags net.recorded query (s, exchanges) = (result, s', exchanges ++ sent) ∧
      (∀ x ∈ sent, ∃ body, c.Makes tagAction body x.request) ∧
      (∀ e, result = .error e → Ordinary e) := by
  obtain ⟨result, s', sent, hrecorded, hasks, -, hcause⟩ :=
    collectAll_recorded c net tagAction (tagBody query) tagPage? tagLimit (exhausted tagAction) s
      exchanges
  have hmakes : ∀ x ∈ sent, ∃ body, c.Makes tagAction body x.request := by
    intro x hx
    obtain ⟨k, hk⟩ := List.getElem?_of_mem hx
    exact ⟨_, hasks k x hk⟩
  have hcollect : Page.collectAll tagLimit (c.tagPage net.recorded query) (exhausted tagAction)
      (s, exchanges) = (result, s', exchanges ++ sent) := hrecorded
  rw [tags, hcollect]
  cases result with
  | error e =>
    refine ⟨.error e, s', sent, rfl, hmakes, ?_⟩
    intro e' he
    obtain rfl := Except.error.inj he
    rcases hcause e rfl with h | h
    · exact Or.inr (Or.inl h)
    · exact Or.inr (Or.inr h)
  | ok entries => exact ⟨.ok _, s', sent, rfl, hmakes, by simp⟩

theorem services_list (c : Client) (net : Network τ) (filter : InstanceFilter) (s : τ) :
    (c.services net).list filter s =
      ((c.list net filter s).1.mapError ClientError.toService, (c.list net filter s).2) := by
  simp only [services]

theorem services_tags (c : Client) (net : Network τ) (query : TagQuery) (s : τ) :
    (c.services net).tags query s =
      ((c.tags net query s).1.mapError ClientError.toService, (c.tags net query s).2) := by
  simp only [services]

/-- The data source of a client. -/
def listing (c : Client) (net : Network τ) (home : Option String) : Listing τ :=
  { services := c.services net, region := c.region, home }

theorem listing_services (c : Client) (net : Network τ) (home : Option String) :
    (c.listing net home).services = c.services net := rfl

theorem listing_region (c : Client) (net : Network τ) (home : Option String) :
    (c.listing net home).region = c.region := rfl

theorem list_unrecorded (c : Client) (net : Network τ) (filter : InstanceFilter)
    (t : τ × List Exchange) :
    c.list net filter t.1 =
      ((c.list net.recorded filter t).1, (c.list net.recorded filter t).2.1) := by
  unfold list
  cases filter.projectId.filter (· < 0) with
  | some p => rfl
  | none =>
    exact collectAll_unrecorded c net listAction (listBody filter) instancePage? listLimit
      (exhausted listAction) t

theorem tags_unrecorded (c : Client) (net : Network τ) (query : TagQuery)
    (t : τ × List Exchange) :
    c.tags net query t.1 =
      ((c.tags net.recorded query t).1, (c.tags net.recorded query t).2.1) := by
  have hpages : Page.collectAll tagLimit (c.tagPage net query) (exhausted tagAction) t.1 =
      ((Page.collectAll tagLimit (c.tagPage net.recorded query) (exhausted tagAction) t).1,
        (Page.collectAll tagLimit (c.tagPage net.recorded query) (exhausted tagAction) t).2.1) :=
    collectAll_unrecorded c net tagAction (tagBody query) tagPage? tagLimit (exhausted tagAction) t
  rw [tags, tags, hpages]
  rcases Page.collectAll tagLimit (c.tagPage net.recorded query) (exhausted tagAction) t with
    ⟨e | entries, t'⟩
  · rfl
  · rfl

/-- The services of a client do not look at the record. -/
theorem listing_forgets (c : Client) (net : Network τ) (home : Option String) :
    (c.listing net home).Forgets (c.listing net.recorded home) Prod.fst where
  list filter t := by
    rw [listing_services, listing_services, services_list, services_list, list_unrecorded]
  tags query t := by
    rw [listing_services, listing_services, services_tags, services_tags, tags_unrecorded]
  region := rfl
  home := rfl

/-- The tags of one instance, recorded. -/
theorem tagsOf_recorded (c : Client) (net : Network τ) (home : Option String) (x : DbInstance)
    (s : τ) (exchanges : List Exchange) :
    ∃ result s' sent,
      (c.listing net.recorded home).tagsOf x (s, exchanges) = (result, s', exchanges ++ sent) ∧
      (∀ x ∈ sent, ∃ body, c.Makes tagAction body x.request) ∧
      (∀ e, result = .error e → ∃ e', Ordinary e' ∧ e = e'.toService) := by
  by_cases hid : x.idText = ""
  · exact ⟨.ok ∅, s, [], by simp [Listing.tagsOf, hid], by simp, by simp⟩
  · obtain ⟨result, s', sent, hrecorded, hmakes, hcause⟩ :=
      tags_recorded c net (Listing.tagQuery c.region x) s exchanges
    rw [Listing.tagsOf_of_id _ hid, listing_services, listing_region, services_tags, hrecorded]
    refine ⟨result.mapError ClientError.toService, s', sent, rfl, hmakes, ?_⟩
    intro e he
    cases result with
    | ok tags => cases he
    | error e' => exact ⟨e', hcause e' rfl, (Except.error.inj he).symm⟩

/-- **The look-ups of a read send nothing but requests for tags.** -/
theorem collect_recorded (c : Client) (net : Network τ) (home : Option String)
    (instances : List DbInstance) (s : τ) (exchanges : List Exchange) :
    ∃ result s' sent,
      (c.listing net.recorded home).collect instances (s, exchanges) =
        (result, s', exchanges ++ sent) ∧
      (∀ x ∈ sent, ∃ body, c.Makes tagAction body x.request) ∧
      (∀ e, result = .error e → ∃ e', Ordinary e' ∧ e = e'.toService) := by
  induction instances generalizing s exchanges with
  | nil => exact ⟨.ok [], s, [], by simp [Listing.collect], by simp, by simp⟩
  | cons x xs ih =>
    obtain ⟨answer, s₁, sent, hfirst, hmakes, hcause⟩ := tagsOf_recorded c net home x s exchanges
    rw [Listing.collect, hfirst]
    cases answer with
    | error e =>
      refine ⟨.error e, s₁, sent, rfl, hmakes, ?_⟩
      intro e' he
      obtain rfl := Except.error.inj he
      exact hcause e rfl
    | ok tags =>
      obtain ⟨rest, s₂, sent', hrest, hmakes', hcause'⟩ := ih s₁ (exchanges ++ sent)
      have hboth : ∀ y ∈ sent ++ sent', ∃ body, c.Makes tagAction body y.request := by
        intro y hy
        rcases List.mem_append.1 hy with hy | hy
        · exact hmakes y hy
        · exact hmakes' y hy
      simp only [hrest, List.append_assoc]
      cases rest with
      | error e =>
        refine ⟨.error e, s₂, sent ++ sent', rfl, hboth, ?_⟩
        intro e' he
        obtain rfl := Except.error.inj he
        exact hcause' e rfl
      | ok items => exact ⟨.ok _, s₂, sent ++ sent', rfl, hboth, by simp⟩

/-! ## The requests of a read -/

/-- What a read of a filter sends: the requests of its listing, page by page, and behind them
those of the look-ups. -/
structure Reads (c : Client) (net : Network τ) (filter : InstanceFilter)
    (result : Except DataSourceError Unit) (listing tagging : List Exchange) : Prop where
  lists : ∀ k x, listing[k]? = some x → c.Makes listAction (listBody filter (20 * k)) x.request
  tags : ∀ x ∈ tagging, ∃ body, c.Makes tagAction body x.request
  asked : c.Ready net listAction → listing ≠ []
  cause : ∀ e, result = .error e →
    (∃ e', Ordinary e' ∧ e = .service e'.toService) ∨ ∃ e', e = .ofSave e'

/-- **The exchanges of a read** are those of the listing and of the look-ups. -/
theorem readAs_recorded (c : Client) (net : Network τ) (home : Option String)
    {filter : InstanceFilter} (hproject : ∀ p ∈ filter.projectId, 0 ≤ p) (file : Option String)
    (s : τ) (files : FileTree) :
    ∃ result s' files' listing tagging,
      (c.listing net.recorded home).readAs filter file (s, []) files =
        (result, (s', listing ++ tagging), files') ∧
      c.Reads net filter result listing tagging := by
  obtain ⟨answer, s₁, listing, hrecorded, hasks, hne, hcause⟩ := list_recorded c net hproject s []
  have hlist : (c.listing net.recorded home).services.list filter (s, []) =
      (answer.mapError ClientError.toService, s₁, listing) := by
    rw [listing_services, services_list, hrecorded]
    rfl
  unfold Listing.readAs
  rw [hlist]
  cases answer with
  | error e =>
    refine ⟨.error (.service e.toService), s₁, files, listing, [], ?_, hasks, by simp, hne, ?_⟩
    · rw [List.append_nil]
      rfl
    · intro e' he
      obtain rfl := Except.error.inj he
      exact Or.inl ⟨e, hcause e rfl, rfl⟩
  | ok instances =>
    obtain ⟨answer, s₂, tagging, hcollect, hmakes, hcause⟩ :=
      collect_recorded c net home instances s₁ listing
    simp only [Except.mapError, hcollect]
    cases answer with
    | error e =>
      refine ⟨.error (.service e), s₂, files, listing, tagging, rfl, hasks, hmakes, hne, ?_⟩
      intro e' he
      obtain rfl := Except.error.inj he
      obtain ⟨e', hordinary, rfl⟩ := hcause e rfl
      exact Or.inl ⟨e', hordinary, rfl⟩
    | ok items =>
      refine ⟨_, s₂, _, listing, tagging, rfl, hasks, hmakes, hne, ?_⟩
      intro e he
      exact Or.inr (Listing.saved_error_cause he)

end Client

/-! ## Reads of a configuration -/

namespace Listing

variable {σ : Type} {config : Dict Json} {d : ResourceData} {filter : InstanceFilter}

/-- A project that is not below has a filter. -/
theorem exists_filter (hconfig : fromConfig listingSchema config = .ok d)
    (hproject : ¬BelowAny config) : ∃ filter, filterOf d = .ok filter := by
  apply filterOf_of_project
  intro id hid
  apply project_of_config hconfig _ hid
  intro v p hv hp
  rw [Json.int64?_eq_some_iff] at hp
  exact Int64.not_lt.1 fun hlt => hproject ⟨p, hp ▸ hv, hlt⟩

/-- A read of a configuration with a filter. -/
theorem readConfig_of_filter (source : Listing σ)
    (hconfig : fromConfig listingSchema config = .ok d) (hfilter : filterOf d = .ok filter)
    (s : σ) (files : FileTree) :
    ∃ state, source.readConfig config s files =
      ((source.readAs filter (resultFile? d) s files).1.map fun _ => state,
        (source.readAs filter (resultFile? d) s files).2) := by
  have hschema : d.schema = listingSchema := by rw [(fromConfig_eq_ok_iff.1 hconfig).1]
  obtain ⟨d', hread⟩ := source.read_eq_readAs hschema hfilter s files
  refine ⟨d'.state, ?_⟩
  simp only [readConfig, hconfig, hread]

/-- A project below is refused before anything is asked. -/
theorem readConfig_of_below (source : Listing σ)
    (hconfig : fromConfig listingSchema config = .ok d) {p : Int64}
    (hp : config.get? "project_id" = some (.int64 p)) (hlt : p < anyProject) (s : σ)
    (files : FileTree) :
    source.readConfig config s files =
      (.error (.invalidArgument "project_id" (toString p.toInt ++ " is not a valid project ID")),
        s, files) := by
  obtain ⟨a, ha, -⟩ := get?_projectId
  have hschema : d.schema = listingSchema := by rw [(fromConfig_eq_ok_iff.1 hconfig).1]
  have hget : (d.get "project_id").int64? = some p := by
    obtain ⟨rfl, -⟩ := fromConfig_eq_ok_iff.1 hconfig
    simp only [ResourceData.get, ha, ResourceData.stored?, Dict.get?_empty, Option.none_or, hp]
    exact Json.int64?_eq_some_iff.2 rfl
  have hrefused := filterOf_of_below hschema hget hlt
  simp only [readConfig, hconfig, read, hrefused]
  rfl

end Listing

namespace Client

/-- What a read of a configuration sends. -/
structure Wire {τ : Type} (c : Client) (net : Network τ) (config : Dict Json)
    (result : Except DataSourceError (Dict Json)) (listing tagging : List Exchange) : Prop where
  /-- The argument is refused for a project below the one that stands for any, and only then. -/
  refused : (∃ key text, result = .error (.invalidArgument key text)) ↔ BelowAny config
  /-- Nothing is sent then. -/
  silent : BelowAny config →
    (∃ text, result = .error (.invalidArgument "project_id" text)) ∧ listing = [] ∧ tagging = []
  /-- The listing requests carry the members that the configuration decides. -/
  lists : ∀ k x, listing[k]? = some x → ∃ members,
    Carries x.request listAction (.object members) ∧ WireMembers config (20 * k) members
  /-- All other requests are for tags. -/
  tags : ∀ x ∈ tagging, ∃ body, Carries x.request tagAction body
  /-- There is a listing request, unless something keeps the client from sending. -/
  asked : c.Ready net listAction → ¬BelowAny config → listing ≠ []
  /-- The client never complains about a project below zero. -/
  unreachable : ∀ number, result ≠ .error (.service (negativeProject number).toService)

variable {τ : Type} {config config' : Dict Json} {d : ResourceData} {filter : InstanceFilter}

/-- A project that is refused leaves no request. -/
theorem wire_of_below (c : Client) (net : Network τ) {p : Int64}
    (hp : config.get? "project_id" = some (.int64 p)) (hlt : p < anyProject) (text : String) :
    c.Wire net config (.error (.invalidArgument "project_id" text)) [] [] := by
  have hbelow : BelowAny config := ⟨p, hp, hlt⟩
  refine ⟨?_, ?_, by simp, by simp, ?_, by simp⟩
  · exact ⟨fun _ => hbelow, fun _ => ⟨_, _, rfl⟩⟩
  · exact fun _ => ⟨⟨text, rfl⟩, rfl, rfl⟩
  · exact fun _ hnot => absurd hbelow hnot

/-- The requests of a read with a filter are those that the configuration decides. -/
theorem Reads.wire {c : Client} {net : Network τ} {result : Except DataSourceError Unit}
    {listing tagging : List Exchange} (h : c.Reads net filter result listing tagging)
    (hfilter : FilterFor config filter) (hproject : ¬BelowAny config) (state : Dict Json) :
    c.Wire net config (result.map fun _ => state) listing tagging := by
  refine ⟨?_, fun hbelow => absurd hbelow hproject, ?_, ?_, fun hready _ => h.asked hready, ?_⟩
  · constructor
    · rintro ⟨key, text, hresult⟩
      -- what fails behind the filter is a service or the result file
      rcases h.cause _ (map_eq_error_iff.1 hresult) with ⟨e, -, he⟩ | ⟨e, he⟩
      · cases he
      · cases e <;> cases he
    · exact fun hbelow => absurd hbelow hproject
  · intro k x hk
    obtain ⟨members, hbody, hmembers⟩ := wireMembers_of_filter hfilter (20 * k)
    exact ⟨members, hbody ▸ (h.lists k x hk).carries, hmembers⟩
  · intro x hx
    obtain ⟨body, hmakes⟩ := h.tags x hx
    exact ⟨body, hmakes.carries⟩
  · intro number hresult
    rcases h.cause _ (map_eq_error_iff.1 hresult) with ⟨e, hordinary, he⟩ | ⟨e, he⟩
    · refine hordinary.message_ne number ?_
      simpa [ClientError.toService] using he.symm
    · cases e <;> cases he

/-- **From arguments to the wire.** The configuration of any arguments is taken. A read of a
configuration that is taken refuses a project below the one that stands for any, and sends
nothing; every other one sends listing requests with the members that the configuration
decides, on every page. Configurations that choose no project, in whatever way, lead to the
same requests. -/
theorem readConfig_sends (c : Client) (net : Network τ) (home : Option String) (s : τ)
    (files : FileTree) :
    (∀ a : Arguments, Takes a.config) ∧
    (∀ config, Takes config → ∃ result s' files' listing tagging,
      (c.listing net home).readConfig config s files = (result, s', files') ∧
      (c.listing net.recorded home).readConfig config (s, []) files =
        (result, (s', listing ++ tagging), files') ∧
      c.Wire net config result listing tagging) ∧
    (∀ config config', Takes config → Takes config' → AnyProject config → AnyProject config' →
      (∀ key, key ≠ "project_id" → config.get? key = config'.get? key) →
      ((c.listing net.recorded home).readConfig config (s, []) files).2 =
        ((c.listing net.recorded home).readConfig config' (s, []) files).2) := by
  refine ⟨takes_arguments, ?_, ?_⟩
  · rintro config ⟨d, hconfig⟩
    have hforgets := (listing_forgets c net home).readConfig config (s, []) files
    by_cases hbelow : BelowAny config
    · obtain ⟨p, hp, hlt⟩ := hbelow
      have hread := (c.listing net.recorded home).readConfig_of_below hconfig hp hlt (s, []) files
      rw [hread] at hforgets
      exact ⟨_, s, files, [], [], hforgets, hread, wire_of_below c net hp hlt _⟩
    · obtain ⟨filter, hfilter⟩ := Listing.exists_filter hconfig hbelow
      have hfor := filterFor_of_config hconfig hfilter
      obtain ⟨result, s', files', listing, tagging, hread, hreads⟩ :=
        readAs_recorded c net home hfor.projectId_nonneg (resultFile? d) s files
      obtain ⟨state, hconfigured⟩ :=
        (c.listing net.recorded home).readConfig_of_filter hconfig hfilter (s, []) files
      rw [hread] at hconfigured
      rw [hconfigured] at hforgets
      exact ⟨_, s', files', listing, tagging, hforgets, hconfigured,
        hreads.wire hfor hbelow state⟩
  · rintro config config' ⟨d, hconfig⟩ ⟨d', hconfig'⟩ hany hany' hsame
    obtain ⟨filter, hfilter⟩ := Listing.exists_filter hconfig hany.not_below
    obtain ⟨filter', hfilter'⟩ := Listing.exists_filter hconfig' hany'.not_below
    obtain rfl : filter = filter' :=
      (filterFor_of_config hconfig hfilter).eq_of_any (filterFor_of_config hconfig' hfilter') hany
        hany' hsame
    have hfile : resultFile? d = resultFile? d' := by
      apply Option.ext
      intro path
      rw [resultFile?_of_config hconfig, resultFile?_of_config hconfig',
        hsame "result_output_file" (by decide)]
    obtain ⟨state, hread⟩ :=
      (c.listing net.recorded home).readConfig_of_filter hconfig hfilter (s, []) files
    obtain ⟨state', hread'⟩ :=
      (c.listing net.recorded home).readConfig_of_filter hconfig' hfilter' (s, []) files
    rw [hread, hread', hfile]

/-! ### Arguments with a project -/

/-- Arguments that give a project, or none, and nothing else. -/
def projectArguments (project : Option Int64) : Arguments where
  secretId := none
  secretKey := none
  securityToken := none
  region := "ap-guangzhou"
  endpoint := none
  id := none
  projectId := project
  vpcId := none
  subnetId := none
  resultOutputFile := none
  output := .json

theorem get?_projectArguments (project : Option Int64) (key : String) :
    (projectArguments project).config.get? key =
      if key = "project_id" then project.map Json.int64 else none := by
  cases project with
  | none => simp [Arguments.config, projectArguments, Arguments.put]
  | some p =>
    simp only [Arguments.config, projectArguments, Arguments.put, Option.map_some,
      Option.map_none, Dict.get?_insert]
    rfl

/-- Project zero and no project lead to the same requests, and there are some; project -2 is
refused. -/
theorem readConfig_sends_projects :
    Takes (projectArguments (some 0)).config ∧ Takes (projectArguments none).config ∧
    Takes (projectArguments (some (-2))).config ∧
    ((usualClient.listing oneInstanceServer.recorded none).readConfig
        (projectArguments (some 0)).config ((), []) Listing.noFiles).2 =
      ((usualClient.listing oneInstanceServer.recorded none).readConfig
        (projectArguments none).config ((), []) Listing.noFiles).2 ∧
    (∃ result s' files' exchanges,
      (usualClient.listing oneInstanceServer.recorded none).readConfig
        (projectArguments (some 0)).config ((), []) Listing.noFiles =
          (result, (s', exchanges), files') ∧ exchanges ≠ []) ∧
    ∃ text s' files',
      (usualClient.listing oneInstanceServer.recorded none).readConfig
        (projectArguments (some (-2))).config ((), []) Listing.noFiles =
          (.error (.invalidArgument "project_id" text), (s', []), files') := by
  obtain ⟨htakes, hsends, hsame⟩ :=
    readConfig_sends usualClient oneInstanceServer none () Listing.noFiles
  have hzero : AnyProject (projectArguments (some 0)).config :=
    Or.inr (Or.inr (Or.inl (by rw [get?_projectArguments]; rfl)))
  have hnone : AnyProject (projectArguments none).config :=
    Or.inl (by rw [get?_projectArguments]; rfl)
  have hbelow : BelowAny (projectArguments (some (-2))).config :=
    ⟨-2, by rw [get?_projectArguments]; rfl, by decide⟩
  refine ⟨htakes _, htakes _, htakes _, hsame _ _ (htakes _) (htakes _) hzero hnone ?_, ?_, ?_⟩
  · intro key hkey
    rw [get?_projectArguments, get?_projectArguments, if_neg hkey, if_neg hkey]
  · obtain ⟨result, s', files', listing, tagging, -, hread, hwire⟩ := hsends _ (htakes _)
    have hasked := hwire.asked (usualClient_ready fun _ => rfl) hzero.not_below
    exact ⟨result, s', files', listing ++ tagging, hread, by simp [hasked]⟩
  · obtain ⟨result, s', files', listing, tagging, -, hread, hwire⟩ := hsends _ (htakes _)
    obtain ⟨⟨text, rfl⟩, rfl, rfl⟩ := hwire.silent hbelow
    exact ⟨text, s', files', hread⟩

end Client

end DbInventory
