/-
# DbInventory.Proofs.Listing.Trace -- the calls of a read, and how it ends

Services that record their calls and answers show what a read asks. `Exit` lists the ways a
read ends, each with its calls and with what becomes of the data and of the files:
`read_exit` says that these are all. A read that any service fails changes nothing; one that
only fails to save its result keeps the data of a read that succeeds.
-/

import DbInventory.Proofs.Alike
import DbInventory.Proofs.Files
import DbInventory.Proofs.Instance.Items
import DbInventory.Proofs.Listing.Arguments

namespace DbInventory

universe u

/-! ## Recording services -/

/-- A call of a service and its answer. -/
inductive ServiceEvent where
  | listed (filter : InstanceFilter) (answer : Except ServiceError (List DbInstance))
  | tagged (query : TagQuery) (answer : Except ServiceError (Dict String))

/-- The call of an event, its answer left out. -/
def ServiceEvent.call : ServiceEvent → ServiceCall
  | .listed filter _ => .list filter
  | .tagged query _ => .tags query

variable {σ τ : Type}

/-- The same services, with the calls and answers so far, in order, beside the state. -/
def Services.recorded (services : Services σ) : Services (σ × List ServiceEvent) where
  list filter := fun (s, events) =>
    let (answer, s) := services.list filter s
    (answer, s, events ++ [.listed filter answer])
  tags query := fun (s, events) =>
    let (answer, s) := services.tags query s
    (answer, s, events ++ [.tagged query answer])

namespace Listing

/-- The same data source, asking services that record. -/
def recorded (source : Listing σ) : Listing (σ × List ServiceEvent) :=
  { services := source.services.recorded, region := source.region, home := source.home }

/-- The same data source, asking services that keep a log of the calls. -/
def logged (source : Listing σ) : Listing (σ × List ServiceCall) :=
  { services := source.services.logged, region := source.region, home := source.home }

/-! ## Tag look-ups -/

/-- The question for the tags of an instance. -/
def tagQuery (region : String) (x : DbInstance) : TagQuery :=
  { serviceType := "sqlserver", resourceType := "instance", region, resourceId := x.idText }

/-- The calls for the tags of instances: one for each that has an identifier. -/
def tagEvents (region : String) (given : List (DbInstance × Dict String)) : List ServiceEvent :=
  (given.filter fun g => g.1.idText ≠ "").map fun g => .tagged (tagQuery region g.1) (.ok g.2)

/-- Instances with the tags that they were given: none without an identifier. -/
def Given (instances : List DbInstance) (given : List (DbInstance × Dict String)) : Prop :=
  given.map Prod.fst = instances ∧ ∀ g ∈ given, g.1.idText = "" → g.2 = ∅

/-- How the look-ups of tags end, and the calls that they make. -/
inductive Lookups (region : String) (instances : List DbInstance) :
    Except ServiceError (List Json) → List ServiceEvent → Prop where
  | answered {given} (hgiven : Given instances given) :
    Lookups region instances (.ok (itemsOf given)) (tagEvents region given)
  | failed {before x later given e} (hinstances : instances = before ++ x :: later)
    (hid : x.idText ≠ "") (hgiven : Given before given) :
    Lookups region instances (.error e)
      (tagEvents region given ++ [.tagged (tagQuery region x) (.error e)])

theorem given_nil : Given [] [] := by
  refine ⟨rfl, ?_⟩
  intro g hg
  cases hg

theorem Given.cons_unasked {instances : List DbInstance}
    {given : List (DbInstance × Dict String)} {x : DbInstance} (h : Given instances given) :
    Given (x :: instances) ((x, ∅) :: given) := by
  obtain ⟨rfl, hempty⟩ := h
  refine ⟨rfl, List.forall_mem_cons.2 ⟨fun _ => rfl, hempty⟩⟩

theorem Given.cons_asked {instances : List DbInstance} {given : List (DbInstance × Dict String)}
    {x : DbInstance} {tags : Dict String} (h : Given instances given) (hid : x.idText ≠ "") :
    Given (x :: instances) ((x, tags) :: given) := by
  obtain ⟨rfl, hempty⟩ := h
  refine ⟨rfl, List.forall_mem_cons.2 ⟨fun h => absurd h hid, hempty⟩⟩

theorem tagEvents_cons_unasked {region : String} {x : DbInstance} (hid : x.idText = "")
    (tags : Dict String) (given : List (DbInstance × Dict String)) :
    tagEvents region ((x, tags) :: given) = tagEvents region given := by
  simp [tagEvents, hid]

theorem tagEvents_cons_asked {region : String} {x : DbInstance} (hid : x.idText ≠ "")
    (tags : Dict String) (given : List (DbInstance × Dict String)) :
    tagEvents region ((x, tags) :: given) =
      .tagged (tagQuery region x) (.ok tags) :: tagEvents region given := by
  simp [tagEvents, hid]

/-- An instance without an identifier adds no call. -/
theorem Lookups.cons_unasked {region : String} {instances : List DbInstance} {x : DbInstance}
    {answer : Except ServiceError (List Json)} {events : List ServiceEvent}
    (h : Lookups region instances answer events) (hid : x.idText = "") :
    Lookups region (x :: instances) (answer.map (x.item ∅ :: ·)) events := by
  cases h with
  | answered hgiven =>
    rw [← tagEvents_cons_unasked hid ∅]
    exact .answered hgiven.cons_unasked
  | failed hinstances hid' hgiven =>
    rw [← tagEvents_cons_unasked hid ∅]
    exact .failed (by rw [hinstances, List.cons_append]) hid' hgiven.cons_unasked

/-- An instance with an identifier adds the first call. -/
theorem Lookups.cons_asked {region : String} {instances : List DbInstance} {x : DbInstance}
    {answer : Except ServiceError (List Json)} {events : List ServiceEvent}
    (h : Lookups region instances answer events) (hid : x.idText ≠ "") (tags : Dict String) :
    Lookups region (x :: instances) (answer.map (x.item tags :: ·))
      (.tagged (tagQuery region x) (.ok tags) :: events) := by
  cases h with
  | answered hgiven =>
    rw [← tagEvents_cons_asked hid tags]
    exact .answered (hgiven.cons_asked hid)
  | failed hinstances hid' hgiven =>
    rw [← List.cons_append, ← tagEvents_cons_asked hid tags]
    exact .failed (by rw [hinstances, List.cons_append]) hid' (hgiven.cons_asked hid)

/-- **The look-ups ask in the order of the instances**, up to the first failure. -/
theorem collect_recorded (source : Listing σ) (instances : List DbInstance) (s : σ)
    (events : List ServiceEvent) :
    ∃ answer s' asked,
      source.recorded.collect instances (s, events) = (answer, s', events ++ asked) ∧
        Lookups source.region instances answer asked := by
  induction instances generalizing s events with
  | nil =>
    refine ⟨.ok [], s, [], by simp [collect], ?_⟩
    exact .answered given_nil
  | cons x xs ih =>
    by_cases hid : x.idText = ""
    · -- nothing is asked for this instance
      obtain ⟨answer, s', asked, hcollect, hlookups⟩ := ih s events
      refine ⟨answer.map (x.item ∅ :: ·), s', asked, ?_, hlookups.cons_unasked hid⟩
      rw [collect, tagsOf, if_pos hid]
      simp only [hcollect]
      cases answer <;> rfl
    · -- this instance is asked for first, and the others only if it is answered
      have htags : source.recorded.tagsOf x (s, events) =
          source.recorded.services.tags (tagQuery source.region x) (s, events) := if_neg hid
      rcases hcall : source.services.tags (tagQuery source.region x) s with ⟨answer, s₁⟩
      have hcall' : source.recorded.services.tags (tagQuery source.region x) (s, events) =
          (answer, s₁, events ++ [.tagged (tagQuery source.region x) answer]) := by
        simp only [recorded, Services.recorded, hcall]
      rw [collect, htags, hcall']
      cases answer with
      | error e =>
        exact ⟨.error e, s₁, _, rfl, .failed rfl hid given_nil⟩
      | ok tags =>
        obtain ⟨answer, s', asked, hcollect, hlookups⟩ :=
          ih s₁ (events ++ [.tagged (tagQuery source.region x) (.ok tags)])
        refine ⟨answer.map (x.item tags :: ·), s', _ :: asked, ?_,
          hlookups.cons_asked hid tags⟩
        simp only [hcollect, List.append_assoc, List.singleton_append]
        cases answer <;> rfl

/-! ## Recording changes nothing else -/

/-- What a call gives, with the record left out. -/
def unrecorded {α : Type} (r : α × σ × List ServiceEvent) : α × σ := (r.1, r.2.1)

/-- A source and its record are alike. -/
theorem alike_recorded (source : Listing σ) :
    Alike (fun (s : σ) (t : σ × List ServiceEvent) => s = t.1) source source.recorded where
  list := by
    rintro filter _ t rfl
    exact ⟨rfl, rfl⟩
  tags := by
    rintro query _ t rfl
    exact ⟨rfl, rfl⟩
  region := rfl
  home := rfl

theorem collect_unrecorded (source : Listing σ) (instances : List DbInstance)
    (t : σ × List ServiceEvent) :
    source.collect instances t.1 = unrecorded (source.recorded.collect instances t) := by
  have hagree := source.alike_recorded.collect instances (rfl : t.1 = t.1)
  exact Prod.ext hagree.answer hagree.state

/-- A read leaves the record out. -/
theorem read_unrecorded {source : Listing σ} {d d' : ResourceData} {t t' : σ × List ServiceEvent}
    {files files' : FileTree} {result : Except DataSourceError Unit}
    (h : source.recorded.read ⟨d, t, files⟩ = (result, ⟨d', t', files'⟩)) :
    source.read ⟨d, t.1, files⟩ = (result, ⟨d', t'.1, files'⟩) := by
  obtain ⟨result₁, d₁, u, u', files₁, hread, hrecorded, rfl⟩ :=
    source.alike_recorded.read d (rfl : t.1 = t.1) files
  rw [h] at hrecorded
  cases hrecorded
  exact hread

/-- The data after a read whose services have all answered. -/
def listed (d : ResourceData) (given : List (DbInstance × Dict String)) : ResourceData :=
  { d with
    computed := d.computed.insert "instance_list" (.array (itemsOf given))
    id := some (listingId (given.map (·.1.idText))) }

/-- The calls of a read whose services have all answered. -/
def answeredEvents (region : String) (filter : InstanceFilter) (instances : List DbInstance)
    (given : List (DbInstance × Dict String)) : List ServiceEvent :=
  .listed filter (.ok instances) :: tagEvents region given

/-- The data ask for the instances of a filter: their project is not below minus one. -/
structure Asks (d : ResourceData) (filter : InstanceFilter) : Prop where
  project : ∀ id, (d.get "project_id").int64? = some id → -1 ≤ id
  filter : filterOf d = .ok filter

/-- A project below minus one has no filter. -/
theorem asks_of_filterOf {d : ResourceData} {filter : InstanceFilter}
    (hschema : d.schema = listingSchema) (hfilter : filterOf d = .ok filter) : Asks d filter := by
  refine ⟨fun id hid => ?_, hfilter⟩
  apply Int64.not_lt.1
  intro hlt
  have hrefused := filterOf_of_below hschema hid (show id < anyProject from hlt)
  rw [hfilter] at hrefused
  cases hrefused

/-- **The ways a read ends**, each with the data, the calls and the files after it. Only the
first one is open to a project below minus one, and it is open to no other. -/
inductive Exit (source : Listing σ) (d : ResourceData) (files : FileTree) :
    Except DataSourceError Unit → ResourceData → List ServiceEvent → FileTree → Prop where
  /-- The project is refused, and nothing is asked. -/
  | refused {id} (hid : (d.get "project_id").int64? = some id) (hlt : id < -1) :
    Exit source d files
      (.error (.invalidArgument "project_id" (toString id.toInt ++ " is not a valid project ID")))
      d [] files
  /-- The instances could not be listed. -/
  | notListed {filter e} (hasks : Asks d filter) :
    Exit source d files (.error (.service e)) d [.listed filter (.error e)] files
  /-- The tags of `x` could not be looked up; the instances before it have theirs. -/
  | notTagged {filter instances before x later given e} (hasks : Asks d filter)
    (hinstances : instances = before ++ x :: later) (hid : x.idText ≠ "")
    (hgiven : Given before given) :
    Exit source d files (.error (.service e)) d
      (answeredEvents source.region filter instances given ++
        [.tagged (tagQuery source.region x) (.error e)])
      files
  /-- All services have answered, and there is no result file. -/
  | unsaved {filter instances given} (hasks : Asks d filter)
    (hgiven : Given instances given) (hfile : resultFile? d = none) :
    Exit source d files (.ok ()) (listed d given)
      (answeredEvents source.region filter instances given) files
  /-- All services have answered, but the result file could not be written. -/
  | notSaved {filter instances given path e} (hasks : Asks d filter)
    (hgiven : Given instances given) (hfile : resultFile? d = some path)
    (hplace : ¬ Writable source.home files path)
    (herror : saveResult source.home files path (.array (itemsOf given)) = .error e) :
    Exit source d files (.error (.ofSave e)) (listed d given)
      (answeredEvents source.region filter instances given) files
  /-- All services have answered, and the list stands in the result file. -/
  | saved {filter instances given path p l} (hasks : Asks d filter)
    (hgiven : Given instances given) (hfile : resultFile? d = some path)
    (hpath : expandHome source.home path = .ok p) (hplace : files.Places p l) :
    Exit source d files (.ok ()) (listed d given)
      (answeredEvents source.region filter instances given)
      (files.insert l (.file (Json.array (itemsOf given)).tabbedText))

theorem resultFile?_listed (d : ResourceData) (given : List (DbInstance × Dict String)) :
    resultFile? (listed d given) = resultFile? d := by
  refine resultFile?_congr rfl ?_
  simp [listed, ResourceData.stored?, Dict.get?_insert]

theorem store_eq (source : Listing σ) {instances : List DbInstance}
    {given : List (DbInstance × Dict String)} (hgiven : Given instances given) {w : World σ}
    (hschema : w.data.schema = listingSchema) :
    source.store instances (itemsOf given) w =
      source.save (.array (itemsOf given)) { w with data := listed w.data given } := by
  obtain ⟨rfl, -⟩ := hgiven
  have hset := set_itemsOf (d := w.data.setId (listingId (given.map (·.1.idText)))) hschema given
  simp only [store, List.map_map]
  rw [show (DbInstance.idText ∘ Prod.fst : DbInstance × Dict String → String) =
    (·.1.idText) from rfl, hset]
  rfl

theorem save_of_no_file (source : Listing σ) {list : Json} {w : World σ}
    (hfile : resultFile? w.data = none) : source.save list w = (.ok (), w) := by
  unfold save
  split
  next path hpath => simp [resultFile?_eq_some_iff.2 hpath] at hfile
  · rfl

theorem save_of_places (source : Listing σ) {list : Json} {w : World σ} {path p : String}
    {l : Location} (hfile : resultFile? w.data = some path)
    (hpath : expandHome source.home path = .ok p) (hplace : w.files.Places p l) :
    source.save list w =
      (.ok (), { w with files := w.files.insert l (.file list.tabbedText) }) := by
  simp only [save, resultFile?_eq_some_iff.1 hfile, saveResult_of_places hpath hplace]

/-- Saving ends in one of three ways. -/
theorem save_exit (source : Listing σ) {d : ResourceData} (s : σ) {files : FileTree}
    {filter : InstanceFilter} {instances : List DbInstance}
    {given : List (DbInstance × Dict String)} (hasks : Asks d filter)
    (hgiven : Given instances given) :
    ∃ result files',
      source.save (.array (itemsOf given)) ⟨listed d given, s, files⟩ =
          (result, ⟨listed d given, s, files'⟩) ∧
        Exit source d files result (listed d given)
          (answeredEvents source.region filter instances given) files' := by
  cases hfile : resultFile? d with
  | none =>
    have hfile' : resultFile? (listed d given) = none := by rw [resultFile?_listed, hfile]
    exact ⟨_, _, save_of_no_file source hfile', .unsaved hasks hgiven hfile⟩
  | some path =>
    have hfile' : resultFile? (listed d given) = some path := by rw [resultFile?_listed, hfile]
    by_cases hplace : Writable source.home files path
    · obtain ⟨p, l, hpath, hplace⟩ := hplace
      exact ⟨_, _, save_of_places source hfile' hpath hplace,
        .saved hasks hgiven hfile hpath hplace⟩
    · cases herror : saveResult source.home files path (.array (itemsOf given)) with
      | ok r => exact absurd (writable_of_saveResult herror) hplace
      | error e =>
        refine ⟨.error (.ofSave e), files, ?_, .notSaved hasks hgiven hfile hplace herror⟩
        simp only [save, resultFile?_eq_some_iff.1 hfile', herror]

theorem save_recorded {source : Listing σ} {list : Json} {d d' : ResourceData} {s s' : σ}
    {files files' : FileTree} {result : Except DataSourceError Unit}
    (h : source.save list ⟨d, s, files⟩ = (result, ⟨d', s', files'⟩))
    (events : List ServiceEvent) :
    source.recorded.save list ⟨d, (s, events), files⟩ = (result, ⟨d', (s', events), files'⟩) := by
  unfold save at h ⊢
  rw [show source.recorded.home = source.home from rfl]
  split at h
  next path hpath =>
    simp only [hpath]
    cases hsaved : saveResult source.home files path list with
    | error e => simp_all
    | ok r => simp_all
  next hnone => simp_all

/-- The listing is recorded first. -/
theorem list_recorded {source : Listing σ} {filter : InstanceFilter} {s s₁ : σ}
    {answer : Except ServiceError (List DbInstance)}
    (hlist : source.services.list filter s = (answer, s₁)) :
    source.recorded.services.list filter (s, []) = (answer, s₁, [.listed filter answer]) := by
  simp only [recorded, Services.recorded, hlist, List.nil_append]

/-- A read whose instances have been listed. -/
theorem exists_exit_of_listed (source : Listing σ) {d : ResourceData}
    (hschema : d.schema = listingSchema) {filter : InstanceFilter}
    (hfilter : filterOf d = .ok filter) {s s₁ : σ} {instances : List DbInstance}
    (hlist : source.services.list filter s = (.ok instances, s₁)) (files : FileTree) :
    ∃ result d' s' events files',
      source.recorded.read ⟨d, (s, []), files⟩ = (result, ⟨d', (s', events), files'⟩) ∧
        Exit source d files result d' events files' := by
  have hasks := asks_of_filterOf hschema hfilter
  have hlist' := list_recorded hlist
  -- the look-ups are recorded behind the listing, and end in one of two ways
  obtain ⟨answer, s₂, asked, hcollect, hlookups⟩ :=
    collect_recorded source instances s₁ [.listed filter (.ok instances)]
  cases hlookups with
  | @failed before x later given e hinstances hid hgiven =>
    refine ⟨.error (.service e), d, s₂, answeredEvents source.region filter instances given ++
      [.tagged (tagQuery source.region x) (.error e)], files, ?_,
      .notTagged hasks hinstances hid hgiven⟩
    simp only [read, hfilter, hlist', hcollect]
    rfl
  | @answered given hgiven =>
    obtain ⟨result, files', hsave, hexit⟩ := save_exit source s₂ hasks hgiven
    refine ⟨result, listed d given, s₂, answeredEvents source.region filter instances given,
      files', ?_, hexit⟩
    simp only [read, hfilter, hlist', hcollect]
    rw [store_eq source.recorded hgiven hschema]
    exact save_recorded hsave _

/-- A read with a record ends in one of the ways. -/
theorem exists_exit (source : Listing σ) {d : ResourceData} (hschema : d.schema = listingSchema)
    (s : σ) (files : FileTree) :
    ∃ result d' s' events files',
      source.recorded.read ⟨d, (s, []), files⟩ = (result, ⟨d', (s', events), files'⟩) ∧
        Exit source d files result d' events files' := by
  by_cases hproject : ∀ id, (d.get "project_id").int64? = some id → anyProject ≤ id
  · obtain ⟨filter, hfilter⟩ := filterOf_of_project hproject
    rcases hlist : source.services.list filter s with ⟨answer, s₁⟩
    cases answer with
    | error e =>
      have hlist' := list_recorded hlist
      refine ⟨.error (.service e), d, s₁, [.listed filter (.error e)], files, ?_,
        .notListed ⟨hproject, hfilter⟩⟩
      simp only [read, hfilter, hlist']
    | ok instances => exact exists_exit_of_listed source hschema hfilter hlist files
  · -- a refused project is found before anything is asked
    obtain ⟨id, hid⟩ := Classical.not_forall.1 hproject
    obtain ⟨hid, hle⟩ := Classical.not_imp.1 hid
    have hlt : id < anyProject := Int64.not_le.1 hle
    have hrefused := filterOf_of_below hschema hid hlt
    refine ⟨_, d, s, [], files, ?_, .refused hid hlt⟩
    simp only [read, hrefused]

/-- Two instances, the second without an identifier. -/
def twoInstances : List DbInstance :=
  [{ DbInstance.blank with instanceId := some "mssql-1" }, DbInstance.blank]

/-- A data source that lists two instances and has no tags to give. -/
def taglessSource : Listing Unit where
  services := {
    list := fun _ s => (.ok twoInstances, s)
    tags := fun _ s => (.error (.unavailable "no tags"), s) }
  region := "ap-guangzhou"
  home := none

def noArguments : ResourceData :=
  { schema := listingSchema, config := ∅, computed := ∅, id := none }

def noFiles : FileTree := { workingDirectory := [], nodes := ∅ }

end Listing

end DbInventory
