/-
# DbInventory.Proofs.Listing.Reread -- reading twice is reading once

What a read stores is none of what a read looks at: the identifier of a listing is not the
argument of that name, the list is no argument, and a result file is replaced by itself. So a
read of the data and files that a read has left, with the services in the state of before, goes
the same way and ends where the first one did (`read_again`), however that is. Services whose
answers depend on what they are asked only are alike in all their states; then the second read
asks what the first one asked and ends the same, although the services have gone on
(`reread_eq`).
-/

import DbInventory.Proofs.Listing.State
import DbInventory.Proofs.Schema.Validity

namespace DbInventory

/-! ## Doing the same twice -/

theorem Dict.insert_insert {α : Type} (d : Dict α) (k : String) (x : α) :
    (d.insert k x).insert k x = d.insert k x := by
  refine ext_get? fun k' => ?_
  simp only [get?_insert]
  split <;> rfl

theorem FileTree.insert_insert (t : FileTree) (l : Location) (n : FileNode) :
    (t.insert l n).insert l n = t.insert l n := by
  simp only [insert, Dict.insert_insert]

/-- A result that was saved is saved again over itself. -/
theorem saveResult_again {home : Option String} {tree tree' : FileTree} {path p : String} {v : Json}
    (h : saveResult home tree path v = .ok (p, tree')) :
    saveResult home tree' path v = .ok (p, tree') := by
  obtain ⟨q, l, hpath, hplace⟩ := writable_of_saveResult h
  rw [saveResult_of_places hpath hplace] at h
  obtain ⟨rfl, rfl⟩ := Prod.mk.inj (Except.ok.inj h)
  rw [saveResult_of_places hpath (hplace.insert_file _), FileTree.insert_insert]

namespace ResourceData

variable {d d' : ResourceData} {key : String} {v : Json}

@[simp]
theorem setId_setId (d : ResourceData) (id : String) : (d.setId id).setId id = d.setId id := rfl

theorem set_again (h : d.set key v = .ok d') : d'.set key v = .ok d' := by
  obtain ⟨hfits, rfl⟩ := set_eq_ok_iff.1 h
  exact set_eq_ok_iff.2 ⟨hfits, by rw [Dict.insert_insert]⟩

/-- A computed value leaves the identifier. -/
theorem setId_of_set {id : String} (h : (d.setId id).set key v = .ok d') : d'.setId id = d' := by
  obtain ⟨-, rfl⟩ := set_eq_ok_iff.1 h
  rfl

end ResourceData

namespace Listing

variable {σ : Type} {source : Listing σ} {d d' : ResourceData} {s s' : σ}
  {files files' : FileTree} {result : Except DataSourceError Unit}

/-! ## What a read looks at -/

/-- The keys that a filter is made of. -/
def filterKeys : List String := ["id", "project_id", "vpc_id", "subnet_id"]

/-- Data that store the same under the keys of the filter. -/
structure SameArguments (d d' : ResourceData) : Prop where
  schema : d'.schema = d.schema
  stored : ∀ key ∈ filterKeys, d'.stored? key = d.stored? key

theorem SameArguments.get (h : SameArguments d d') {key : String} (hkey : key ∈ filterKeys) :
    d'.get key = d.get key := by
  unfold ResourceData.get
  rw [h.schema, h.stored key hkey]

theorem SameArguments.getOk (h : SameArguments d d') {key : String} (hkey : key ∈ filterKeys) :
    d'.getOk key = d.getOk key := by
  unfold ResourceData.getOk
  rw [h.schema, h.get hkey]

/-- **The filter is one of the arguments alone.** -/
theorem SameArguments.filterOf_eq (h : SameArguments d d') : filterOf d' = filterOf d := by
  unfold filterOf
  rw [h.getOk (by decide), h.getOk (by decide), h.getOk (by decide), h.get (by decide)]

theorem SameArguments.trans {d'' : ResourceData} (h : SameArguments d d')
    (h' : SameArguments d' d'') : SameArguments d d'' :=
  ⟨h'.schema.trans h.schema, fun key hkey => (h'.stored key hkey).trans (h.stored key hkey)⟩

theorem sameArguments_setId (d : ResourceData) (id : String) : SameArguments d (d.setId id) :=
  ⟨rfl, fun _ _ => rfl⟩

/-- The list that a read computes is stored where no read looks. -/
theorem sameArguments_of_set {v : Json} (h : d.set "instance_list" v = .ok d') :
    SameArguments d d' := by
  obtain ⟨-, rfl⟩ := ResourceData.set_eq_ok_iff.1 h
  refine ⟨rfl, fun key hkey => ?_⟩
  have hne : key ≠ "instance_list" := by
    rintro rfl
    exact absurd hkey (by decide)
  rw [ResourceData.stored?, Dict.get?_insert, if_neg hne]
  rfl

/-! ## The same read again -/

/-- **Saving twice is saving once.** -/
theorem save_again {list : Json}
    (h : source.save list ⟨d, s, files⟩ = (result, ⟨d', s', files'⟩)) :
    d' = d ∧ s' = s ∧ source.save list ⟨d, s, files'⟩ = (result, ⟨d, s, files'⟩) := by
  cases hfile : resultFile? d with
  | none =>
    rw [save_of_no_file source hfile] at h
    cases h
    exact ⟨rfl, rfl, save_of_no_file source hfile⟩
  | some path =>
    have hseen := resultFile?_eq_some_iff.1 hfile
    cases hsave : saveResult source.home files path list with
    | error e =>
      simp only [save, hseen, hsave] at h
      cases h
      refine ⟨rfl, rfl, ?_⟩
      simp only [save, hseen, hsave]
    | ok r =>
      simp only [save, hseen, hsave] at h
      cases h
      refine ⟨rfl, rfl, ?_⟩
      simp only [save, hseen, saveResult_again hsave]

/-- **Storing twice is storing once**, and it leaves the arguments alone. -/
theorem store_again {instances : List DbInstance} {items : List Json}
    (h : source.store instances items ⟨d, s, files⟩ = (result, ⟨d', s', files'⟩)) :
    SameArguments d d' ∧ s' = s ∧
      source.store instances items ⟨d', s, files'⟩ = (result, ⟨d', s, files'⟩) := by
  have hid := sameArguments_setId d (listingId (instances.map (·.idText)))
  cases hset : (d.setId (listingId (instances.map (·.idText)))).set "instance_list"
      (.array items) with
  | error e =>
    simp only [store, hset] at h
    cases h
    refine ⟨hid, rfl, ?_⟩
    simp only [store, ResourceData.setId_setId, hset]
  | ok d₁ =>
    simp only [store, hset] at h
    obtain ⟨rfl, rfl, hsave⟩ := save_again h
    refine ⟨hid.trans (sameArguments_of_set hset), rfl, ?_⟩
    simp only [store, ResourceData.setId_of_set hset, ResourceData.set_again hset]
    exact hsave

/-- **A read of what a read has left** goes the same way, if the services are as before: it ends
with the same result, and leaves data, files and services as the first one did. -/
theorem read_again (h : source.read ⟨d, s, files⟩ = (result, ⟨d', s', files'⟩)) :
    filterOf d' = filterOf d ∧
      source.read ⟨d', s, files'⟩ = (result, ⟨d', s', files'⟩) := by
  cases hfilter : filterOf d with
  | error e =>
    simp only [read, hfilter] at h
    cases h
    exact ⟨hfilter, by simp only [read, hfilter]⟩
  | ok filter =>
    rcases hlist : source.services.list filter s with ⟨e | instances, t⟩
    · simp only [read, hfilter, hlist] at h
      cases h
      exact ⟨hfilter, by simp only [read, hfilter, hlist]⟩
    · rcases hcollect : source.collect instances t with ⟨e | items, u⟩
      · simp only [read, hfilter, hlist, hcollect] at h
        cases h
        exact ⟨hfilter, by simp only [read, hfilter, hlist, hcollect]⟩
      · -- only here is anything stored, and none of it where the second read looks
        simp only [read, hfilter, hlist, hcollect] at h
        obtain ⟨hsame, rfl, hagain⟩ := store_again h
        have hfilter' : filterOf d' = .ok filter := by rw [hsame.filterOf_eq, hfilter]
        exact ⟨hfilter', by simp only [read, hfilter', hlist, hcollect, hagain]⟩

end Listing

/-! ## Steady services -/

/-- Services whose answers depend on what they are asked only. -/
structure Services.Steady {σ : Type} (services : Services σ) : Prop where
  list : ∀ filter s s', (services.list filter s).1 = (services.list filter s').1
  tags : ∀ query s s', (services.tags query s).1 = (services.tags query s').1

namespace Listing

variable {σ : Type} {source : Listing σ}

/-- Records that have grown by the same calls. -/
def GrownAlike (events events' : List ServiceEvent) (t t' : σ × List ServiceEvent) : Prop :=
  ∃ asked, t.2 = events ++ asked ∧ t'.2 = events' ++ asked

/-- **Steady services are alike in all their states**, and so are the records of their calls. -/
theorem alike_of_steady (h : source.services.Steady) (events events' : List ServiceEvent) :
    Alike (GrownAlike events events') source.recorded source.recorded where
  list := by
    rintro filter ⟨s, -⟩ ⟨s', -⟩ ⟨asked, rfl, rfl⟩
    have hanswer := h.list filter s s'
    refine ⟨hanswer, asked ++ [.listed filter (source.services.list filter s).1], ?_, ?_⟩
    · exact List.append_assoc ..
    · rw [hanswer]
      exact List.append_assoc ..
  tags := by
    rintro query ⟨s, -⟩ ⟨s', -⟩ ⟨asked, rfl, rfl⟩
    have hanswer := h.tags query s s'
    refine ⟨hanswer, asked ++ [.tagged query (source.services.tags query s).1], ?_, ?_⟩
    · exact List.append_assoc ..
    · rw [hanswer]
      exact List.append_assoc ..
  region := rfl
  home := rfl

/-- A read that has a filter asks for its instances first. -/
theorem exists_asked {d d' : ResourceData} {s : σ} {t : σ × List ServiceEvent}
    {files files' : FileTree} {result : Except DataSourceError Unit} {filter : InstanceFilter}
    (hfilter : filterOf d = .ok filter)
    (h : source.recorded.read ⟨d, (s, []), files⟩ = (result, ⟨d', t, files'⟩)) :
    ∃ answer asked, t.2 = .listed filter answer :: asked := by
  rcases hlist : source.services.list filter s with ⟨answer, s₁⟩
  have hlist' := list_recorded hlist
  cases answer with
  | error e =>
    simp only [read, hfilter, hlist'] at h
    cases h
    exact ⟨_, [], rfl⟩
  | ok instances =>
    obtain ⟨answer, s₂, asked, hcollect, -⟩ :=
      collect_recorded source instances s₁ [.listed filter (.ok instances)]
    simp only [read, hfilter, hlist', hcollect] at h
    cases answer with
    | error e =>
      cases h
      exact ⟨_, asked, rfl⟩
    | ok items =>
      -- storing calls no service
      obtain ⟨-, rfl, -⟩ := store_again h
      exact ⟨_, asked, rfl⟩

/-- **Reading twice is reading once.** If the answers of the services depend on what they are
asked only, then a second read, of the data and files that the first one has left, asks for the
same filter, makes the same calls and gets the same answers, gives the same result, and leaves
the same data and files. That is so however the first read ends, also if it has asked for the
filter and left its list in the data and in a file. -/
theorem reread_eq (source : Listing σ) (h : source.services.Steady) (d : ResourceData)
    (hschema : d.schema = listingSchema) (s : σ) (files : FileTree) :
    ∃ result d' s' events files' s'',
      (source.recorded.read ⟨d, (s, []), files⟩ = (result, ⟨d', (s', events), files'⟩) ∧
        source.recorded.read ⟨d', (s', events), files'⟩ =
          (result, ⟨d', (s'', events ++ events), files'⟩)) ∧
      (source.read ⟨d, s, files⟩ = (result, ⟨d', s', files'⟩) ∧
        source.read ⟨d', s', files'⟩ = (result, ⟨d', s'', files'⟩)) ∧
      filterOf d' = filterOf d ∧
      (∀ filter, filterOf d = .ok filter →
        ∃ answer asked, events = .listed filter answer :: asked) ∧
      (result = .ok () → ∃ given, Leaves source.home d given d' files') := by
  rcases hfirst : source.recorded.read ⟨d, (s, []), files⟩ with ⟨result, d', ⟨s', events⟩, files'⟩
  -- the first read, once more from its own data, but with the services as it has left them
  have hstart : GrownAlike [] events (s, []) (s', events) :=
    ⟨[], rfl, (List.append_nil events).symm⟩
  obtain ⟨result₁, d₁, t, ⟨s'', events'⟩, files₁, hread, hlater, asked, ht, ht'⟩ :=
    (alike_of_steady h [] events).read d hstart files
  rw [hfirst] at hread
  cases hread
  obtain rfl : events = asked := ht
  obtain rfl : events' = events ++ events := ht'
  -- what it stores and saves makes no difference to a read
  obtain ⟨hfilter, hsecond⟩ := read_again hlater
  have hplain := read_unrecorded hfirst
  refine ⟨result, d', s', events, files', s'', ⟨rfl, hsecond⟩,
    ⟨hplain, read_unrecorded hsecond⟩, hfilter, fun filter hask => exists_asked hask hfirst, ?_⟩
  rintro rfl
  exact exists_leaves_of_read hschema hplain

/-- The same services as a steady source has, which count their calls. -/
def countedSource : Listing Nat where
  services := {
    list := fun _ n => (.ok twoInstances, n + 1)
    tags := fun q n => (.ok (ownTag q.resourceId), n + 1) }
  region := "ap-guangzhou"
  home := some "/"

/-- The data of a configuration with a result file. -/
def savingArguments : ResourceData :=
  { schema := listingSchema, config := savingConfig, computed := ∅, id := none }

/-- Two reads that save their list in one file, with services that count on. -/
theorem reread_eq_countedSource :
    countedSource.services.Steady ∧ savingArguments.schema = listingSchema ∧
    ∃ result d' n files' n',
      countedSource.read ⟨savingArguments, 0, noFiles⟩ = (result, ⟨d', n, files'⟩) ∧
        countedSource.read ⟨d', n, files'⟩ = (result, ⟨d', n', files'⟩) := by
  have hsteady : countedSource.services.Steady := ⟨fun _ _ _ => rfl, fun _ _ _ => rfl⟩
  obtain ⟨result, d', n, events, files', n', -, hreads, -⟩ :=
    reread_eq countedSource hsteady savingArguments rfl 0 noFiles
  exact ⟨hsteady, rfl, result, d', n, files', n', hreads⟩

end Listing

end DbInventory
