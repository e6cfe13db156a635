/-
# DbInventory.Proofs.Alike -- runs that cannot be told apart

Two calls agree if they give the same answer and lead to related states (`Agree`). Which states
are related is left open: states of one service at two moments, states with and without a
record, or states of servers that differ in what no answer shows. A loop over pages sees nothing
of its fetches but their answers (`Page.collect_agree`), and a read sees nothing else of its
services. So data sources whose services agree read the same result, data and files from the
same data and files (`Listing.Alike.read`).
-/

import DbInventory.Api.Page
import DbInventory.Listing.Read

namespace DbInventory

variable {α β ε σ σ' : Type} {R : σ → σ' → Prop}

/-! ## Calls -/

/-- Two calls give the same answer and lead to related states. -/
structure Agree (R : σ → σ' → Prop) (r : α × σ) (r' : α × σ') : Prop where
  answer : r.1 = r'.1
  state : R r.2 r'.2

namespace Agree

variable {r : α × σ} {r' : α × σ'}

theorem exists_eq (h : Agree R r r') :
    ∃ answer s s', r = (answer, s) ∧ r' = (answer, s') ∧ R s s' :=
  ⟨r.1, r.2, r'.2, rfl, Prod.ext h.answer.symm rfl, h.state⟩

theorem map (h : Agree R r r') (f : α → β) : Agree R (f r.1, r.2) (f r'.1, r'.2) :=
  ⟨congrArg f h.answer, h.state⟩

end Agree

/-! ## Pages -/

/-- **A loop over pages agrees if its fetches do.** -/
theorem Page.collect_agree {limit : Nat} {fetch : Nat → σ → Except ε (Page α) × σ}
    {fetch' : Nat → σ' → Except ε (Page α) × σ'}
    (hfetch : ∀ o s s', R s s' → Agree R (fetch o s) (fetch' o s')) (exhausted : ε) (budget o : Nat)
    {s : σ} {s' : σ'} (hs : R s s') :
    Agree R (collect limit fetch exhausted budget o s)
      (collect limit fetch' exhausted budget o s') := by
  induction budget generalizing o s s' with
  | zero => exact ⟨rfl, hs⟩
  | succ budget ih =>
    obtain ⟨answer, t, t', hpage, hpage', ht⟩ := (hfetch o s s' hs).exists_eq
    simp only [collect, hpage, hpage']
    cases answer with
    | error e => exact ⟨rfl, ht⟩
    | ok page =>
      by_cases hlast : page.isLast o limit = true
      · simp only [if_pos hlast]
        exact ⟨rfl, ht⟩
      · obtain ⟨rest, u, u', hrest, hrest', hu⟩ := (ih (o + limit) ht).exists_eq
        simp only [if_neg hlast, hrest, hrest']
        cases rest with
        | error e => exact ⟨rfl, hu⟩
        | ok entries => exact ⟨rfl, hu⟩

namespace Listing

variable {source : Listing σ} {source' : Listing σ'}

/-- Data sources of one region and home whose services agree in related states. -/
structure Alike (R : σ → σ' → Prop) (source : Listing σ) (source' : Listing σ') : Prop where
  list : ∀ filter s s', R s s' →
    Agree R (source.services.list filter s) (source'.services.list filter s')
  tags : ∀ query s s', R s s' →
    Agree R (source.services.tags query s) (source'.services.tags query s')
  region : source.region = source'.region
  home : source.home = source'.home

/-! ## Look-ups -/

theorem Alike.tagsOf (h : Alike R source source') (x : DbInstance) {s : σ} {s' : σ'}
    (hs : R s s') : Agree R (source.tagsOf x s) (source'.tagsOf x s') := by
  unfold Listing.tagsOf
  by_cases hid : x.idText = ""
  · rw [if_pos hid, if_pos hid]
    exact ⟨rfl, hs⟩
  · rw [if_neg hid, if_neg hid, h.region]
    exact h.tags _ s s' hs

theorem Alike.collect (h : Alike R source source') (instances : List DbInstance) {s : σ} {s' : σ'}
    (hs : R s s') : Agree R (source.collect instances s) (source'.collect instances s') := by
  induction instances generalizing s s' with
  | nil => exact ⟨rfl, hs⟩
  | cons x xs ih =>
    obtain ⟨answer, t, t', htags, htags', ht⟩ := (h.tagsOf x hs).exists_eq
    rw [Listing.collect, Listing.collect, htags, htags']
    cases answer with
    | error e => exact ⟨rfl, ht⟩
    | ok tags =>
      obtain ⟨rest, u, u', hrest, hrest', hu⟩ := (ih ht).exists_eq
      simp only [hrest, hrest']
      cases rest with
      | error e => exact ⟨rfl, hu⟩
      | ok items => exact ⟨rfl, hu⟩

/-! ## Reads -/

/-- Saving looks at the home directory, and not at the services. -/
theorem save_eq_of_home (hhome : source.home = source'.home) (list : Json) (d : ResourceData)
    (s : σ) (s' : σ') (files : FileTree) :
    ∃ result files', source.save list ⟨d, s, files⟩ = (result, ⟨d, s, files'⟩) ∧
      source'.save list ⟨d, s', files⟩ = (result, ⟨d, s', files'⟩) := by
  simp only [save, hhome]
  split
  · split
    · exact ⟨_, files, rfl, rfl⟩
    · exact ⟨_, _, rfl, rfl⟩
  · exact ⟨_, files, rfl, rfl⟩

theorem store_eq_of_home (hhome : source.home = source'.home) (instances : List DbInstance)
    (items : List Json) (d : ResourceData) (s : σ) (s' : σ') (files : FileTree) :
    ∃ result d' files',
      source.store instances items ⟨d, s, files⟩ = (result, ⟨d', s, files'⟩) ∧
        source'.store instances items ⟨d, s', files⟩ = (result, ⟨d', s', files'⟩) := by
  cases hset : (d.setId (listingId (instances.map (·.idText)))).set "instance_list"
      (.array items) with
  | error e =>
    simp only [store, hset]
    exact ⟨_, _, files, rfl, rfl⟩
  | ok d' =>
    simp only [store, hset]
    obtain ⟨result, files', hsave, hsave'⟩ :=
      save_eq_of_home hhome (.array items) d' s s' files
    exact ⟨result, d', files', hsave, hsave'⟩

/-- **Alike sources read alike**: the result, the data and the files are the same, and the
services end in related states. -/
theorem Alike.read (h : Alike R source source') (d : ResourceData) {s : σ} {s' : σ'} (hs : R s s')
    (files : FileTree) :
    ∃ result d' t t' files',
      source.read ⟨d, s, files⟩ = (result, ⟨d', t, files'⟩) ∧
        source'.read ⟨d, s', files⟩ = (result, ⟨d', t', files'⟩) ∧ R t t' := by
  cases hfilter : filterOf d with
  | error e =>
    refine ⟨.error e, d, s, s', files, ?_, ?_, hs⟩
    · simp only [Listing.read, hfilter]
    · simp only [Listing.read, hfilter]
  | ok filter =>
    obtain ⟨answer, t, t', hlist, hlist', ht⟩ := (h.list filter s s' hs).exists_eq
    cases answer with
    | error e =>
      refine ⟨.error (.service e), d, t, t', files, ?_, ?_, ht⟩
      · simp only [Listing.read, hfilter, hlist]
      · simp only [Listing.read, hfilter, hlist']
    | ok instances =>
      obtain ⟨answer, u, u', hcollect, hcollect', hu⟩ := (h.collect instances ht).exists_eq
      cases answer with
      | error e =>
        refine ⟨.error (.service e), d, u, u', files, ?_, ?_, hu⟩
        · simp only [Listing.read, hfilter, hlist, hcollect]
        · simp only [Listing.read, hfilter, hlist', hcollect']
      | ok items =>
        obtain ⟨result, d', files', hstore, hstore'⟩ :=
          store_eq_of_home h.home instances items d u u' files
        refine ⟨result, d', u, u', files', ?_, ?_, hu⟩
        · simp only [Listing.read, hfilter, hlist, hcollect, hstore]
        · simp only [Listing.read, hfilter, hlist', hcollect', hstore']

/-- The same for a configuration and the state that is read. -/
theorem Alike.readConfig (h : Alike R source source') (config : Dict Json) {s : σ} {s' : σ'}
    (hs : R s s') (files : FileTree) :
    ∃ result t t' files',
      source.readConfig config s files = (result, t, files') ∧
        source'.readConfig config s' files = (result, t', files') ∧ R t t' := by
  unfold Listing.readConfig
  cases ResourceData.fromConfig listingSchema config with
  | error e => exact ⟨_, s, s', files, rfl, rfl, hs⟩
  | ok d =>
    obtain ⟨result, d', t, t', files', hread, hread', ht⟩ := h.read d hs files
    simp only [hread, hread']
    exact ⟨_, t, t', files', rfl, rfl, ht⟩

/-- **A read keeps what its services keep.** Every source is alike itself, in equal states that
both have the property. -/
theorem readConfig_keeps {P : σ → Prop}
    (hlist : ∀ filter s, P s → P (source.services.list filter s).2)
    (htags : ∀ query s, P s → P (source.services.tags query s).2) (config : Dict Json) {s : σ}
    (hs : P s) (files : FileTree) : P (source.readConfig config s files).2.1 := by
  have hself : Alike (fun s t => s = t ∧ P s) source source :=
    { list := by
        rintro filter s _ ⟨rfl, hs⟩
        exact ⟨rfl, rfl, hlist filter s hs⟩
      tags := by
        rintro query s _ ⟨rfl, hs⟩
        exact ⟨rfl, rfl, htags query s hs⟩
      region := rfl
      home := rfl }
  obtain ⟨result, t, t', files', hread, -, -, ht⟩ := hself.readConfig config ⟨rfl, hs⟩ files
  rw [hread]
  exact ht

end Listing

end DbInventory
