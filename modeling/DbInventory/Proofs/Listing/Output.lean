/-
# DbInventory.Proofs.Listing.Output -- what is shown and saved can be read back

The text of a value is read as the value, whether it is shown or saved (`output_decodes`). What
a read leaves is such a value: an argument that may be configured is a text or a whole number,
and the listed items hold nothing else beside their tags, which are texts. So a state has four
brackets open at most, and no number in it is a binary64 number (`faithful_state`).
-/

import DbInventory.Proofs.Json.Nesting
import DbInventory.Proofs.Listing.State
import DbInventory.Report

namespace DbInventory

open Json (Faithful faithful_null faithful_string faithful_int64 faithful_array faithful_ofDict)

variable {n : Nat}

/-! ## Items -/

namespace DbInstance

theorem faithful_shown (x : DbInstance) (source : Source) : Faithful n (x.shown source) := by
  cases source with
  | chargeType => exact faithful_string _
  | column c =>
    show Faithful n (Json.optional c.kind.toJson (x.get c))
    cases x.get c with
    | none => exact faithful_null
    | some value =>
      revert value
      cases c.kind with
      | text => exact faithful_string
      | integer => exact faithful_int64

theorem faithful_tagsJson (tags : Dict String) : Faithful (n + 1) (tagsJson tags) := by
  apply faithful_ofDict
  intro e he
  obtain ⟨tag, -, rfl⟩ := List.mem_map.1 he
  exact faithful_string tag.2

/-- Tags are nested in an item, and nothing else is. -/
theorem faithful_item (x : DbInstance) (tags : Dict String) : Faithful (n + 2) (x.item tags) := by
  apply faithful_ofDict
  intro e he
  rcases Entries.mem_insert he with rfl | hflat
  · exact faithful_tagsJson tags
  · obtain ⟨shown, -, rfl⟩ := List.mem_map.1 hflat
    exact faithful_shown x shown.2

end DbInstance

theorem faithful_itemsOf (given : List (DbInstance × Dict String)) :
    Faithful (n + 3) (.array (itemsOf given)) := by
  apply faithful_array
  intro item hitem
  obtain ⟨g, -, rfl⟩ := List.mem_map.1 hitem
  exact DbInstance.faithful_item g.1 g.2

/-! ## States -/

/-- What may be configured is a text or a whole number. -/
theorem type_of_isOptional {key : String} {a : Attribute} (ha : listingSchema.get? key = some a)
    (hoptional : a.isOptional = true) : a.type = .string ∨ a.type = .int := by
  have hall : ∀ e ∈ listingSchema.entries,
      e.2.isOptional = true → e.2.type = .string ∨ e.2.type = .int := by decide
  exact hall (key, a) (Dict.get?_eq_some_iff.1 ha) hoptional

namespace Listing

variable {σ : Type} {config : Dict Json} {d : ResourceData}

theorem faithful_argument (h : ResourceData.fromConfig listingSchema config = .ok d) {key : String}
    {v : Json} (hv : config.get? key = some v) : Faithful n v := by
  obtain ⟨a, ha, hfits, hoptional⟩ := ResourceData.argument_of_config h hv
  rcases (Attribute.fits_iff_inside.1 hfits).1 with rfl | ⟨htype, -⟩
  · exact faithful_null
  · rcases type_of_isOptional ha hoptional with hstring | hint
    · rw [hstring] at htype
      obtain ⟨s, rfl⟩ := htype
      exact faithful_string s
    · rw [hint] at htype
      obtain ⟨x, rfl⟩ := htype
      exact faithful_int64 x

/-- **The state after a read is a value** without binary64 numbers, in four brackets. -/
theorem faithful_state (h : ResourceData.fromConfig listingSchema config = .ok d)
    (given : List (DbInstance × Dict String)) : Faithful 4 (.ofDict (listed d given).state) := by
  apply faithful_ofDict
  rintro ⟨key, v⟩ he
  have hv : (listed d given).state.get? key = some v := Dict.get?_eq_some_iff.2 he
  rw [get?_state_listed h] at hv
  by_cases hid : key = "id"
  · rw [if_pos hid] at hv
    obtain rfl := Option.some.inj hv
    exact faithful_string _
  · by_cases hlist : key = "instance_list"
    · rw [if_neg hid, if_pos hlist] at hv
      obtain rfl := Option.some.inj hv
      exact faithful_itemsOf given
    · rw [if_neg hid, if_neg hlist] at hv
      exact faithful_argument h hv

/-! ## Shown and saved -/

/-- The text of a faithful value that is shown or saved is read as the value. -/
theorem decodes_of_faithful {v : Json} (h : Faithful 127 v) :
    Json.read (Report.text v .json) = .ok v ∧ Json.read v.tabbedText = .ok v :=
  ⟨h.read_prettyText, h.read_tabbedText⟩

/-- **Nothing is lost in what is shown or saved.** A value without binary64 numbers that has at
most 127 brackets open is the value of its text, shown or saved, and the file that it is saved to
holds such a text. The state of every read that succeeds is such a value; so the state is read
off what is shown of it, and its list off the result file, if one is configured. -/
theorem output_decodes :
    (∀ v : Json, v.IsNormal → v.floats = [] → v.depth ≤ 127 →
      Json.read (Report.text v .json) = .ok v ∧ Json.read v.tabbedText = .ok v ∧
        ∀ home tree path p tree', saveResult home tree path v = .ok (p, tree') →
          ∃ l text, tree'.find p = .ok (l, .file text) ∧ Json.read text = .ok v) ∧
    ∀ (σ : Type) (source : Listing σ) (config : Dict Json) (s s' : σ) (files files' : FileTree)
      (state : Dict Json), source.readConfig config s files = (.ok state, s', files') →
        ((Json.ofDict state).IsNormal ∧ (Json.ofDict state).floats = [] ∧
          (Json.ofDict state).depth ≤ 4) ∧
        Json.read (Report.text (.ofDict state) .json) = .ok (.ofDict state) ∧
        ∃ list, state.get? "instance_list" = some list ∧
          ∀ path, config.get? "result_output_file" = some (.string path) → path ≠ "" →
            ∃ p l text, expandHome source.home path = .ok p ∧
              files'.find p = .ok (l, .file text) ∧ Json.read text = .ok list := by
  constructor
  · intro v hnormal hfloats hdepth
    have hfaithful : Faithful 127 v := Json.faithful_iff.2 ⟨hnormal, hfloats, hdepth⟩
    obtain ⟨hshown, hsaved⟩ := decodes_of_faithful hfaithful
    refine ⟨hshown, hsaved, fun home tree path p tree' hsave => ?_⟩
    obtain ⟨q, l, hpath, hplace⟩ := writable_of_saveResult hsave
    rw [saveResult_of_places hpath hplace] at hsave
    obtain ⟨rfl, rfl⟩ := Prod.mk.inj (Except.ok.inj hsave)
    exact ⟨l, _, hplace.find_insert _, hsaved⟩
  · intro σ source config s s' files files' state h
    obtain ⟨d, given, _, hconfig, ⟨rfl, hfile⟩, rfl⟩ := exists_leaves_of_readConfig h
    have hstate := faithful_state hconfig given
    refine ⟨Json.faithful_iff.1 hstate, (hstate.mono (by decide)).read_prettyText, ?_⟩
    refine ⟨.array (itemsOf given), get?_state_listed hconfig given "instance_list", ?_⟩
    intro path hpath hne
    obtain ⟨p, l, hp, hfind⟩ := hfile path ((resultFile?_of_config hconfig).2 ⟨hpath, hne⟩)
    have hlist : Faithful 127 (.array (itemsOf given)) := faithful_itemsOf given
    exact ⟨p, l, _, hp, hfind, hlist.read_tabbedText⟩

/-- A value with a line break in a name and a number at the end of the words; and a read that
saves its list. -/
theorem output_decodes_savingConfig :
    (∀ v, v = Json.object [("a\n", .array [.int64 (-9223372036854775808), .object []])] →
      Json.read (Report.text v .json) = .ok v) ∧
    ∃ state s' files' list p l text,
      steadySource.readConfig savingConfig () noFiles = (.ok state, s', files') ∧
        Json.read (Report.text (.ofDict state) .json) = .ok (.ofDict state) ∧
        state.get? "instance_list" = some list ∧ files'.find p = .ok (l, .file text) ∧
        Json.read text = .ok list := by
  constructor
  · rintro v rfl
    exact (output_decodes.1 _ (by decide) rfl (by decide)).1
  · have hok : (steadySource.readConfig savingConfig () noFiles).1.toOption.isSome := by
      decide +kernel
    rcases h : steadySource.readConfig savingConfig () noFiles with ⟨result, s', files'⟩
    rw [h] at hok
    cases result with
    | error e => cases hok
    | ok state =>
      obtain ⟨-, hshown, list, hlist, hfile⟩ :=
        output_decodes.2 Unit steadySource savingConfig () s' noFiles files' state h
      obtain ⟨p, l, text, -, hfind, hsaved⟩ := hfile "~/list.json" rfl (by decide)
      exact ⟨state, s', files', list, p, l, text, rfl, hshown, hlist, hfind, hsaved⟩

end Listing

end DbInventory
