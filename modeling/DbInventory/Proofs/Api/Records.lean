/-
# DbInventory.Proofs.Api.Records -- errors and tags, read by the texts of their fields

A record of scalars is read off an object if each of its fields is given at most once, and a
required one exactly once (`Fields.readMemberTexts_slot_iff`, `Fields.exists_finish_iff`). The
error of a reply and a tag are such records of texts. `ReplyError.Told` and `ResourceTag.Told`
say what their texts look like, as an object and as a list; the reader of errors accepts just
the one, and the decoder of tags just the other.
-/

import DbInventory.Proofs.Api.Pages

namespace DbInventory

open Json (memberTexts? itemTexts? readAll ReadMemberTexts ReadMemberText ReadItemTexts ScalarAlone)

/-! ## Fields given at most once -/

namespace Json.Fields

variable {ι : Type} (F : Fields ι) {i : ι} {name : String} {seen seen' : F.Seen}
  {ms : List (String × String)} {values : F.Values}

/-- Every field is found by its name. -/
def Named : Prop := ∀ i, F.field? (F.name i) = some i

theorem name_of_field? (h : F.field? name = some i) : name = F.name i := by
  have hname := List.find?_some h
  exact (of_decide_eq_true hname).symm

theorem ne_name_of_field? (hnamed : F.Named) (h : F.field? name ≠ some i) : name ≠ F.name i := by
  rintro rfl
  exact h (hnamed i)

/-- What is given for a field: a text that is read, or nothing where nothing is required. -/
def FieldGiven (i : ι) : Option String → Option (F.kind i).Carrier → Prop
  | none, y => F.required i = false ∧ y = none
  | some text, y => readAll (F.readField i) text = .ok y

theorem finish_eq_ok_iff (hnamed : F.Named) :
    F.finish seen = .ok values ↔
      (∀ i, F.required i = true → seen i ≠ none) ∧ values = fun i => (seen i).join := by
  have hmem : ∀ i, i ∈ F.all := fun i => List.mem_of_find?_eq_some (hnamed i)
  unfold finish
  cases hmissing : F.all.find? fun i => F.required i && (seen i).isNone with
  | some i =>
    have hi := List.find?_some hmissing
    simp only [Bool.and_eq_true, Option.isNone_iff_eq_none] at hi
    simp only [reduceCtorEq, false_iff, not_and]
    intro hall
    exact absurd hi.2 (hall i hi.1)
  | none =>
    have hall : ∀ i, F.required i = true → seen i ≠ none := by
      intro i hrequired hnone
      have hi := List.find?_eq_none.1 hmissing i (hmem i)
      simp [hrequired, hnone] at hi
    simp only [Except.ok.injEq, eq_comm (a := values)]
    exact (and_iff_right hall).symm

variable [DecidableEq ι]

@[simp]
theorem set_self {y : Option (F.kind i).Carrier} : (seen.set i y) i = some y := by
  simp [Seen.set]

theorem set_of_ne {j : ι} (h : j ≠ i) (y : Option (F.kind i).Carrier) :
    (seen.set i y) j = seen j := by
  simp [Seen.set, h]

/-- **Members are read field by field**: each field reads the one member of its name. -/
theorem readMemberTexts_slot_iff (hnamed : F.Named) :
    ReadMemberTexts F.slot seen ms seen' ↔
      ∀ i, ReadOnce (F.readField i) (F.name i) ms (seen i) (seen' i) := by
  induction ms generalizing seen with
  | nil =>
    simp only [ReadMemberTexts, readOnce_nil]
    exact funext_iff
  | cons m ms ih =>
    simp only [ReadMemberTexts, F.readMemberText_iff, ih]
    constructor
    · rintro ⟨seen₁, ⟨hfield, rfl⟩ | ⟨j, hfield, hseen, y, hy, rfl⟩, hrest⟩ i
      · have hne : m.1 ≠ F.name i := F.ne_name_of_field? hnamed (by simp [hfield])
        exact (readOnce_cons_of_ne hne).2 (hrest i)
      · by_cases hij : i = j
        · subst hij
          have hread := hrest i
          rw [F.set_self] at hread
          exact (readOnce_cons_self (F.name_of_field? hfield)).2 ⟨hseen, y, hy, hread⟩
        · have hne : m.1 ≠ F.name i :=
            F.ne_name_of_field? hnamed (by simpa [hfield] using Ne.symm hij)
          have hread := hrest i
          rw [F.set_of_ne hij] at hread
          exact (readOnce_cons_of_ne hne).2 hread
    · intro h
      cases hfield : F.field? m.1 with
      | none =>
        refine ⟨seen, .inl ⟨rfl, rfl⟩, fun i => ?_⟩
        have hne : m.1 ≠ F.name i := F.ne_name_of_field? hnamed (by simp [hfield])
        exact (readOnce_cons_of_ne hne).1 (h i)
      | some j =>
        -- the member is that of one field, and all others look past it
        obtain ⟨hseen, y, hy, hrest⟩ := (readOnce_cons_self (F.name_of_field? hfield)).1 (h j)
        refine ⟨seen.set j y, .inr ⟨j, rfl, hseen, y, hy, rfl⟩, fun i => ?_⟩
        by_cases hij : i = j
        · subst hij
          rwa [F.set_self]
        · have hne : m.1 ≠ F.name i :=
            F.ne_name_of_field? hnamed (by simpa [hfield] using Ne.symm hij)
          rw [F.set_of_ne hij]
          exact (readOnce_cons_of_ne hne).1 (h i)

/-- **An object gives a record** if it gives each field at most once, and none too few. -/
theorem exists_finish_iff (hnamed : F.Named) :
    (∃ seen, ReadMemberTexts F.slot (Seen.empty F) ms seen ∧ F.finish seen = .ok values) ↔
      ∀ i, ∃ t, Page.single? ms (F.name i) = some t ∧ F.FieldGiven i t (values i) := by
  simp only [F.readMemberTexts_slot_iff hnamed, F.finish_eq_ok_iff hnamed]
  constructor
  · rintro ⟨seen, hread, hrequired, rfl⟩ i
    rcases hread i with ⟨hnone, hseen⟩ | ⟨text, y, hsome, hy, hseen⟩
    · have hoptional : F.required i = false := by
        rw [← Bool.not_eq_true]
        exact fun h => hrequired i h hseen
      exact ⟨none, hnone, hoptional, by simp [hseen]⟩
    · refine ⟨some text, hsome, ?_⟩
      simpa [FieldGiven, hseen] using hy
  · intro h
    -- a field has been seen if a member has its name
    refine ⟨fun i => if Page.single? ms (F.name i) = some none then none else some (values i),
      fun i => ?_, fun i hrequired => ?_, funext fun i => ?_⟩
    · obtain ⟨t, ht, hgiven⟩ := h i
      cases t with
      | none => exact .inl ⟨ht, by simp [ht]⟩
      | some text => exact .inr ⟨text, values i, ht, hgiven, by simp [ht]⟩
    · obtain ⟨t, ht, hgiven⟩ := h i
      cases t with
      | none => simp [hgiven.1] at hrequired
      | some text => simp [ht]
    · obtain ⟨t, ht, hgiven⟩ := h i
      cases t with
      | none => simp [ht, hgiven.2]
      | some text => simp [ht]

/-- One more element of the list form is the next field. -/
theorem readItemTexts_cons_iff {n : Nat} {texts : List String} {p : F.Seen × Nat}
    (hi : F.all[n]? = some i) {text : String} :
    ReadItemTexts (nextField F.form.elements) (seen, n) (text :: texts) p ↔
      ∃ y, readAll (F.readField i) text = .ok y ∧
        ReadItemTexts (nextField F.form.elements) (seen.set i y, n + 1) texts p := by
  have hnext : nextField F.form.elements (seen, n) =
      some (readCounted (F.readInto i) (seen, n)) := by
    simp [nextField, form, hi]
  have hread : ∀ {q}, readAll (readCounted (F.readInto i) (seen, n)) text = .ok q ↔
      ∃ y, readAll (F.readField i) text = .ok y ∧ q = (seen.set i y, n + 1) := by
    intro q
    have hmap : readAll (readCounted (F.readInto i) (seen, n)) text = .ok q ↔
        ∃ x, readAll (F.readInto i seen) text = .ok x ∧ q = (x, n + 1) :=
      readAll_map_iff (f := fun x => (x, n + 1))
    rw [hmap]
    constructor
    · rintro ⟨x, hx, rfl⟩
      obtain ⟨y, hy, rfl⟩ := F.readAll_readInto_iff.1 hx
      exact ⟨y, hy, rfl⟩
    · rintro ⟨y, hy, rfl⟩
      exact ⟨_, F.readAll_readInto_iff.2 ⟨y, hy, rfl⟩, rfl⟩
  rw [ReadItemTexts]
  constructor
  · rintro ⟨r, q, hr, hq, hrest⟩
    obtain rfl := Option.some.inj (hnext.symm.trans hr)
    obtain ⟨y, hy, rfl⟩ := hread.1 hq
    exact ⟨y, hy, hrest⟩
  · rintro ⟨y, hy, hrest⟩
    exact ⟨_, _, hnext, hread.2 ⟨y, hy, rfl⟩, hrest⟩

/-- Behind the last field there are no elements. -/
theorem readItemTexts_end_iff {n : Nat} {texts : List String} {p : F.Seen × Nat}
    (hn : F.all[n]? = none) :
    ReadItemTexts (nextField F.form.elements) (seen, n) texts p ↔ texts = [] ∧ (seen, n) = p := by
  cases texts with
  | nil => simp [ReadItemTexts]
  | cons text texts => simp [ReadItemTexts, nextField, form, hn]

theorem ofItems?_cons_iff {mayOmit : Nat} {v : Json} {fields : List ι} {items : List Json} :
    F.ofItems? mayOmit (i :: fields) seen (v :: items) = some seen' ↔
      ∃ y, F.fieldOfTree? i v = some y ∧
        F.ofItems? mayOmit fields (seen.set i y) items = some seen' := by
  rw [ofItems?, Option.bind_eq_some_iff]

end Json.Fields

/-! ## Texts that say a text -/

variable {text : String} {ms : List (String × String)}

/-- The text says a string. -/
def SaysText (text s : String) : Prop := readAll (Json.readTree 0) text = .ok (.string s)

/-- What may be left out or null: a text that is there is null, or tells a value. -/
def MayTell {α : Type} (told : String → α → Prop) : Option String → Option α → Prop
  | none, y => y = none
  | some text, y => (SaysNull text ∧ y = none) ∨ ∃ x, told text x ∧ y = some x

theorem string?_eq_some_iff {v : Json} {s : String} : v.string? = some s ↔ v = .string s := by
  cases v <;> simp [Json.string?]

theorem readAll_readStringValue_iff {s : String} :
    readAll Json.readStringValue text = .ok s ↔ SaysText text s := by
  rw [SaysText, Json.readAll_readTree_zero_iff, Json.readAll_eq_ok_iff]
  simp only [Json.readStringValue_eq_ok_iff, string?_eq_some_iff, exists_eq_left]
  rfl

/-- A value that never starts like null is read where it may be null. -/
theorem readAll_readOptional_iff {α : Type} {r : Json.Reader α} {told : String → α → Prop}
    {y : Option α} (hr : Json.ReadsValue r)
    (hhead : ∀ {s x rest}, r s = .ok (x, rest) → ∃ c t, Json.skipBlanks s = c :: t ∧ c ≠ 'n')
    (htold : ∀ x, readAll r text = .ok x ↔ told text x) :
    readAll (Json.readOptional r) text = .ok y ↔ MayTell told (some text) y := by
  cases y with
  | none => simp [readAll_readOptional_none_iff, MayTell]
  | some x =>
    have hsome : MayTell told (some text) (some x) ↔ told text x := by simp [MayTell]
    rw [hsome, ← htold, Json.readAll_eq_ok_iff, Json.readAll_eq_ok_iff]
    refine exists_congr fun rest => and_congr_left fun _ => ?_
    rw [Json.readOptional_eq_ok_iff]
    simp only [hr.blanks]
    constructor
    · rintro (⟨h, -⟩ | ⟨y, h, -, hread⟩)
      · cases h
      · obtain rfl := Option.some.inj h
        exact hread
    · intro hread
      exact .inr ⟨x, rfl, hhead hread, hread⟩

/-- A text that may be null is null or says a string. -/
theorem readAll_readOptional_text_iff {s : Option String} :
    readAll (Json.readOptional Json.readStringValue) text = .ok s ↔
      MayTell SaysText (some text) s := by
  refine readAll_readOptional_iff (Json.readsValue_scalar .text) ?_
    fun _ => readAll_readStringValue_iff
  intro s y rest hread
  obtain ⟨v, hv, hscalar⟩ := Json.readStringValue_eq_ok_iff.1 hread
  obtain rfl := string?_eq_some_iff.1 hv
  exact Json.head_ne_of_scalarText hscalar (by simp)

/-- A required text is read as a string. -/
theorem readAll_required_text_iff {y : Option String} :
    readAll (fun s => Json.readStringValue s >>= fun p => .ok (some p.1, p.2)) text = .ok y ↔
      ∃ x, SaysText text x ∧ y = some x := by
  simp only [Json.readAll_map_iff (f := some), readAll_readStringValue_iff]

section TextFields

variable {ι : Type} {title : String} {all : List ι} {name : ι → String} {required : ι → Bool}
  {i : ι} {t y : Option String}

/-- A record whose fields are all texts. -/
abbrev textFields (title : String) (all : List ι) (name : ι → String) (required : ι → Bool) :
    Json.Fields ι := ⟨title, all, name, fun _ => .text, required⟩

theorem fieldGiven_required_iff (hi : required i = true) :
    (textFields title all name required).FieldGiven i t y ↔
      ∃ text, t = some text ∧ ∃ x, SaysText text x ∧ y = some x := by
  cases t with
  | none => simp [Json.Fields.FieldGiven, hi]
  | some text =>
    have hread : (textFields title all name required).readField i =
        fun s => Json.readStringValue s >>= fun p => .ok (some p.1, p.2) := by
      funext s
      exact if_pos hi
    show readAll ((textFields title all name required).readField i) text = .ok y ↔ _
    rw [hread]
    exact readAll_required_text_iff.trans (by simp)

theorem fieldGiven_optional_iff (hi : required i = false) :
    (textFields title all name required).FieldGiven i t y ↔ MayTell SaysText t y := by
  cases t with
  | none => exact and_iff_right hi
  | some text =>
    have hread : (textFields title all name required).readField i =
        Json.readOptional Json.readStringValue := by
      funext s
      exact if_neg (by simp [hi])
    show readAll ((textFields title all name required).readField i) text = .ok y ↔ _
    rw [hread]
    exact readAll_readOptional_text_iff

end TextFields

/-- Exactly one member has the name, and its text says a string. -/
def GivesText (ms : List (String × String)) (name s : String) : Prop :=
  ∃ text, Page.single? ms name = some (some text) ∧ SaysText text s

/-- At most one member has the name, and its text is null or tells a value. -/
def MayGive {α : Type} (told : String → α → Prop) (ms : List (String × String)) (name : String)
    (y : Option α) : Prop :=
  ∃ t, Page.single? ms name = some t ∧ MayTell told t y

/-! ## Errors -/

namespace ReplyError

variable {error : ReplyError}

/-- The text of an error: an object that gives its code and its text, or the list of both. -/
def Told (text : String) (error : ReplyError) : Prop :=
  (∃ ms, memberTexts? text = some ms ∧ GivesText ms "Code" error.code ∧
    GivesText ms "Message" error.text) ∨
  ∃ code message, itemTexts? text = some [code, message] ∧ SaysText code error.code ∧
    SaysText message error.text

theorem named_fields : fields.Named := by
  intro i
  cases i <;> rfl

theorem fieldGiven_iff {i : Field} {t y : Option String} :
    fields.FieldGiven i t y ↔ ∃ text, t = some text ∧ ∃ x, SaysText text x ∧ y = some x :=
  fieldGiven_required_iff rfl

theorem readAll_readField_iff {i : Field} {y : Option String} :
    readAll (fields.readField i) text = .ok y ↔ ∃ x, SaysText text x ∧ y = some x :=
  (fieldGiven_iff (t := some text)).trans (by simp)

/-- The values of the fields of an error. -/
def values (error : ReplyError) : fields.Values
  | .code => some error.code
  | .text => some error.text

theorem fields_object_iff {f : fields.Values} :
    (∃ seen, ReadMemberTexts fields.slot (Json.Fields.Seen.empty fields) ms seen ∧
      fields.finish seen = .ok f) ↔
      ∃ error : ReplyError, f = error.values ∧ GivesText ms "Code" error.code ∧
        GivesText ms "Message" error.text := by
  rw [fields.exists_finish_iff named_fields]
  constructor
  · intro h
    obtain ⟨t, hcode, hgiven⟩ := h .code
    obtain ⟨code, rfl, c, hc, hfc⟩ := fieldGiven_iff.1 hgiven
    obtain ⟨t, htext, hgiven⟩ := h .text
    obtain ⟨message, rfl, m, hm, hfm⟩ := fieldGiven_iff.1 hgiven
    refine ⟨⟨c, m⟩, ?_, ⟨code, hcode, hc⟩, message, htext, hm⟩
    funext i
    cases i with
    | code => exact hfc
    | text => exact hfm
  · rintro ⟨error, rfl, ⟨code, hcode, hc⟩, message, htext, hm⟩ i
    cases i with
    | code => exact ⟨_, hcode, fieldGiven_iff.2 ⟨code, rfl, _, hc, rfl⟩⟩
    | text => exact ⟨_, htext, fieldGiven_iff.2 ⟨message, rfl, _, hm, rfl⟩⟩

theorem fields_list_iff {f : fields.Values} {texts : List String} :
    (∃ seen, ReadItemTexts (Json.nextField fields.form.elements) (Json.Fields.Seen.empty fields, 0)
      texts (seen, fields.all.length) ∧ fields.finish seen = .ok f) ↔
      ∃ (error : ReplyError) (code message : String), f = error.values ∧ texts = [code, message] ∧
        SaysText code error.code ∧ SaysText message error.text := by
  have hlength : fields.all.length = 2 := rfl
  have hfinish : ∀ {seen : fields.Seen}, fields.finish seen = .ok f ↔
      (∀ i, seen i ≠ none) ∧ f = fun i => (seen i).join := by
    intro seen
    rw [fields.finish_eq_ok_iff named_fields]
    simp [fields]
  rw [hlength]
  simp only [hfinish]
  constructor
  · rintro ⟨seen, hread, -, rfl⟩
    rcases texts with _ | ⟨code, _ | ⟨message, texts⟩⟩
    · cases hread
    · obtain ⟨y, -, hread⟩ := (fields.readItemTexts_cons_iff (i := .code) rfl).1 hread
      cases hread
    · obtain ⟨y, hy, hread⟩ := (fields.readItemTexts_cons_iff (i := .code) rfl).1 hread
      obtain ⟨z, hz, hread⟩ := (fields.readItemTexts_cons_iff (i := .text) rfl).1 hread
      obtain ⟨rfl, hseen⟩ := (fields.readItemTexts_end_iff rfl).1 hread
      obtain ⟨c, hc, rfl⟩ := readAll_readField_iff.1 hy
      obtain ⟨m, hm, rfl⟩ := readAll_readField_iff.1 hz
      refine ⟨⟨c, m⟩, code, message, ?_, rfl, hc, hm⟩
      cases hseen
      funext i
      cases i <;> rfl
  · rintro ⟨error, code, message, rfl, rfl, hc, hm⟩
    refine ⟨fun i => some (error.values i), ?_, ?_, ?_⟩
    · refine (fields.readItemTexts_cons_iff (i := .code) rfl).2
        ⟨some error.code, readAll_readField_iff.2 ⟨_, hc, rfl⟩, ?_⟩
      refine (fields.readItemTexts_cons_iff (i := .text) rfl).2
        ⟨some error.text, readAll_readField_iff.2 ⟨_, hm, rfl⟩, ?_⟩
      refine (fields.readItemTexts_end_iff rfl).2 ⟨rfl, ?_⟩
      refine Prod.ext ?_ rfl
      funext i
      cases i <;> rfl
    · simp
    · rfl

/-- **An error is read off exactly the texts that tell one.** -/
theorem readAll_reader_iff : readAll reader text = .ok error ↔ Told text error := by
  have hmap : readAll reader text = .ok error ↔
      ∃ f, readAll fields.read text = .ok f ∧ error = ⟨(f .code).getD "", (f .text).getD ""⟩ :=
    Json.readAll_map_iff (f := fun f : fields.Values =>
      (⟨(f .code).getD "", (f .text).getD ""⟩ : ReplyError))
  rw [hmap]
  constructor
  · rintro ⟨f, hread, rfl⟩
    rcases fields.readAll_read_parts_iff.1 hread with ⟨texts, seen, hts, hread⟩ |
      ⟨ms, seen, hms, hread⟩
    · obtain ⟨error, code, message, rfl, rfl, hc, hm⟩ := fields_list_iff.1 ⟨seen, hread⟩
      exact .inr ⟨code, message, hts, hc, hm⟩
    · obtain ⟨error, rfl, hgiven⟩ := fields_object_iff.1 ⟨seen, hread⟩
      exact .inl ⟨ms, hms, hgiven⟩
  · intro htold
    refine ⟨error.values, fields.readAll_read_parts_iff.2 ?_, rfl⟩
    rcases htold with ⟨ms, hms, hgiven⟩ | ⟨code, message, hts, hgiven⟩
    · obtain ⟨seen, hread⟩ := fields_object_iff.2 ⟨error, rfl, hgiven⟩
      exact .inr ⟨ms, seen, hms, hread⟩
    · obtain ⟨seen, hread⟩ := fields_list_iff.2 ⟨error, code, message, rfl, rfl, hgiven⟩
      exact .inl ⟨_, seen, hts, hread⟩

end ReplyError

/-! ## Tags -/

namespace ResourceTag

variable {tag : ResourceTag}

/-- The text of a tag: an object that gives its key, its value and perhaps its resource, or the
list of them. -/
def Told (text : String) (tag : ResourceTag) : Prop :=
  (∃ ms, memberTexts? text = some ms ∧ GivesText ms "TagKey" tag.key ∧
    GivesText ms "TagValue" tag.value ∧ MayGive SaysText ms "ResourceId" tag.resourceId) ∨
  ∃ key value resource, itemTexts? text = some (key :: value :: resource.toList) ∧
    SaysText key tag.key ∧ SaysText value tag.value ∧ MayTell SaysText resource tag.resourceId

theorem named_fields : fields.Named := by
  intro i
  cases i <;> rfl

/-- The values of the fields of a tag. -/
def values (tag : ResourceTag) : fields.Values
  | .key => some tag.key
  | .value => some tag.value
  | .resourceId => tag.resourceId

theorem fields_object_iff {f : fields.Values} :
    (∃ seen, ReadMemberTexts fields.slot (Json.Fields.Seen.empty fields) ms seen ∧
      fields.finish seen = .ok f) ↔
      ∃ tag : ResourceTag, f = tag.values ∧ GivesText ms "TagKey" tag.key ∧
        GivesText ms "TagValue" tag.value ∧ MayGive SaysText ms "ResourceId" tag.resourceId := by
  rw [fields.exists_finish_iff named_fields]
  constructor
  · intro h
    obtain ⟨t, hkey, hgiven⟩ := h .key
    obtain ⟨key, rfl, k, hk, hfk⟩ := (fieldGiven_required_iff rfl).1 hgiven
    obtain ⟨t, hvalue, hgiven⟩ := h .value
    obtain ⟨value, rfl, v, hv, hfv⟩ := (fieldGiven_required_iff rfl).1 hgiven
    obtain ⟨t, hresource, hgiven⟩ := h .resourceId
    refine ⟨⟨k, v, f .resourceId⟩, ?_, ⟨key, hkey, hk⟩, ⟨value, hvalue, hv⟩, t, hresource,
      (fieldGiven_optional_iff rfl).1 hgiven⟩
    funext i
    cases i with
    | key => exact hfk
    | value => exact hfv
    | resourceId => rfl
  · rintro ⟨tag, rfl, ⟨key, hkey, hk⟩, ⟨value, hvalue, hv⟩, t, hresource, hr⟩ i
    cases i with
    | key => exact ⟨_, hkey, (fieldGiven_required_iff rfl).2 ⟨key, rfl, _, hk, rfl⟩⟩
    | value => exact ⟨_, hvalue, (fieldGiven_required_iff rfl).2 ⟨value, rfl, _, hv, rfl⟩⟩
    | resourceId => exact ⟨t, hresource, (fieldGiven_optional_iff rfl).2 hr⟩

/-- A required field is decoded from the tree of a text. -/
theorem fieldOfTree?_required_iff {i : Field} {v : Json} {y : Option String} {depth : Nat}
    (hi : fields.required i = true) (hv : readAll (Json.readTree depth) text = .ok v) :
    fields.fieldOfTree? i v = some y ↔ ∃ x, SaysText text x ∧ y = some x := by
  refine (fields.readAll_readField_of_tree hv).symm.trans ?_
  exact (fieldGiven_required_iff (t := some text) hi).trans (by simp)

theorem fieldOfTree?_resourceId_iff {v : Json} {y : Option String} {depth : Nat}
    (hv : readAll (Json.readTree depth) text = .ok v) :
    fields.fieldOfTree? .resourceId v = some y ↔ MayTell SaysText (some text) y :=
  (fields.readAll_readField_of_tree hv).symm.trans (fieldGiven_optional_iff (t := some text) rfl)

section Items

variable {depth : Nat} {texts : List String} {items : List Json}

/-- The elements that are decoded tell a tag. -/
theorem told_of_ofItems? {seen : fields.Seen}
    (h : List.Forall₂ (fun t v => readAll (Json.readTree depth) t = .ok v) texts items)
    (hitems : fields.ofItems? 1 [.key, .value, .resourceId] (Json.Fields.Seen.empty fields) items =
      some seen) :
    ∃ (tag : ResourceTag) (key value : String) (resource : Option String),
      (fun i => (seen i).join) = tag.values ∧ texts = key :: value :: resource.toList ∧
        SaysText key tag.key ∧ SaysText value tag.value ∧
          MayTell SaysText resource tag.resourceId := by
  cases h with
  | nil => cases hitems
  | @cons key v _ _ hv h =>
    obtain ⟨_, hkey, hitems⟩ := fields.ofItems?_cons_iff.1 hitems
    obtain ⟨k, hk, rfl⟩ := (fieldOfTree?_required_iff rfl hv).1 hkey
    cases h with
    | nil => cases hitems
    | @cons value w _ _ hw h =>
      obtain ⟨_, hvalue, hitems⟩ := fields.ofItems?_cons_iff.1 hitems
      obtain ⟨l, hl, rfl⟩ := (fieldOfTree?_required_iff rfl hw).1 hvalue
      cases h with
      | nil =>
        refine ⟨⟨k, l, none⟩, key, value, none, ?_, rfl, hk, hl, rfl⟩
        cases hitems
        funext i
        cases i <;> rfl
      | @cons resource u _ _ hu h =>
        obtain ⟨r, hresource, hitems⟩ := fields.ofItems?_cons_iff.1 hitems
        cases h with
        | nil =>
          refine ⟨⟨k, l, r⟩, key, value, some resource, ?_, rfl, hk, hl,
            (fieldOfTree?_resourceId_iff hu).1 hresource⟩
          cases hitems
          funext i
          cases i <;> rfl
        | cons => cases hitems

/-- The elements that tell a tag are decoded, and both forms of the list end in its values. -/
theorem ofItems?_of_told {tag : ResourceTag} {key value : String} {resource : Option String}
    (h : List.Forall₂ (fun t v => readAll (Json.readTree depth) t = .ok v)
      (key :: value :: resource.toList) items)
    (hk : SaysText key tag.key) (hl : SaysText value tag.value)
    (hr : MayTell SaysText resource tag.resourceId) :
    ∃ seen, fields.ofItems? 1 [.key, .value, .resourceId] (Json.Fields.Seen.empty fields) items =
      some seen ∧ fields.finish seen = .ok tag.values := by
  cases h with | @cons _ v _ _ hv h => ?_
  cases h with | @cons _ w _ _ hw h => ?_
  have hkey := (fieldOfTree?_required_iff (i := .key) rfl hv).2 ⟨_, hk, rfl⟩
  have hvalue := (fieldOfTree?_required_iff (i := .value) rfl hw).2 ⟨_, hl, rfl⟩
  cases resource with
  | none =>
    obtain ⟨k, l, r⟩ := tag
    obtain rfl : r = none := hr
    cases h with | nil => ?_
    refine ⟨_, fields.ofItems?_cons_iff.2
      ⟨_, hkey, fields.ofItems?_cons_iff.2 ⟨_, hvalue, rfl⟩⟩, ?_⟩
    exact congrArg Except.ok (funext fun i => by cases i <;> rfl)
  | some resource =>
    cases h with | @cons _ u _ _ hu h => ?_
    cases h with | nil => ?_
    have hresource := (fieldOfTree?_resourceId_iff hu).2 hr
    refine ⟨_, fields.ofItems?_cons_iff.2 ⟨_, hkey, fields.ofItems?_cons_iff.2 ⟨_, hvalue,
      fields.ofItems?_cons_iff.2 ⟨_, hresource, rfl⟩⟩⟩, ?_⟩
    exact congrArg Except.ok (funext fun i => by cases i <;> rfl)

/-- The elements of a list give a tag: the last one may be missing. -/
theorem fields_items_iff {f : fields.Values}
    (h : List.Forall₂ (fun t v => readAll (Json.readTree depth) t = .ok v) texts items) :
    (∃ seen, fields.ofItems? 1 fields.all (Json.Fields.Seen.empty fields) items = some seen ∧
      fields.finish seen = .ok f) ↔
      ∃ (tag : ResourceTag) (key value : String) (resource : Option String), f = tag.values ∧
        texts = key :: value :: resource.toList ∧ SaysText key tag.key ∧
        SaysText value tag.value ∧ MayTell SaysText resource tag.resourceId := by
  have hall : fields.all = [.key, .value, .resourceId] := rfl
  rw [hall]
  constructor
  · rintro ⟨seen, hitems, hfinish⟩
    obtain ⟨-, rfl⟩ := (fields.finish_eq_ok_iff named_fields).1 hfinish
    exact told_of_ofItems? h hitems
  · rintro ⟨tag, key, value, resource, rfl, rfl, hk, hl, hr⟩
    exact ofItems?_of_told h hk hl hr

end Items

/-- **A tag is decoded from the trees of exactly the texts that tell one.** -/
theorem ofTree?_eq_some_iff {depth : Nat} {v : Json}
    (hv : readAll (Json.readTree depth) text = .ok v) : ofTree? v = some tag ↔ Told text tag := by
  have hmap : ofTree? v = some tag ↔
      ∃ f, fields.ofTree? 1 v = some f ∧
        ⟨(f .key).getD "", (f .value).getD "", f .resourceId⟩ = tag :=
    Option.map_eq_some_iff
  have hscalar : ScalarAlone text v → (ofTree? v = some tag ↔ Told text tag) := by
    intro h
    rw [Told, h.itemTexts?_eq, h.memberTexts?_eq, hmap]
    obtain ⟨rest, hs, -⟩ := h
    generalize Json.skipBlanks text.toList = u at hs
    cases hs <;> simp [Json.Fields.ofTree?]
  cases depth with
  | zero => exact hscalar (Json.readAll_readTree_zero_iff.1 hv)
  | succ depth =>
    rcases Json.readAll_readTree_succ_iff.1 hv with h | ⟨texts, items, hts, rfl, hall⟩ |
      ⟨ms, members, hms, rfl, hall⟩
    · exact hscalar h
    · rw [Told, Json.memberTexts?_of_itemTexts? hts, hts, hmap]
      simp only [Json.Fields.ofTree?, Option.bind_eq_some_iff, toOption_eq_some_iff,
        fields_items_iff hall]
      constructor
      · rintro ⟨f, ⟨tag, key, value, resource, rfl, rfl, htold⟩, rfl⟩
        exact .inr ⟨key, value, resource, rfl, htold⟩
      · rintro (⟨_, h, -⟩ | ⟨key, value, resource, h, htold⟩)
        · cases h
        · exact ⟨_, ⟨tag, key, value, resource, rfl, Option.some.inj h, htold⟩, rfl⟩
    · rw [Told, Json.itemTexts?_of_memberTexts? hms, hms, hmap]
      simp only [Json.Fields.ofTree?, Option.bind_eq_some_iff, toOption_eq_some_iff,
        fields.ofMembers?_eq_some_iff hall, fields_object_iff]
      constructor
      · rintro ⟨f, ⟨tag, rfl, htold⟩, rfl⟩
        exact .inl ⟨ms, rfl, htold⟩
      · rintro (⟨_, h, htold⟩ | ⟨_, _, _, h, -⟩)
        · obtain rfl := Option.some.inj h
          exact ⟨_, ⟨tag, rfl, htold⟩, rfl⟩
        · cases h

end ResourceTag

end DbInventory
