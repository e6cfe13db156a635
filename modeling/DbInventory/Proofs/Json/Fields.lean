/-
# DbInventory.Proofs.Json.Fields -- records of scalars, from texts and from trees

A record of scalars can be read off its text, or be decoded from the tree of the text. The two
agree on every text that has a tree (`Fields.ofTree?_eq_some_iff`): whatever is refused on one
way, a repeated name, a null, a missing field or a list of the wrong length, is refused on the
other. Reading an object does not depend on the order of its members, nor on members that are
no fields (`Fields.readAll_read_of_reordered`).
-/

import DbInventory.Proofs.Json.Parts

namespace DbInventory.Json

variable {ι : Type} {s rest : List Char} {text : String} {v : Json}

/-! ## Scalars and null -/

theorem Scalar.ofTree?_null (k : Scalar) : k.ofTree? .null = none := by
  cases k <;> rfl

theorem Scalar.ofTree?_array (k : Scalar) (items : List Json) :
    k.ofTree? (.array items) = none := by
  cases k <;> rfl

theorem Scalar.ofTree?_object (k : Scalar) (members : List (String × Json)) :
    k.ofTree? (.object members) = none := by
  cases k <;> rfl

theorem scalarText_null_iff :
    ScalarText .null s rest ↔ s = 'n' :: 'u' :: 'l' :: 'l' :: rest := by
  constructor
  · intro h
    cases h
    rfl
  · rintro rfl
    exact .null

theorem head_ne_of_scalarText (h : ScalarText v s rest) (hv : v ≠ .null) :
    ∃ c t, s = c :: t ∧ c ≠ 'n' := by
  cases h with
  | null => exact absurd rfl hv
  | true => exact ⟨'t', _, rfl, by decide⟩
  | false => exact ⟨'f', _, rfl, by decide⟩
  | string h => exact ⟨'"', _, rfl, by decide⟩
  | negative h => exact ⟨'-', _, rfl, by decide⟩
  | digits hc h => exact ⟨_, _, rfl, ne_of_isDigit hc rfl⟩

namespace Fields

variable (F : Fields ι) {i : ι}

/-! ## One field -/

theorem fieldOfTree?_eq_some_iff {y : Option (F.kind i).Carrier} :
    F.fieldOfTree? i v = some y ↔
      (F.required i = false ∧ v = .null ∧ y = none) ∨
        ∃ x, (F.kind i).ofTree? v = some x ∧ y = some x := by
  have hnull := Scalar.ofTree?_null (F.kind i)
  have hmap : ((F.kind i).ofTree? v).map some = some y ↔
      ∃ x, (F.kind i).ofTree? v = some x ∧ y = some x := by
    rw [Option.map_eq_some_iff]
    exact exists_congr fun x => and_congr_right fun _ => eq_comm
  unfold fieldOfTree?
  cases F.required i with
  | true => simp [hmap]
  | false =>
    cases v with
    | null => simp [hnull, eq_comm]
    | _ => simp [hmap]

/-- **A field is read off a text where a scalar is decoded.** -/
theorem readField_eq_ok_iff {y : Option (F.kind i).Carrier} :
    F.readField i s = .ok (y, rest) ↔
      ∃ v, F.fieldOfTree? i v = some y ∧ ScalarText v (skipBlanks s) rest := by
  simp only [fieldOfTree?_eq_some_iff]
  unfold readField
  cases F.required i with
  | true =>
    simp only [if_true, bind_eq_ok, Bool.true_eq_false, false_and, false_or]
    constructor
    · rintro ⟨⟨x, m⟩, hx, h⟩
      cases h
      obtain ⟨v, hv, hscalar⟩ := (scalar_read_iff _).1 hx
      exact ⟨v, ⟨x, hv, rfl⟩, hscalar⟩
    · rintro ⟨v, ⟨x, hv, rfl⟩, hscalar⟩
      exact ⟨(x, rest), (scalar_read_iff _).2 ⟨v, hv, hscalar⟩, rfl⟩
  | false =>
    simp only [Bool.false_eq_true, if_false, true_and]
    rw [readOptional_eq_ok_iff]
    constructor
    · rintro (⟨rfl, hnull⟩ | ⟨x, rfl, -, hx⟩)
      · exact ⟨.null, .inl ⟨rfl, rfl⟩, scalarText_null_iff.2 hnull⟩
      · obtain ⟨v, hv, hscalar⟩ := (scalar_read_iff _).1 hx
        rw [skipBlanks_skipBlanks] at hscalar
        exact ⟨v, .inr ⟨x, hv, rfl⟩, hscalar⟩
    · rintro ⟨v, ⟨rfl, rfl⟩ | ⟨x, hv, rfl⟩, hscalar⟩
      · exact .inl ⟨rfl, scalarText_null_iff.1 hscalar⟩
      · have hne : v ≠ .null := by
          rintro rfl
          rw [Scalar.ofTree?_null] at hv
          cases hv
        refine .inr ⟨x, rfl, head_ne_of_scalarText hscalar hne, ?_⟩
        rw [scalar_read_iff, skipBlanks_skipBlanks]
        exact ⟨v, hv, hscalar⟩

theorem readsValue_readField (i : ι) : ReadsValue (F.readField i) :=
  readsValue_of_scalarText fun _ _ _ => F.readField_eq_ok_iff

theorem readAll_readField_iff {y : Option (F.kind i).Carrier} :
    readAll (F.readField i) text = .ok y ↔
      ∃ v, F.fieldOfTree? i v = some y ∧ ScalarAlone text v := by
  rw [readAll_eq_ok_iff]
  simp only [readField_eq_ok_iff]
  constructor
  · rintro ⟨rest, ⟨v, hv, hscalar⟩, hend⟩
    exact ⟨v, hv, rest, hscalar, hend⟩
  · rintro ⟨v, hv, rest, hscalar, hend⟩
    exact ⟨rest, ⟨v, hv, hscalar⟩, hend⟩

/-- What a field is decoded from is a scalar. -/
theorem scalarAlone_of_fieldOfTree? {depth : Nat} {y : Option (F.kind i).Carrier}
    (hv : readAll (readTree depth) text = .ok v) (hy : F.fieldOfTree? i v = some y) :
    ScalarAlone text v := by
  apply scalarAlone_of_readTree hv
  · rintro items rfl
    rcases (F.fieldOfTree?_eq_some_iff).1 hy with ⟨-, h, -⟩ | ⟨x, h, -⟩
    · cases h
    · rw [Scalar.ofTree?_array] at h
      cases h
  · rintro members rfl
    rcases (F.fieldOfTree?_eq_some_iff).1 hy with ⟨-, h, -⟩ | ⟨x, h, -⟩
    · cases h
    · rw [Scalar.ofTree?_object] at h
      cases h

/-- A field is read off a text as it is decoded from its tree. -/
theorem readAll_readField_of_tree {depth : Nat} {y : Option (F.kind i).Carrier}
    (hv : readAll (readTree depth) text = .ok v) :
    readAll (F.readField i) text = .ok y ↔ F.fieldOfTree? i v = some y := by
  rw [readAll_readField_iff]
  constructor
  · rintro ⟨w, hw, hscalar⟩
    have hsame := hscalar.readTree_eq depth
    rw [hv] at hsame
    obtain rfl := Except.ok.inj hsame
    exact hw
  · intro hy
    exact ⟨v, hy, F.scalarAlone_of_fieldOfTree? hv hy⟩

/-! ## Reading a field into a record -/

variable [DecidableEq ι] {seen seen' : F.Seen}

theorem readsValue_readInto (i : ι) (seen : F.Seen) : ReadsValue (F.readInto i seen) :=
  (F.readsValue_readField i).map fun x => seen.set i x

theorem allTaken_slot : AllTaken F.slot := by
  intro seen name value hslot
  unfold slot at hslot
  cases hfield : F.field? name with
  | none => simp [hfield] at hslot
  | some i =>
    by_cases hseen : (seen i).isSome = true
    · simp [hfield, hseen] at hslot
    · simp only [hfield, if_neg hseen] at hslot
      obtain rfl := Slot.take.inj hslot
      exact F.readsValue_readInto i seen

theorem readsValue_elements :
    ∀ field ∈ F.form.elements, ∀ seen, ReadsValue (field seen) := by
  intro field hfield seen
  obtain ⟨i, -, rfl⟩ := List.mem_map.1 hfield
  exact F.readsValue_readInto i seen

/-- **A record of scalars is a value.** -/
theorem readsValue_read : ReadsValue F.read :=
  Json.readsValue_read (show AllTaken F.form.slot from F.allTaken_slot) F.readsValue_elements

theorem readAll_readInto_iff :
    readAll (F.readInto i seen) text = .ok seen' ↔
      ∃ y, readAll (F.readField i) text = .ok y ∧ seen' = seen.set i y :=
  readAll_map_iff (f := fun y => seen.set i y)

/-- **A record is read off the texts of its fields**, of all of them in a list. -/
theorem readAll_read_parts_iff {values : F.Values} :
    readAll F.read text = .ok values ↔
      (∃ texts seen, itemTexts? text = some texts ∧
        ReadItemTexts (nextField F.form.elements) (Seen.empty F, 0) texts (seen, F.all.length) ∧
        F.finish seen = .ok values) ∨
      ∃ ms seen, memberTexts? text = some ms ∧ ReadMemberTexts F.slot (Seen.empty F) ms seen ∧
        F.finish seen = .ok values := by
  have hlength : F.form.elements.length = F.all.length := List.length_map ..
  rw [← hlength]
  exact readAll_read_iff F.allTaken_slot F.readsValue_elements

/-! ## Trees -/

/-- One member, in a text. -/
theorem readMemberText_iff {m : String × String} :
    ReadMemberText F.slot seen m seen' ↔
      (F.field? m.1 = none ∧ seen = seen') ∨
        ∃ i, F.field? m.1 = some i ∧ seen i = none ∧
          ∃ y, readAll (F.readField i) m.2 = .ok y ∧ seen' = seen.set i y := by
  unfold ReadMemberText slot
  cases F.field? m.1 with
  | none => simp
  | some i =>
    cases hseen : seen i with
    | some x => simp [hseen]
    | none =>
      simp only [hseen, Option.isSome_none, Bool.false_eq_true, if_false, Slot.take.injEq,
        reduceCtorEq, false_and, false_or, Option.some.injEq]
      constructor
      · rintro ⟨value, rfl, hread⟩
        exact ⟨i, rfl, hseen, F.readAll_readInto_iff.1 hread⟩
      · rintro ⟨j, rfl, -, hread⟩
        exact ⟨_, rfl, F.readAll_readInto_iff.2 hread⟩

/-- One member, in a tree. -/
theorem ofMembers?_cons_eq_some_iff {name : String} {members : List (String × Json)} :
    F.ofMembers? seen ((name, v) :: members) = some seen' ↔
      (F.field? name = none ∧ F.ofMembers? seen members = some seen') ∨
        ∃ i, F.field? name = some i ∧ seen i = none ∧
          ∃ y, F.fieldOfTree? i v = some y ∧ F.ofMembers? (seen.set i y) members = some seen' := by
  rw [ofMembers?]
  cases F.field? name with
  | none => simp
  | some i => cases hseen : seen i <;> simp [hseen, Option.bind_eq_some_iff]

/-- The members of a tree are decoded as their texts are read. -/
theorem ofMembers?_eq_some_iff {depth : Nat} {ms : List (String × String)}
    {members : List (String × Json)}
    (h : List.Forall₂ (fun m w => m.1 = w.1 ∧ readAll (readTree depth) m.2 = .ok w.2)
      ms members) :
    F.ofMembers? seen members = some seen' ↔ ReadMemberTexts F.slot seen ms seen' := by
  induction h generalizing seen with
  | nil => simp [ofMembers?, ReadMemberTexts]
  | @cons m w ms members hw _ ih =>
    obtain ⟨name, v⟩ := w
    obtain ⟨hname, hv⟩ : m.1 = name ∧ readAll (readTree depth) m.2 = .ok v := hw
    rw [ofMembers?_cons_eq_some_iff, ReadMemberTexts]
    simp only [readMemberText_iff, hname, F.readAll_readField_of_tree hv, ih]
    constructor
    · rintro (⟨hfield, hrest⟩ | ⟨i, hfield, hseen, y, hy, hrest⟩)
      · exact ⟨seen, .inl ⟨hfield, rfl⟩, hrest⟩
      · exact ⟨seen.set i y, .inr ⟨i, hfield, hseen, y, hy, rfl⟩, hrest⟩
    · rintro ⟨_, ⟨hfield, rfl⟩ | ⟨i, hfield, hseen, y, hy, rfl⟩, hrest⟩
      · exact .inl ⟨hfield, hrest⟩
      · exact .inr ⟨i, hfield, hseen, y, hy, hrest⟩

/-- One element, in a text and in a tree. -/
theorem readAll_readCounted_of_tree {depth n : Nat} {p : F.Seen × Nat}
    (hv : readAll (readTree depth) text = .ok v) :
    readAll (readCounted (F.readInto i) (seen, n)) text = .ok p ↔
      ∃ y, F.fieldOfTree? i v = some y ∧ p = (seen.set i y, n + 1) := by
  have hmap : readAll (readCounted (F.readInto i) (seen, n)) text = .ok p ↔
      ∃ q, readAll (F.readInto i seen) text = .ok q ∧ p = (q, n + 1) :=
    readAll_map_iff (f := fun q => (q, n + 1))
  simp only [hmap, F.readAll_readInto_iff, F.readAll_readField_of_tree hv]
  constructor
  · rintro ⟨q, ⟨y, hy, rfl⟩, rfl⟩
    exact ⟨y, hy, rfl⟩
  · rintro ⟨y, hy, rfl⟩
    exact ⟨seen.set i y, ⟨y, hy, rfl⟩, rfl⟩

/-- The elements of a tree are decoded as their texts are read, from the `n`-th field on. -/
theorem ofItems?_eq_some_iff {depth n : Nat} {fields : List ι} {texts : List String}
    {items : List Json} (hn : n ≤ F.all.length) (hfields : F.all.drop n = fields)
    (h : List.Forall₂ (fun t w => readAll (readTree depth) t = .ok w) texts items) :
    F.ofItems? 0 fields seen items = some seen' ↔
      ReadItemTexts (nextField F.form.elements) (seen, n) texts (seen', F.all.length) := by
  induction fields generalizing n seen texts items with
  | nil =>
    obtain rfl : n = F.all.length := Nat.le_antisymm hn (List.drop_eq_nil_iff.1 hfields)
    cases h with
    | nil => simp [ofItems?, ReadItemTexts]
    | cons => simp [ofItems?, ReadItemTexts, nextField, form]
  | cons i fields ih =>
    -- the loop over texts counts the fields, the one over trees takes them off the list
    obtain ⟨hget, hdrop, hlt⟩ := next_of_drop hfields
    have hnext : nextField F.form.elements (seen, n) =
        some (readCounted (F.readInto i) (seen, n)) := by
      simp [nextField, form, hget]
    cases h with
    | nil =>
      have hne : n ≠ F.all.length := by omega
      simp [ofItems?, ReadItemTexts, hne]
    | @cons text v texts items hv htail =>
      have hcounted : ∀ p, readAll (readCounted (F.readInto i) (seen, n)) text = .ok p ↔
          ∃ y, F.fieldOfTree? i v = some y ∧ p = (seen.set i y, n + 1) := fun p =>
        F.readAll_readCounted_of_tree hv
      rw [ofItems?, Option.bind_eq_some_iff, ReadItemTexts]
      constructor
      · rintro ⟨y, hy, hrest⟩
        exact ⟨_, _, hnext, (hcounted _).2 ⟨y, hy, rfl⟩, (ih hlt hdrop htail).1 hrest⟩
      · rintro ⟨r, p, hr, hread, hrest⟩
        obtain rfl := Option.some.inj (hnext.symm.trans hr)
        obtain ⟨y, hy, rfl⟩ := (hcounted p).1 hread
        exact ⟨y, hy, (ih hlt hdrop htail).2 hrest⟩

/-- **Reading a record off a text is decoding it from the tree of the text.** -/
theorem ofTree?_eq_some_iff {depth : Nat} (hv : readAll (readTree depth) text = .ok v)
    {values : F.Values} : F.ofTree? 0 v = some values ↔ readAll F.read text = .ok values := by
  -- neither way makes a record of a scalar
  have hscalar : ScalarAlone text v →
      (F.ofTree? 0 v = some values ↔ readAll F.read text = .ok values) := by
    intro h
    rw [readAll_read_parts_iff, h.itemTexts?_eq, h.memberTexts?_eq]
    obtain ⟨rest, hs, -⟩ := h
    generalize skipBlanks text.toList = u at hs
    cases hs <;> simp [ofTree?]
  cases depth with
  | zero => exact hscalar (readAll_readTree_zero_iff.1 hv)
  | succ depth =>
    rcases readAll_readTree_succ_iff.1 hv with h | ⟨texts, items, hts, rfl, hall⟩ |
      ⟨ms, members, hms, rfl, hall⟩
    · exact hscalar h
    · rw [readAll_read_parts_iff, memberTexts?_of_itemTexts? hts, hts]
      simp only [ofTree?, Option.bind_eq_some_iff, toOption_eq_some_iff, Option.some.injEq,
        reduceCtorEq, false_and, exists_const, or_false]
      constructor
      · rintro ⟨seen, hitems, hfinish⟩
        exact ⟨texts, seen, rfl,
          (F.ofItems?_eq_some_iff (Nat.zero_le _) (List.drop_zero ..) hall).1 hitems, hfinish⟩
      · rintro ⟨_, seen, rfl, hread, hfinish⟩
        exact ⟨seen,
          (F.ofItems?_eq_some_iff (Nat.zero_le _) (List.drop_zero ..) hall).2 hread, hfinish⟩
    · rw [readAll_read_parts_iff, itemTexts?_of_memberTexts? hms, hms]
      simp only [ofTree?, Option.bind_eq_some_iff, toOption_eq_some_iff, Option.some.injEq,
        reduceCtorEq, false_and, exists_const, false_or]
      constructor
      · rintro ⟨seen, hmembers, hfinish⟩
        exact ⟨ms, seen, rfl, (F.ofMembers?_eq_some_iff hall).1 hmembers, hfinish⟩
      · rintro ⟨_, seen, rfl, hread, hfinish⟩
        exact ⟨seen, (F.ofMembers?_eq_some_iff hall).2 hread, hfinish⟩

/-! ## The order of members -/

theorem set_eq_none_iff {j : ι} {y : Option (F.kind i).Carrier} :
    (seen.set i y) j = none ↔ j ≠ i ∧ seen j = none := by
  unfold Seen.set
  by_cases h : j = i <;> simp [h]

theorem set_comm {j : ι} (h : i ≠ j) (y : Option (F.kind i).Carrier)
    (z : Option (F.kind j).Carrier) : (seen.set i y).set j z = (seen.set j z).set i y := by
  funext k
  unfold Seen.set
  by_cases hi : k = i
  · subst hi
    simp [h]
  · by_cases hj : k = j
    · subst hj
      simp [hi]
    · simp [hi, hj]

/-- Two members can be read in either order. -/
theorem readMemberText_comm {seen₁ seen₂ : F.Seen} {a b : String × String}
    (ha : ReadMemberText F.slot seen a seen₁) (hb : ReadMemberText F.slot seen₁ b seen₂) :
    ∃ seen₁', ReadMemberText F.slot seen b seen₁' ∧ ReadMemberText F.slot seen₁' a seen₂ := by
  simp only [readMemberText_iff] at ha hb ⊢
  rcases ha with ⟨hi, rfl⟩ | ⟨i, hi, hseen, y, hy, rfl⟩
  · exact ⟨seen₂, hb, .inl ⟨hi, rfl⟩⟩
  rcases hb with ⟨hj, rfl⟩ | ⟨j, hj, hseen', z, hz, rfl⟩
  · exact ⟨seen, .inl ⟨hj, rfl⟩, .inr ⟨i, hi, hseen, y, hy, rfl⟩⟩
  · obtain ⟨hne, hseenj⟩ := F.set_eq_none_iff.1 hseen'
    refine ⟨seen.set j z, .inr ⟨j, hj, hseenj, z, hz, rfl⟩, .inr ⟨i, hi, ?_, y, hy, ?_⟩⟩
    · exact F.set_eq_none_iff.2 ⟨Ne.symm hne, hseen⟩
    · exact F.set_comm (Ne.symm hne) y z

/-- **The record of an object is the record of its members in any order**, with any members
between them that are no fields. -/
theorem readAll_read_of_reordered {text' : String} {ms ms' : List (String × String)}
    {values : F.Values} (hms : memberTexts? text = some ms) (hms' : memberTexts? text' = some ms')
    (h : Reordered Eq (fun m => F.field? m.1 = none) ms ms')
    (hread : readAll F.read text = .ok values) : readAll F.read text' = .ok values := by
  rw [readAll_read_parts_iff] at hread ⊢
  rcases hread with ⟨texts, -, hts, -, -⟩ | ⟨_, seen, hsame, hread, hfinish⟩
  · rw [memberTexts?_of_itemTexts? hts] at hms
    cases hms
  · obtain rfl := Option.some.inj (hms.symm.trans hsame)
    refine .inr ⟨ms', seen, hms', ?_, hfinish⟩
    refine hread.reordered (fun _ _ _ _ _ => F.readMemberText_comm) h ?_
    intro seen m hm
    exact F.readMemberText_iff.2 (.inl ⟨hm, rfl⟩)

end Fields

end DbInventory.Json
