/-
# DbInventory.Proofs.Json.Parts -- records and trees, read part by part

With lists and objects cut into texts, a record is read off the texts of its members or of its
elements (`readAll_read_iff`), and a tree off the texts of its parts
(`readAll_readTree_succ_iff`). What stands between the parts matters to neither.
-/

import DbInventory.Proofs.Json.Texts

namespace DbInventory.Json

variable {α β σ : Type} {s rest : List Char} {text : String} {v : Json} {x : α}

/-! ## Records of a text -/

/-- A record that is written as an object is read off the texts of its members. -/
theorem readAll_readObjectOnly_iff {form : RecordForm σ α} (hall : AllTaken form.slot) :
    readAll form.readObjectOnly text = .ok x ↔
      ∃ ms st, memberTexts? text = some ms ∧ ReadMemberTexts form.slot form.start ms st ∧
        form.finish st = .ok x := by
  rw [readAll_eq_ok_iff]
  constructor
  · rintro ⟨rest, h, hend⟩
    obtain ⟨t, ht, hobject⟩ := readObjectOnly_eq_ok_iff.1 h
    obtain ⟨st, hmembers, hfinish⟩ := (readObject_eq_ok_iff hall).1 hobject
    obtain ⟨ms, htexts, hread⟩ := (members_iff_readMemberTexts hall).1 hmembers
    exact ⟨ms, st, memberTexts?_eq_some_iff.2 ⟨t, rest, ht, htexts, hend⟩, hread, hfinish⟩
  · rintro ⟨ms, st, hms, hread, hfinish⟩
    obtain ⟨t, rest, ht, htexts, hend⟩ := memberTexts?_eq_some_iff.1 hms
    have hmembers := (members_iff_readMemberTexts hall).2 ⟨ms, htexts, hread⟩
    exact ⟨rest, readObjectOnly_eq_ok_iff.2
      ⟨t, ht, (readObject_eq_ok_iff hall).2 ⟨st, hmembers, hfinish⟩⟩, hend⟩

/-- A record that is written as a list is read off the texts of its elements. -/
theorem readAll_readList_iff {form : RecordForm σ α}
    (hfields : ∀ field ∈ form.elements, ∀ st, ReadsValue (field st)) :
    (∃ t rest, skipBlanks text.toList = '[' :: t ∧ form.readList t = .ok (x, rest) ∧
      skipBlanks rest = []) ↔
      ∃ texts st, itemTexts? text = some texts ∧
        ReadItemTexts (nextField form.elements) (form.start, 0) texts
          (st, form.elements.length) ∧
        form.finish st = .ok x := by
  have hall := allRead_nextField hfields
  constructor
  · rintro ⟨t, rest, ht, h, hend⟩
    obtain ⟨st, helements, hfinish⟩ := readList_eq_ok_iff.1 h
    obtain ⟨texts, htexts, hread⟩ := (elements_iff_readItemTexts hall).1 helements
    exact ⟨texts, st, itemTexts?_eq_some_iff.2 ⟨t, rest, ht, htexts, hend⟩, hread, hfinish⟩
  · rintro ⟨texts, st, hts, hread, hfinish⟩
    obtain ⟨t, rest, ht, htexts, hend⟩ := itemTexts?_eq_some_iff.1 hts
    have helements := (elements_iff_readItemTexts hall).2 ⟨texts, htexts, hread⟩
    exact ⟨t, rest, ht, readList_eq_ok_iff.2 ⟨st, helements, hfinish⟩, hend⟩

/-- **A record is read off the texts of its members or of its elements.** -/
theorem readAll_read_iff {form : RecordForm σ α} (hall : AllTaken form.slot)
    (hfields : ∀ field ∈ form.elements, ∀ st, ReadsValue (field st)) :
    readAll form.read text = .ok x ↔
      (∃ texts st, itemTexts? text = some texts ∧
        ReadItemTexts (nextField form.elements) (form.start, 0) texts
          (st, form.elements.length) ∧
        form.finish st = .ok x) ∨
      ∃ ms st, memberTexts? text = some ms ∧ ReadMemberTexts form.slot form.start ms st ∧
        form.finish st = .ok x := by
  rw [← readAll_readList_iff hfields, ← readAll_readObjectOnly_iff hall, readAll_eq_ok_iff,
    readAll_eq_ok_iff]
  simp only [read_eq_ok_iff, readObjectOnly_eq_ok_iff]
  constructor
  · rintro ⟨rest, ⟨t, ht, hlist⟩ | hobject, hend⟩
    · exact .inl ⟨t, rest, ht, hlist, hend⟩
    · exact .inr ⟨rest, hobject, hend⟩
  · rintro (⟨t, rest, ht, hlist, hend⟩ | ⟨rest, hobject, hend⟩)
    · exact ⟨rest, .inl ⟨t, ht, hlist⟩, hend⟩
    · exact ⟨rest, .inr hobject, hend⟩

/-! ## Trees of a text -/

/-- A text that is a scalar, beside blanks. -/
def ScalarAlone (text : String) (v : Json) : Prop :=
  ∃ rest, ScalarText v (skipBlanks text.toList) rest ∧ skipBlanks rest = []

/-- A list is read off the texts of its elements. -/
theorem readAll_items_iff {element : Reader α} (hr : ReadsValue element) {items : List α} :
    (∃ t rest, skipBlanks text.toList = '[' :: t ∧ readItems element t = .ok (items, rest) ∧
      skipBlanks rest = []) ↔
      ∃ texts, itemTexts? text = some texts ∧
        List.Forall₂ (fun t x => readAll element t = .ok x) texts items := by
  have hall := allRead_collectItem hr
  constructor
  · rintro ⟨t, rest, ht, hitems, hend⟩
    obtain ⟨texts, htexts, hread⟩ :=
      (elements_iff_readItemTexts hall).1 ((readItems_eq_ok_iff hr).1 hitems)
    obtain ⟨ys, hys, hitems⟩ := readItemTexts_collectItem.1 hread
    rw [List.append_nil, List.reverse_inj] at hys
    subst hys
    exact ⟨texts, itemTexts?_eq_some_iff.2 ⟨t, rest, ht, htexts, hend⟩, hitems⟩
  · rintro ⟨texts, hts, hitems⟩
    obtain ⟨t, rest, ht, htexts, hend⟩ := itemTexts?_eq_some_iff.1 hts
    have hread : ReadItemTexts (collectItem element) [] texts items.reverse :=
      readItemTexts_collectItem.2 ⟨items, (List.append_nil _).symm, hitems⟩
    have helements := (elements_iff_readItemTexts hall).2 ⟨texts, htexts, hread⟩
    exact ⟨t, rest, ht, (readItems_eq_ok_iff hr).2 helements, hend⟩

/-- The object of a tree is read off the texts of its members. -/
theorem readAll_object_iff {element : Reader Json} (hr : ReadsValue element) :
    (∃ t rest, skipBlanks text.toList = '{' :: t ∧ readObject element t = .ok (v, rest) ∧
      skipBlanks rest = []) ↔
      ∃ ms members, memberTexts? text = some ms ∧ v = .object members ∧
        List.Forall₂ (fun m w => m.1 = w.1 ∧ readAll element m.2 = .ok w.2) ms members := by
  have hall := allTaken_collectMember hr
  constructor
  · rintro ⟨t, rest, ht, hobject, hend⟩
    obtain ⟨members, hmembers, hfinish⟩ := (readTreeObject_eq_ok_iff hr).1 hobject
    obtain ⟨ms, htexts, hread⟩ := (members_iff_readMemberTexts hall).1 hmembers
    obtain ⟨ws, rfl, hws⟩ := readMemberTexts_collectMember.1 hread
    rw [List.append_nil, List.reverse_reverse] at hfinish
    exact ⟨ms, ws, memberTexts?_eq_some_iff.2 ⟨t, rest, ht, htexts, hend⟩,
      (Except.ok.inj hfinish).symm, hws⟩
  · rintro ⟨ms, members, hms, rfl, hws⟩
    obtain ⟨t, rest, ht, htexts, hend⟩ := memberTexts?_eq_some_iff.1 hms
    have hread : ReadMemberTexts (collectMember element) [] ms members.reverse :=
      readMemberTexts_collectMember.2 ⟨members, (List.append_nil _).symm, hws⟩
    have hmembers := (members_iff_readMemberTexts hall).2 ⟨ms, htexts, hread⟩
    exact ⟨t, rest, ht, (readTreeObject_eq_ok_iff hr).2
      ⟨members.reverse, hmembers, by rw [List.reverse_reverse]⟩, hend⟩

/-- **A tree is read off the texts of its parts.** -/
theorem readAll_readValueWith_iff {inner : Option (Reader Json)}
    (h : ∀ element ∈ inner, ReadsValue element) :
    readAll (readValueWith inner) text = .ok v ↔
      ScalarAlone text v ∨
        ∃ element ∈ inner,
          (∃ texts items, itemTexts? text = some texts ∧ v = .array items ∧
            List.Forall₂ (fun t w => readAll element t = .ok w) texts items) ∨
          ∃ ms members, memberTexts? text = some ms ∧ v = .object members ∧
            List.Forall₂ (fun m w => m.1 = w.1 ∧ readAll element m.2 = .ok w.2) ms members := by
  rw [readAll_eq_ok_iff]
  constructor
  · rintro ⟨rest, hv, hend⟩
    rcases readValueWith_eq_ok_iff.1 hv with hscalar |
      ⟨element, hinner, t, ⟨ht, items, rfl, hitems⟩ | ⟨ht, hobject⟩⟩
    · exact .inl ⟨rest, hscalar, hend⟩
    · obtain ⟨texts, hts, hall⟩ :=
        (readAll_items_iff (h element hinner)).1 ⟨t, rest, ht, hitems, hend⟩
      exact .inr ⟨element, hinner, .inl ⟨texts, items, hts, rfl, hall⟩⟩
    · have hmembers := (readAll_object_iff (h element hinner)).1 ⟨t, rest, ht, hobject, hend⟩
      exact .inr ⟨element, hinner, .inr hmembers⟩
  · rintro (⟨rest, hscalar, hend⟩ | ⟨element, hinner, ⟨texts, items, hts, rfl, hall⟩ | hmembers⟩)
    · exact ⟨rest, readValueWith_eq_ok_iff.2 (.inl hscalar), hend⟩
    · obtain ⟨t, rest, ht, hitems, hend⟩ :=
        (readAll_items_iff (h element hinner)).2 ⟨texts, hts, hall⟩
      exact ⟨rest, readValueWith_eq_ok_iff.2
        (.inr ⟨element, hinner, t, .inl ⟨ht, items, rfl, hitems⟩⟩), hend⟩
    · obtain ⟨t, rest, ht, hobject, hend⟩ := (readAll_object_iff (h element hinner)).2 hmembers
      exact ⟨rest, readValueWith_eq_ok_iff.2 (.inr ⟨element, hinner, t, .inr ⟨ht, hobject⟩⟩), hend⟩

theorem readAll_readTree_zero_iff :
    readAll (readTree 0) text = .ok v ↔ ScalarAlone text v := by
  rw [readTree, readAll_readValueWith_iff]
  · constructor
    · rintro (h | ⟨element, h, -⟩)
      · exact h
      · cases h
    · exact .inl
  · rintro element h
    cases h

theorem readAll_readTree_succ_iff {depth : Nat} :
    readAll (readTree (depth + 1)) text = .ok v ↔
      ScalarAlone text v ∨
        (∃ texts items, itemTexts? text = some texts ∧ v = .array items ∧
          List.Forall₂ (fun t w => readAll (readTree depth) t = .ok w) texts items) ∨
        ∃ ms members, memberTexts? text = some ms ∧ v = .object members ∧
          List.Forall₂ (fun m w => m.1 = w.1 ∧ readAll (readTree depth) m.2 = .ok w.2)
            ms members := by
  rw [readTree, readAll_readValueWith_iff]
  · simp
  · rintro element h
    obtain rfl := Option.some.inj h
    exact readsValue_readTree depth

/-- A scalar is neither a list nor an object. -/
theorem head_of_scalarText (h : ScalarText v s rest) (t : List Char) :
    s ≠ '[' :: t ∧ s ≠ '{' :: t := by
  cases h with
  | digits hc h =>
    have hlist := ne_of_isDigit hc (show isDigit '[' = false from rfl)
    have hobject := ne_of_isDigit hc (show isDigit '{' = false from rfl)
    simp [hlist, hobject]
  | _ => simp

theorem ScalarAlone.itemTexts?_eq (h : ScalarAlone text v) : itemTexts? text = none := by
  obtain ⟨rest, hscalar, -⟩ := h
  rw [Option.eq_none_iff_forall_ne_some]
  intro texts htexts
  obtain ⟨t, -, ht, -⟩ := itemTexts?_eq_some_iff.1 htexts
  exact (head_of_scalarText hscalar t).1 ht

theorem ScalarAlone.memberTexts?_eq (h : ScalarAlone text v) : memberTexts? text = none := by
  obtain ⟨rest, hscalar, -⟩ := h
  rw [Option.eq_none_iff_forall_ne_some]
  intro ms hms
  obtain ⟨t, -, ht, -⟩ := memberTexts?_eq_some_iff.1 hms
  exact (head_of_scalarText hscalar t).2 ht

/-- A tree that is neither a list nor an object is a scalar. -/
theorem scalarAlone_of_readTree {depth : Nat} (h : readAll (readTree depth) text = .ok v)
    (hlist : ∀ items, v ≠ .array items) (hobject : ∀ members, v ≠ .object members) :
    ScalarAlone text v := by
  cases depth with
  | zero => exact readAll_readTree_zero_iff.1 h
  | succ depth =>
    rcases readAll_readTree_succ_iff.1 h with hscalar | ⟨-, items, -, hv, -⟩ |
      ⟨-, members, -, hv, -⟩
    · exact hscalar
    · exact absurd hv (hlist items)
    · exact absurd hv (hobject members)

/-- A scalar is read as a tree of any depth. -/
theorem ScalarAlone.readTree_eq (h : ScalarAlone text v) (depth : Nat) :
    readAll (readTree depth) text = .ok v := by
  cases depth with
  | zero => exact readAll_readTree_zero_iff.2 h
  | succ depth => exact readAll_readTree_succ_iff.2 (.inl h)

/-! ## Texts that have a tree -/

/-- The text has a tree in which at most so many brackets are open at once. -/
def Readable (depth : Nat) (text : String) : Prop := ∃ v, readAll (readTree depth) text = .ok v

theorem exists_forall₂_iff {R : α → β → Prop} {xs : List α} :
    (∃ ys, List.Forall₂ R xs ys) ↔ ∀ x ∈ xs, ∃ y, R x y := by
  induction xs with
  | nil => simp
  | cons x xs ih =>
    rw [List.forall_mem_cons, ← ih]
    constructor
    · rintro ⟨_, h⟩
      cases h with
      | cons hx hxs => exact ⟨⟨_, hx⟩, _, hxs⟩
    · rintro ⟨⟨y, hx⟩, ys, hxs⟩
      exact ⟨y :: ys, .cons hx hxs⟩

/-- A list has a tree if its elements have one. -/
theorem readable_list_iff {depth : Nat} {texts : List String} (h : itemTexts? text = some texts) :
    Readable (depth + 1) text ↔ ∀ t ∈ texts, Readable depth t := by
  unfold Readable
  rw [← exists_forall₂_iff]
  constructor
  · rintro ⟨v, hv⟩
    rcases readAll_readTree_succ_iff.1 hv with hscalar | ⟨texts', items, hts, -, hall⟩ |
      ⟨ms, -, hms, -, -⟩
    · rw [hscalar.itemTexts?_eq] at h
      cases h
    · obtain rfl := Option.some.inj (h.symm.trans hts)
      exact ⟨items, hall⟩
    · rw [memberTexts?_of_itemTexts? h] at hms
      cases hms
  · rintro ⟨items, hall⟩
    exact ⟨.array items, readAll_readTree_succ_iff.2 (.inr (.inl ⟨texts, items, h, rfl, hall⟩))⟩

/-- An object has a tree if the values of its members have one. -/
theorem readable_object_iff {depth : Nat} {ms : List (String × String)}
    (h : memberTexts? text = some ms) :
    Readable (depth + 1) text ↔ ∀ m ∈ ms, Readable depth m.2 := by
  constructor
  · rintro ⟨v, hv⟩
    rcases readAll_readTree_succ_iff.1 hv with hscalar | ⟨texts, -, hts, -, -⟩ |
      ⟨ms', members, hms, -, hall⟩
    · rw [hscalar.memberTexts?_eq] at h
      cases h
    · rw [memberTexts?_of_itemTexts? hts] at h
      cases h
    · obtain rfl := Option.some.inj (h.symm.trans hms)
      intro m hm
      obtain ⟨w, -, hw⟩ := exists_forall₂_iff.1 ⟨members, hall⟩ m hm
      exact ⟨w.2, hw⟩
  · intro hall
    have hmembers : ∃ members : List (String × Json),
        List.Forall₂ (fun m w => m.1 = w.1 ∧ readAll (readTree depth) m.2 = .ok w.2)
          ms members := by
      rw [exists_forall₂_iff]
      intro m hm
      obtain ⟨v, hv⟩ := hall m hm
      exact ⟨(m.1, v), rfl, hv⟩
    obtain ⟨members, hmembers⟩ := hmembers
    exact ⟨.object members,
      readAll_readTree_succ_iff.2 (.inr (.inr ⟨ms, members, h, rfl, hmembers⟩))⟩

/-! ## Members in another order -/

/-- Members that stand for given ones, in any order, and others between them. -/
def Reordered (same : String × String → String × String → Prop) (other : String × String → Prop)
    (ms ms' : List (String × String)) : Prop :=
  ∃ kept added, ms'.Perm (kept ++ added) ∧ List.Forall₂ same ms kept ∧ ∀ m ∈ added, other m

variable {slot : σ → String → Slot σ} {st st' : σ} {ms ms' : List (String × String)}

theorem readMemberTexts_append {ns : List (String × String)} :
    ReadMemberTexts slot st (ms ++ ns) st' ↔
      ∃ st₁, ReadMemberTexts slot st ms st₁ ∧ ReadMemberTexts slot st₁ ns st' := by
  induction ms generalizing st with
  | nil => simp [ReadMemberTexts]
  | cons m ms ih =>
    simp only [List.cons_append, ReadMemberTexts, ih]
    constructor
    · rintro ⟨st₁, hm, st₂, hms, hns⟩
      exact ⟨st₂, ⟨st₁, hm, hms⟩, hns⟩
    · rintro ⟨st₂, ⟨st₁, hm, hms⟩, hns⟩
      exact ⟨st₁, hm, st₂, hms, hns⟩

/-- Where two members can be read in either order, all of them can be read in any order. -/
theorem ReadMemberTexts.perm
    (hcomm : ∀ st st₁ st₂ a b, ReadMemberText slot st a st₁ → ReadMemberText slot st₁ b st₂ →
      ∃ st₁', ReadMemberText slot st b st₁' ∧ ReadMemberText slot st₁' a st₂)
    (hperm : ms.Perm ms') (h : ReadMemberTexts slot st ms st') :
    ReadMemberTexts slot st ms' st' := by
  induction hperm generalizing st with
  | nil => exact h
  | cons m _ ih =>
    obtain ⟨st₁, hm, hms⟩ := h
    exact ⟨st₁, hm, ih hms⟩
  | swap a b ms =>
    obtain ⟨st₁, hb, st₂, ha, hms⟩ := h
    obtain ⟨st₁', ha', hb'⟩ := hcomm st st₁ st₂ b a hb ha
    exact ⟨st₁', ha', st₂, hb', hms⟩
  | trans _ _ ih ih' => exact ih' (ih h)

/-- Members that leave the state as it is may stand anywhere. -/
theorem ReadMemberTexts.reordered {other : String × String → Prop}
    (h : ReadMemberTexts slot st ms st')
    (hcomm : ∀ st st₁ st₂ a b, ReadMemberText slot st a st₁ → ReadMemberText slot st₁ b st₂ →
      ∃ st₁', ReadMemberText slot st b st₁' ∧ ReadMemberText slot st₁' a st₂)
    (hreordered : Reordered Eq other ms ms')
    (hother : ∀ st m, other m → ReadMemberText slot st m st) :
    ReadMemberTexts slot st ms' st' := by
  obtain ⟨kept, added, hperm, hkept, hadded⟩ := hreordered
  rw [List.forall₂_eq_eq_eq] at hkept
  subst hkept
  -- the added members are read last, where they change nothing, and are then moved
  have hpass : ReadMemberTexts slot st' added st' := by
    clear hperm
    induction added with
    | nil => rfl
    | cons m added ih =>
      rw [List.forall_mem_cons] at hadded
      exact ⟨st', hother st' m hadded.1, ih hadded.2⟩
  exact (readMemberTexts_append.2 ⟨st', h, hpass⟩).perm hcomm hperm.symm

end DbInventory.Json
