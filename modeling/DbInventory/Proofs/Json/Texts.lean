/-
# DbInventory.Proofs.Json.Texts -- lists and objects cut into texts

Behind a value stands a blank, a comma or a closing bracket, and no number goes on with those.
So every element of a list and every value of an object can be cut out and read alone
(`ReadsValue.cut`). `itemTexts?` and `memberTexts?` do the cutting, and reading a list or an
object by any loop is reading the texts of its parts, one after the other
(`elements_iff_readItemTexts`, `members_iff_readMemberTexts`). Two readers of one text are
compared part by part from here on.
-/

import DbInventory.Proofs.Json.Values
import Mathlib.Data.List.Forall2

namespace DbInventory.Json

variable {α β σ : Type} {s u m rest : List Char} {text : String} {r : Reader α} {x : α}

/-! ## Whole texts -/

theorem atEnd_eq_ok_iff : atEnd s = .ok () ↔ skipBlanks s = [] := by
  unfold atEnd
  cases skipBlanks s with
  | nil => simp
  | cons c t => simp

theorem readAll_eq_ok_iff :
    readAll r text = .ok x ↔ ∃ rest, r text.toList = .ok (x, rest) ∧ skipBlanks rest = [] := by
  unfold readAll
  rw [bind_eq_ok]
  constructor
  · rintro ⟨⟨y, rest⟩, hy, h⟩
    obtain ⟨⟨⟩, hend, hy'⟩ := bind_eq_ok.1 h
    cases hy'
    exact ⟨rest, hy, atEnd_eq_ok_iff.1 hend⟩
  · rintro ⟨rest, hx, hend⟩
    exact ⟨(x, rest), hx, bind_eq_ok.2 ⟨(), atEnd_eq_ok_iff.2 hend, rfl⟩⟩

/-- A reader that only makes something of what another one has read. -/
theorem readAll_map_iff {f : α → β} {y : β} :
    readAll (fun s => r s >>= fun p => .ok (f p.1, p.2)) text = .ok y ↔
      ∃ x, readAll r text = .ok x ∧ y = f x := by
  simp only [readAll_eq_ok_iff, bind_fst_eq_ok]
  constructor
  · rintro ⟨rest, ⟨x, hx, rfl⟩, hend⟩
    exact ⟨x, ⟨rest, hx, hend⟩, rfl⟩
  · rintro ⟨x, ⟨rest, hx, hend⟩, rfl⟩
    exact ⟨rest, ⟨x, hx, rfl⟩, hend⟩

/-! ## Any value -/

/-- Any value as it stands in the text, without the blanks in front of it. -/
def rawValue : Reader String := fun s => do
  let rest ← skipValue s
  let t := skipBlanks s
  .ok (.ofList (t.take (t.length - rest.length)), rest)

theorem skipValue_skipBlanks : skipValue (skipBlanks s) = .ok rest ↔ skipValue s = .ok rest := by
  rw [skipValue_eq_ok_iff, skipValue_eq_ok_iff]
  constructor
  · intro h
    exact h.of_skipBlanks
  · intro h
    cases h with
    | done h => exact .done (by rwa [skipStep_skipBlanks])
    | more h hrest => exact .more (by rwa [skipStep_skipBlanks]) hrest

theorem rawValue_eq_ok_iff :
    rawValue s = .ok (text, rest) ↔
      skipValue s = .ok rest ∧ skipBlanks s = text.toList ++ rest := by
  unfold rawValue
  rw [bind_eq_ok]
  constructor
  · rintro ⟨m, hskip, h⟩
    obtain ⟨t, -, hs, -⟩ := local_skipValue _ _ (skipValue_skipBlanks.2 hskip)
    cases h
    refine ⟨hskip, ?_⟩
    rw [hs]
    simp
  · rintro ⟨hskip, hs⟩
    refine ⟨rest, hskip, ?_⟩
    rw [hs]
    simp

/-- A value can be cut out. -/
theorem exists_rawValue (h : skipValue s = .ok rest) : ∃ text, rawValue s = .ok (text, rest) := by
  obtain ⟨t, -, hs, -⟩ := local_skipValue _ _ (skipValue_skipBlanks.2 h)
  refine ⟨.ofList t, rawValue_eq_ok_iff.2 ⟨h, ?_⟩⟩
  rw [hs, String.toList_ofList]

theorem local_rawValue (text : String) : Local fun s rest => rawValue s = .ok (text, rest) := by
  have hlocal : Local fun s rest => skipValue s = .ok rest ∧ s = text.toList ++ rest := by
    rintro s rest ⟨hskip, htext⟩
    obtain ⟨t, ht, rfl, hagain⟩ := local_skipValue s rest hskip
    obtain rfl : t = text.toList := List.append_cancel_right htext
    exact ⟨text.toList, ht, rfl, fun rest' hrest' => ⟨hagain rest' hrest', rfl⟩⟩
  refine hlocal.blanks.congr fun s rest => ?_
  rw [rawValue_eq_ok_iff, skipValue_skipBlanks]

theorem readsValue_rawValue : ReadsValue rawValue := by
  refine ⟨local_rawValue, ?_, ?_⟩
  · intro s m text
    rw [rawValue_eq_ok_iff, rawValue_eq_ok_iff, skipValue_skipBlanks, skipBlanks_skipBlanks]
  · intro s m text h frames rest hrest
    exact skips_of_skipValue (rawValue_eq_ok_iff.1 h).1 hrest

/-- A value that has been cut out is passed over to its end. -/
theorem skipValue_text (h : rawValue s = .ok (text, rest)) : skipValue text.toList = .ok [] := by
  obtain ⟨hskip, htext⟩ := rawValue_eq_ok_iff.1 h
  obtain ⟨t, -, hs, hagain⟩ := local_skipValue _ _ (skipValue_skipBlanks.2 hskip)
  obtain rfl : text.toList = t := List.append_cancel_right (htext.symm.trans hs)
  have hagain := hagain [] (.inr stops_nil)
  rwa [List.append_nil] at hagain

/-- **A value can be cut out of its text and be read alone**, if no number goes on behind it. -/
theorem ReadsValue.cut (hr : ReadsValue r) (hraw : rawValue s = .ok (text, rest))
    (hrest : Stops rest) : r s = .ok (x, rest) ↔ readAll r text = .ok x := by
  have htext := (rawValue_eq_ok_iff.1 hraw).2
  constructor
  · intro h
    obtain ⟨t, -, hs, hagain⟩ := hr.isLocal x _ rest (hr.blanks.2 h)
    obtain rfl : text.toList = t := List.append_cancel_right (htext.symm.trans hs)
    have hagain := hagain [] (.inr stops_nil)
    rw [List.append_nil] at hagain
    exact readAll_eq_ok_iff.2 ⟨[], hagain, rfl⟩
  · intro h
    -- what is read alone is passed over, and the text alone is passed over to its end
    obtain ⟨end', hx, -⟩ := readAll_eq_ok_iff.1 h
    have hskip := hr.skipValue_eq hx
    rw [skipValue_text hraw] at hskip
    obtain rfl := Except.ok.inj hskip
    obtain ⟨t, -, hs, hagain⟩ := hr.isLocal x _ _ hx
    obtain rfl : text.toList = t := hs.trans (List.append_nil t)
    apply hr.blanks.1
    rw [htext]
    exact hagain rest (.inr hrest)

/-! ## Behind a value -/

theorem not_continuesNumber_of_isBlank {c : Char} (h : isBlank c = true) :
    continuesNumber c = false := by
  unfold isBlank at h
  simp only [Bool.or_eq_true, beq_iff_eq] at h
  rcases h with ((rfl | rfl) | rfl) | rfl <;> rfl

theorem stops_of_skipBlanks {c : Char} {t : List Char} (hs : skipBlanks s = c :: t)
    (hc : continuesNumber c = false) : Stops s := by
  cases s with
  | nil => exact stops_nil
  | cons d s =>
    by_cases hd : isBlank d = true
    · exact stops_cons (not_continuesNumber_of_isBlank hd)
    · rw [skipBlanks_cons (Bool.not_eq_true _ ▸ hd)] at hs
      obtain rfl : d = c := (List.cons.inj hs).1
      exact stops_cons hc

/-! ## Elements, one after the other -/

/-- Reads the texts of elements, one after the other. -/
def ReadItemTexts (element : σ → Option (Reader σ)) : σ → List String → σ → Prop
  | st, [], st' => st = st'
  | st, text :: texts, st' =>
    ∃ r st₁, element st = some r ∧ readAll r text = .ok st₁ ∧ ReadItemTexts element st₁ texts st'

variable {element : σ → Option (Reader σ)} {first : Bool} {st st' : σ}
  {texts acc acc' : List String}

theorem Elements.stops (h : Elements element false st s st' rest) : Stops s := by
  cases h with
  | done h => exact stops_of_skipBlanks h rfl
  | item hr hu hx hrest =>
    obtain ⟨-, t, ht, -⟩ := hu
    exact stops_of_skipBlanks ht rfl

theorem exists_itemTexts (hall : AllRead element) (h : Elements element first st s st' rest)
    (acc : List String) :
    ∃ texts, Elements (collectItem rawValue) first acc s (texts.reverse ++ acc) rest ∧
      ReadItemTexts element st texts st' := by
  induction h generalizing acc with
  | done h => exact ⟨[], .done h, rfl⟩
  | @item first st st₁ st' s u m rest r hr hu hx hrest ih =>
    -- the element is cut out where it stands: behind it is a comma or a bracket
    obtain ⟨text, htext⟩ := exists_rawValue ((hall st r hr).skipValue_eq hx)
    obtain ⟨texts, htexts, hread⟩ := ih (text :: acc)
    refine ⟨text :: texts, ?_, r, st₁, hr, ((hall st r hr).cut htext hrest.stops).1 hx, hread⟩
    rw [List.reverse_cons, List.append_assoc]
    exact .item rfl hu (readNext_eq_ok_iff.2 ⟨text, htext, rfl⟩) htexts

theorem elements_of_readItemTexts (hall : AllRead element)
    (h : Elements (collectItem rawValue) first acc s acc' rest) :
    ∃ texts, acc' = texts.reverse ++ acc ∧
      ∀ st st', ReadItemTexts element st texts st' → Elements element first st s st' rest := by
  induction h with
  | done h =>
    refine ⟨[], rfl, ?_⟩
    rintro st st' rfl
    exact .done h
  | @item first acc acc₁ acc' s u m rest r' hr' hu hx hrest ih =>
    obtain rfl := Option.some.inj hr'
    obtain ⟨text, htext, rfl⟩ := readNext_eq_ok_iff.1 hx
    obtain ⟨texts, hacc, hagain⟩ := ih
    refine ⟨text :: texts, by rw [hacc, List.reverse_cons, List.append_assoc]; rfl, ?_⟩
    rintro st st' ⟨r, st₁, hr, hx, hread⟩
    exact .item hr hu (((hall st r hr).cut htext hrest.stops).2 hx) (hagain st₁ st' hread)

/-- **The rounds over elements read the texts of the elements**, one after the other. -/
theorem elements_iff_readItemTexts (hall : AllRead element) :
    Elements element first st s st' rest ↔
      ∃ texts, Elements (collectItem rawValue) first [] s texts.reverse rest ∧
        ReadItemTexts element st texts st' := by
  constructor
  · intro h
    obtain ⟨texts, htexts, hread⟩ := exists_itemTexts hall h []
    rw [List.append_nil] at htexts
    exact ⟨texts, htexts, hread⟩
  · rintro ⟨texts, htexts, hread⟩
    obtain ⟨texts', hsame, hagain⟩ := elements_of_readItemTexts hall htexts
    rw [List.append_nil, List.reverse_inj] at hsame
    exact hagain st st' (hsame ▸ hread)

/-- Elements that are all read alike. -/
theorem readItemTexts_collectItem {xs xs' : List α} :
    ReadItemTexts (collectItem r) xs texts xs' ↔
      ∃ ys, xs' = ys.reverse ++ xs ∧
        List.Forall₂ (fun text y => readAll r text = .ok y) texts ys := by
  have hnext : ∀ {xs xs₁ : List α} {text : String},
      readAll (readNext r xs) text = .ok xs₁ ↔ ∃ y, readAll r text = .ok y ∧ xs₁ = y :: xs := by
    intro xs xs₁ text
    exact readAll_map_iff (f := fun y => y :: xs)
  induction texts generalizing xs with
  | nil =>
    constructor
    · rintro rfl
      exact ⟨[], rfl, .nil⟩
    · rintro ⟨ys, rfl, hys⟩
      cases hys
      rfl
  | cons text texts ih =>
    constructor
    · rintro ⟨r', xs₁, hr', hread, hrest⟩
      obtain rfl := Option.some.inj hr'
      obtain ⟨y, hy, rfl⟩ := hnext.1 hread
      obtain ⟨ys, rfl, hys⟩ := ih.1 hrest
      exact ⟨y :: ys, by rw [List.reverse_cons, List.append_assoc]; rfl, .cons hy hys⟩
    · rintro ⟨ys, rfl, hys⟩
      cases hys with
      | @cons _ y _ ys hy hys =>
        refine ⟨_, y :: xs, rfl, hnext.2 ⟨y, hy, rfl⟩, ih.2 ⟨ys, ?_, hys⟩⟩
        rw [List.reverse_cons, List.append_assoc]
        rfl

/-! ## Members, one after the other -/

/-- Reads the text of a member, or passes over it. -/
def ReadMemberText (slot : σ → String → Slot σ) (st : σ) (m : String × String) (st' : σ) : Prop :=
  (slot st m.1 = .ignore ∧ st = st') ∨
    ∃ value, slot st m.1 = .take value ∧ readAll value m.2 = .ok st'

/-- Reads the texts of members, one after the other. -/
def ReadMemberTexts (slot : σ → String → Slot σ) : σ → List (String × String) → σ → Prop
  | st, [], st' => st = st'
  | st, m :: ms, st' => ∃ st₁, ReadMemberText slot st m st₁ ∧ ReadMemberTexts slot st₁ ms st'

/-- Collects the texts of members in reverse order. -/
def collectText (texts : List (String × String)) (name : String) :
    Slot (List (String × String)) :=
  .take fun s => rawValue s >>= fun p => .ok ((name, p.1) :: texts, p.2)

theorem collectText_eq_ok_iff {name : String} {ms ms' : List (String × String)}
    {value : Reader (List (String × String))} (hslot : collectText ms name = .take value) :
    value s = .ok (ms', rest) ↔
      ∃ text, rawValue s = .ok (text, rest) ∧ ms' = (name, text) :: ms := by
  obtain rfl := Slot.take.inj hslot
  exact bind_fst_eq_ok (g := fun text => (name, text) :: ms)

theorem allTaken_collectText : AllTaken collectText := by
  intro ms name value hslot
  obtain rfl := Slot.take.inj hslot
  exact readsValue_rawValue.map fun text => (name, text) :: ms

variable {slot : σ → String → Slot σ} {ms ms' : List (String × String)}

theorem Members.stops (h : Members slot false st s st' rest) : Stops s := by
  have hkey : ∀ {name v}, Key false name s v → Stops s := by
    rintro name v ⟨t, ⟨w, hw, -⟩, -⟩
    exact stops_of_skipBlanks hw rfl
  cases h with
  | done h => exact stops_of_skipBlanks h rfl
  | ignored h => exact hkey h
  | taken h => exact hkey h

theorem exists_memberTexts (hall : AllTaken slot) (h : Members slot first st s st' rest)
    (ms : List (String × String)) :
    ∃ texts, Members collectText first ms s (texts.reverse ++ ms) rest ∧
      ReadMemberTexts slot st texts st' := by
  induction h generalizing ms with
  | done h => exact ⟨[], .done h, rfl⟩
  | @ignored first st st' name s v m rest hkey hslot hskip _ ih =>
    obtain ⟨text, htext⟩ := exists_rawValue hskip
    obtain ⟨texts, htexts, hread⟩ := ih ((name, text) :: ms)
    refine ⟨(name, text) :: texts, ?_, st, .inl ⟨hslot, rfl⟩, hread⟩
    rw [List.reverse_cons, List.append_assoc]
    exact .taken hkey rfl ((collectText_eq_ok_iff rfl).2 ⟨text, htext, rfl⟩) htexts
  | @taken first st st₁ st' name s v m rest value hkey hslot hvalue hrest ih =>
    have hr := hall st name value hslot
    obtain ⟨text, htext⟩ := exists_rawValue (hr.skipValue_eq hvalue)
    obtain ⟨texts, htexts, hread⟩ := ih ((name, text) :: ms)
    refine ⟨(name, text) :: texts, ?_,
      st₁, .inr ⟨value, hslot, (hr.cut htext hrest.stops).1 hvalue⟩, hread⟩
    rw [List.reverse_cons, List.append_assoc]
    exact .taken hkey rfl ((collectText_eq_ok_iff rfl).2 ⟨text, htext, rfl⟩) htexts

theorem members_of_readMemberTexts (hall : AllTaken slot)
    (h : Members collectText first ms s ms' rest) :
    ∃ texts, ms' = texts.reverse ++ ms ∧
      ∀ st st', ReadMemberTexts slot st texts st' → Members slot first st s st' rest := by
  induction h with
  | done h =>
    refine ⟨[], rfl, ?_⟩
    rintro st st' rfl
    exact .done h
  | ignored hkey hslot => cases hslot
  | @taken first ms ms₁ ms' name s v m rest value' hkey hslot' hvalue hrest ih =>
    obtain ⟨text, htext, rfl⟩ := (collectText_eq_ok_iff hslot').1 hvalue
    obtain ⟨texts, hms, hagain⟩ := ih
    refine ⟨(name, text) :: texts, by rw [hms, List.reverse_cons, List.append_assoc]; rfl, ?_⟩
    -- a text is passed over or read as the slot of its name says, whichever it was cut out for
    rintro st st' ⟨st₁, ⟨hslot, rfl⟩ | ⟨value, hslot, hx⟩, hread⟩
    · exact .ignored hkey hslot (rawValue_eq_ok_iff.1 htext).1 (hagain st st' hread)
    · have hr := hall st name value hslot
      exact .taken hkey hslot ((hr.cut htext hrest.stops).2 hx) (hagain st₁ st' hread)

/-- **The rounds over members read the texts of the members**, one after the other. -/
theorem members_iff_readMemberTexts (hall : AllTaken slot) :
    Members slot first st s st' rest ↔
      ∃ texts, Members collectText first [] s texts.reverse rest ∧
        ReadMemberTexts slot st texts st' := by
  constructor
  · intro h
    obtain ⟨texts, htexts, hread⟩ := exists_memberTexts hall h []
    rw [List.append_nil] at htexts
    exact ⟨texts, htexts, hread⟩
  · rintro ⟨texts, htexts, hread⟩
    obtain ⟨texts', hsame, hagain⟩ := members_of_readMemberTexts hall htexts
    rw [List.append_nil, List.reverse_inj] at hsame
    exact hagain st st' (hsame ▸ hread)

/-- The members of a tree. -/
theorem readMemberTexts_collectMember {element : Reader Json} {vs vs' : List (String × Json)} :
    ReadMemberTexts (collectMember element) vs ms vs' ↔
      ∃ ws, vs' = ws.reverse ++ vs ∧
        List.Forall₂ (fun m w => m.1 = w.1 ∧ readAll element m.2 = .ok w.2) ms ws := by
  have hnext : ∀ {vs vs₁ : List (String × Json)} {name text : String} {value},
      collectMember element vs name = .take value →
      (readAll value text = .ok vs₁ ↔ ∃ w, readAll element text = .ok w ∧
        vs₁ = (name, w) :: vs) := by
    intro vs vs₁ name text value hslot
    obtain rfl := Slot.take.inj hslot
    exact readAll_map_iff (f := fun w => (name, w) :: vs)
  induction ms generalizing vs with
  | nil =>
    constructor
    · rintro rfl
      exact ⟨[], rfl, .nil⟩
    · rintro ⟨ws, rfl, hws⟩
      cases hws
      rfl
  | cons m ms ih =>
    obtain ⟨name, text⟩ := m
    constructor
    · rintro ⟨vs₁, ⟨hslot, -⟩ | ⟨value, hslot, hread⟩, hrest⟩
      · cases hslot
      · obtain ⟨w, hw, rfl⟩ := (hnext hslot).1 hread
        obtain ⟨ws, rfl, hws⟩ := ih.1 hrest
        exact ⟨(name, w) :: ws, by rw [List.reverse_cons, List.append_assoc]; rfl,
          .cons ⟨rfl, hw⟩ hws⟩
    · rintro ⟨ws, rfl, hws⟩
      cases hws with
      | @cons _ w _ ws hw hws =>
        obtain ⟨name', v⟩ := w
        obtain ⟨rfl, hv⟩ : name = name' ∧ readAll element text = .ok v := hw
        refine ⟨(name, v) :: vs, .inr ⟨_, rfl, (hnext rfl).2 ⟨v, hv, rfl⟩⟩, ih.2 ⟨ws, ?_, hws⟩⟩
        rw [List.reverse_cons, List.append_assoc]
        rfl

/-! ## Cutting -/

/-- The texts of the elements of a list. -/
def readTexts : Reader (List String) := fun s =>
  match skipBlanks s with
  | [] => .error (.here .eofInValue [])
  | c :: t => if c = '[' then readItems rawValue t else .error (mismatch "a list" (c :: t))

/-- The names of an object, with the texts of their values. -/
def textsForm : RecordForm (List (String × String)) (List (String × String)) where
  title := "an object"
  start := []
  slot := collectText
  elements := []
  finish texts := .ok texts.reverse

/-- The elements of a list, each as its text. -/
def itemTexts? (text : String) : Option (List String) := (readAll readTexts text).toOption

/-- The members of an object, each value as its text. -/
def memberTexts? (text : String) : Option (List (String × String)) :=
  (readAll textsForm.readObjectOnly text).toOption

theorem itemTexts?_eq_some_iff :
    itemTexts? text = some texts ↔
      ∃ t rest, skipBlanks text.toList = '[' :: t ∧
        Elements (collectItem rawValue) true [] t texts.reverse rest ∧ skipBlanks rest = [] := by
  have hread : ∀ rest, readTexts text.toList = .ok (texts, rest) ↔
      ∃ t, skipBlanks text.toList = '[' :: t ∧ readItems rawValue t = .ok (texts, rest) := by
    intro rest
    unfold readTexts
    cases skipBlanks text.toList with
    | nil => simp
    | cons c t => by_cases hc : c = '[' <;> simp [hc]
  rw [itemTexts?, toOption_eq_some_iff, readAll_eq_ok_iff]
  constructor
  · rintro ⟨rest, h, hend⟩
    obtain ⟨t, ht, hitems⟩ := (hread rest).1 h
    exact ⟨t, rest, ht, (readItems_eq_ok_iff readsValue_rawValue).1 hitems, hend⟩
  · rintro ⟨t, rest, ht, hitems, hend⟩
    exact ⟨rest, (hread rest).2 ⟨t, ht, (readItems_eq_ok_iff readsValue_rawValue).2 hitems⟩, hend⟩

theorem memberTexts?_eq_some_iff :
    memberTexts? text = some ms ↔
      ∃ t rest, skipBlanks text.toList = '{' :: t ∧
        Members collectText true [] t ms.reverse rest ∧ skipBlanks rest = [] := by
  rw [memberTexts?, toOption_eq_some_iff, readAll_eq_ok_iff]
  constructor
  · rintro ⟨rest, h, hend⟩
    obtain ⟨t, ht, hobject⟩ := readObjectOnly_eq_ok_iff.1 h
    obtain ⟨ms', hmembers, hfinish⟩ := (readObject_eq_ok_iff allTaken_collectText).1 hobject
    obtain rfl : ms'.reverse = ms := Except.ok.inj hfinish
    exact ⟨t, rest, ht, by rwa [List.reverse_reverse], hend⟩
  · rintro ⟨t, rest, ht, hmembers, hend⟩
    refine ⟨rest, readObjectOnly_eq_ok_iff.2 ⟨t, ht, ?_⟩, hend⟩
    exact (readObject_eq_ok_iff allTaken_collectText).2
      ⟨ms.reverse, hmembers, congrArg Except.ok (List.reverse_reverse ms)⟩

/-- No text is both a list and an object. -/
theorem memberTexts?_of_itemTexts? (h : itemTexts? text = some texts) :
    memberTexts? text = none := by
  obtain ⟨t, -, ht, -⟩ := itemTexts?_eq_some_iff.1 h
  rw [Option.eq_none_iff_forall_ne_some]
  intro ms hms
  obtain ⟨t', -, ht', -⟩ := memberTexts?_eq_some_iff.1 hms
  cases ht.symm.trans ht'

theorem itemTexts?_of_memberTexts? (h : memberTexts? text = some ms) : itemTexts? text = none := by
  rw [Option.eq_none_iff_forall_ne_some]
  intro texts htexts
  rw [memberTexts?_of_itemTexts? htexts] at h
  cases h

end DbInventory.Json
