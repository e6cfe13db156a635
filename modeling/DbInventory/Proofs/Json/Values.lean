/-
# DbInventory.Proofs.Json.Values -- all readers of values

Scalars, optional values, records and trees are read by readers of values. A scalar field is
read as a tree and looked at afterwards, as far as success goes (`scalar_read_iff`): this is
where reading a record off a text and decoding it from a tree meet.
-/

import DbInventory.Proofs.Json.Members

namespace DbInventory.Json

variable {α σ : Type} {s t m rest : List Char} {v : Json}

/-! ## Scalars -/

/-- A scalar at the front of a text. -/
inductive ScalarText : Json → List Char → List Char → Prop
  | null {rest : List Char} : ScalarText .null ('n' :: 'u' :: 'l' :: 'l' :: rest) rest
  | true {rest : List Char} : ScalarText (.bool true) ('t' :: 'r' :: 'u' :: 'e' :: rest) rest
  | false {rest : List Char} :
    ScalarText (.bool false) ('f' :: 'a' :: 'l' :: 's' :: 'e' :: rest) rest
  | string {t rest : List Char} {x : String} (h : readString t = .ok (x, rest)) :
    ScalarText (.string x) ('"' :: t) rest
  | negative {t rest : List Char} {n : Number} (h : readNumber true t = .ok (n, rest)) :
    ScalarText (.number n) ('-' :: t) rest
  | digits {c : Char} {t rest : List Char} {n : Number} (hc : isDigit c = true)
    (h : readNumber false (c :: t) = .ok (n, rest)) : ScalarText (.number n) (c :: t) rest

theorem ne_of_isDigit {c d : Char} (hc : isDigit c = true) (hd : isDigit d = false) : c ≠ d := by
  rintro rfl
  rw [hc] at hd
  cases hd

/-- No other scalar starts with a digit. -/
theorem not_starts_of_isDigit {c : Char} (hc : isDigit c = true) :
    c ≠ 'n' ∧ c ≠ 't' ∧ c ≠ 'f' ∧ c ≠ '"' ∧ c ≠ '-' :=
  ⟨ne_of_isDigit hc rfl, ne_of_isDigit hc rfl, ne_of_isDigit hc rfl, ne_of_isDigit hc rfl,
    ne_of_isDigit hc rfl⟩

/-- The scalar that starts with a character. -/
def readScalar (c : Char) (t : List Char) : Except Fault (Json × List Char) :=
  if c = 'n' then readLetters ['u', 'l', 'l'] t >>= fun s => .ok (.null, s)
  else if c = 't' then readLetters ['r', 'u', 'e'] t >>= fun s => .ok (.bool true, s)
  else if c = 'f' then readLetters ['a', 'l', 's', 'e'] t >>= fun s => .ok (.bool false, s)
  else if c = '"' then readString t >>= fun p => .ok (.string p.1, p.2)
  else if c = '-' then readNumber true t >>= fun p => .ok (.number p.1, p.2)
  else if isDigit c then readNumber false (c :: t) >>= fun p => .ok (.number p.1, p.2)
  else .error (.next .expectedValue (c :: t))

theorem readScalar_eq_ok_iff {c : Char} :
    readScalar c t = .ok (v, rest) ↔ ScalarText v (c :: t) rest := by
  constructor
  · intro h
    unfold readScalar at h
    -- each branch that succeeds is one of the scalars
    by_cases hn : c = 'n'
    · rw [if_pos hn, bind_eq_ok] at h
      obtain ⟨m, hletters, h⟩ := h
      cases h
      rw [hn, readLetters_eq_ok_iff.1 hletters]
      exact .null
    by_cases ht : c = 't'
    · rw [if_neg hn, if_pos ht, bind_eq_ok] at h
      obtain ⟨m, hletters, h⟩ := h
      cases h
      rw [ht, readLetters_eq_ok_iff.1 hletters]
      exact .true
    by_cases hf : c = 'f'
    · rw [if_neg hn, if_neg ht, if_pos hf, bind_eq_ok] at h
      obtain ⟨m, hletters, h⟩ := h
      cases h
      rw [hf, readLetters_eq_ok_iff.1 hletters]
      exact .false
    by_cases hquote : c = '"'
    · rw [if_neg hn, if_neg ht, if_neg hf, if_pos hquote, bind_fst_eq_ok] at h
      obtain ⟨x, hstring, rfl⟩ := h
      rw [hquote]
      exact .string hstring
    by_cases hminus : c = '-'
    · rw [if_neg hn, if_neg ht, if_neg hf, if_neg hquote, if_pos hminus, bind_fst_eq_ok] at h
      obtain ⟨n, hnumber, rfl⟩ := h
      rw [hminus]
      exact .negative hnumber
    rw [if_neg hn, if_neg ht, if_neg hf, if_neg hquote, if_neg hminus] at h
    by_cases hdigit : isDigit c = true
    · rw [if_pos hdigit, bind_fst_eq_ok] at h
      obtain ⟨n, hnumber, rfl⟩ := h
      exact .digits hdigit hnumber
    · rw [if_neg hdigit] at h
      cases h
  · intro h
    unfold readScalar
    cases h with
    | null => simp [readLetters, bind, Except.bind]
    | true => simp [readLetters, bind, Except.bind]
    | false => simp [readLetters, bind, Except.bind]
    | string h => simp [h, bind, Except.bind]
    | negative h => simp [h, bind, Except.bind]
    | digits hc h =>
      obtain ⟨hn, ht, hf, hquote, hminus⟩ := not_starts_of_isDigit hc
      rw [if_neg hn, if_neg ht, if_neg hf, if_neg hquote, if_neg hminus, if_pos hc, h]
      rfl

theorem readValueWith_cons {inner : Option (Reader Json)} {c : Char}
    (hs : skipBlanks s = c :: t) (hlist : c ≠ '[') (hobject : c ≠ '{') :
    readValueWith inner s = readScalar c t := by
  simp only [readValueWith, hs, readScalar, if_neg hlist, if_neg hobject]

/-- A value is a scalar, a list or an object. -/
theorem readValueWith_eq_ok_iff {inner : Option (Reader Json)} :
    readValueWith inner s = .ok (v, rest) ↔
      ScalarText v (skipBlanks s) rest ∨
        ∃ element ∈ inner, ∃ t,
          (skipBlanks s = '[' :: t ∧ ∃ items, v = .array items ∧
            readItems element t = .ok (items, rest)) ∨
          (skipBlanks s = '{' :: t ∧ readObject element t = .ok (v, rest)) := by
  cases hs : skipBlanks s with
  | nil =>
    have hnone : ¬ScalarText v [] rest := fun h => nomatch h
    simp [readValueWith, hs, hnone]
  | cons c t =>
    by_cases hlist : c = '['
    · subst hlist
      have hnone : ¬ScalarText v ('[' :: t) rest := by
        rw [← readScalar_eq_ok_iff]
        simp [readScalar, isDigit]
      cases inner with
      | none => simp [readValueWith, hs, isDigit, hnone]
      | some element =>
        have hitems : (readItems element t >>= fun p => .ok (.array p.1, p.2)) = .ok (v, rest) ↔
            ∃ items, v = .array items ∧ readItems element t = .ok (items, rest) := by
          rw [bind_fst_eq_ok]
          exact exists_congr fun items => and_comm
        simpa [readValueWith, hs, isDigit, hnone] using hitems
    by_cases hobject : c = '{'
    · subst hobject
      have hnone : ¬ScalarText v ('{' :: t) rest := by
        rw [← readScalar_eq_ok_iff]
        simp [readScalar, isDigit]
      cases inner with
      | none => simp [readValueWith, hs, isDigit, hnone]
      | some element => simp [readValueWith, hs, isDigit, hnone]
    rw [readValueWith_cons hs hlist hobject, readScalar_eq_ok_iff]
    simp [hlist, hobject]

theorem local_scalarText (v : Json) : Local (ScalarText v) := by
  intro s rest h
  cases h with
  | null => exact ⟨['n', 'u', 'l', 'l'], by simp, rfl, fun rest' _ => .null⟩
  | true => exact ⟨['t', 'r', 'u', 'e'], by simp, rfl, fun rest' _ => .true⟩
  | false => exact ⟨['f', 'a', 'l', 's', 'e'], by simp, rfl, fun rest' _ => .false⟩
  | @string t _ x h =>
    obtain ⟨u, hu, rfl, hagain⟩ := local_readString x t rest h
    exact ⟨'"' :: u, by simp, rfl, fun rest' hrest' => .string (hagain rest' hrest')⟩
  | @negative t _ n h =>
    obtain ⟨u, hu, rfl, hagain⟩ := local_readNumber true n t rest h
    exact ⟨'-' :: u, by simp, rfl, fun rest' hrest' => .negative (hagain rest' hrest')⟩
  | @digits c t _ n hc h =>
    obtain ⟨u, hu, hs, hagain⟩ := local_readNumber false n _ rest h
    cases u with
    | nil => exact absurd rfl hu
    | cons d u =>
      obtain ⟨rfl, rfl⟩ := List.cons.inj hs
      exact ⟨c :: u, hu, rfl, fun rest' hrest' => .digits hc (hagain rest' hrest')⟩

theorem small_of_scalarText (h : ScalarText v (skipBlanks s) rest) : Small s rest := by
  generalize hs : skipBlanks s = u at h
  apply Or.inl
  rw [hs]
  cases h with
  | null => exact ⟨'n', _, rfl, readLetters_eq_ok_iff.2 rfl⟩
  | true => exact ⟨'t', _, rfl, readLetters_eq_ok_iff.2 rfl⟩
  | false => exact ⟨'f', _, rfl, readLetters_eq_ok_iff.2 rfl⟩
  | @string t _ x h => exact ⟨'"', t, rfl, skipChars_of_readString h⟩
  | @negative t _ n h => exact ⟨'-', t, rfl, skipNumber_of_readNumber h⟩
  | @digits c t _ n hc h =>
    refine ⟨c, t, rfl, ?_⟩
    obtain ⟨hn, ht, hf, hquote, hminus⟩ := not_starts_of_isDigit hc
    simp only [skipScalar, if_neg hn, if_neg ht, if_neg hf, if_neg hquote, if_neg hminus, hc,
      if_true]
    exact skipNumber_of_readNumber h

theorem readsValue_of_scalarText {r : Reader α} {f : Json → Option α}
    (hr : ∀ s x rest, r s = .ok (x, rest) ↔
      ∃ v, f v = some x ∧ ScalarText v (skipBlanks s) rest) : ReadsValue r := by
  refine ReadsValue.of_small ?_ ?_ ?_
  · intro x
    have hscalar : Local fun s rest => ∃ v, ScalarText v (skipBlanks s) rest ∧ f v = some x :=
      Takes.exists fun v => (local_scalarText v).blanks.and_right _
    refine hscalar.congr fun s rest => ?_
    rw [hr]
    exact exists_congr fun v => and_comm
  · intro s m x
    rw [hr, hr, skipBlanks_skipBlanks]
  · intro s x rest h
    obtain ⟨v, -, hv⟩ := (hr s x rest).1 h
    exact small_of_scalarText hv

/-- A string is read where a tree is one. -/
theorem readStringValue_eq_ok_iff {x : String} :
    readStringValue s = .ok (x, rest) ↔
      ∃ v, Json.string? v = some x ∧ ScalarText v (skipBlanks s) rest := by
  unfold readStringValue
  constructor
  · intro h
    cases hs : skipBlanks s with
    | nil => simp [hs] at h
    | cons c t =>
      by_cases hquote : c = '"'
      · subst hquote
        simp only [hs, if_true] at h
        exact ⟨.string x, rfl, .string h⟩
      · simp [hs, hquote] at h
  · rintro ⟨v, hv, h⟩
    cases hs : skipBlanks s with
    | nil => rw [hs] at h; cases h
    | cons c t =>
      rw [hs] at h
      cases h with
      | string h =>
        obtain rfl := Option.some.inj hv
        simpa using h
      | null => cases hv
      | true => cases hv
      | false => cases hv
      | negative => cases hv
      | digits => cases hv

/-- The number that a signed word is read from. -/
def readDigits (c : Char) (t : List Char) : Except Fault (Number × List Char) :=
  if c = '-' then readNumber true t else readNumber false (c :: t)

theorem scalarText_of_readDigits {c : Char} {n : Number} (hc : c = '-' ∨ isDigit c = true)
    (h : readDigits c t = .ok (n, rest)) : ScalarText (.number n) (c :: t) rest := by
  unfold readDigits at h
  by_cases hminus : c = '-'
  · rw [if_pos hminus] at h
    rw [hminus]
    exact .negative h
  · rw [if_neg hminus] at h
    exact .digits (hc.resolve_left hminus) h

theorem readDigits_of_scalarText {c : Char} {n : Number}
    (h : ScalarText (.number n) (c :: t) rest) :
    (c = '-' ∨ isDigit c = true) ∧ readDigits c t = .ok (n, rest) := by
  cases h with
  | negative h => exact ⟨.inl rfl, h⟩
  | digits hc h =>
    have hminus := ne_of_isDigit hc (show isDigit '-' = false from rfl)
    exact ⟨.inr hc, (if_neg hminus).trans h⟩

/-- The signed word of a number that has been read. -/
def wordOf (p : Number × List Char) : Except Fault (Int64 × List Char) :=
  match p.1 with
  | .float x => .error (.here (.invalidType (.float x) "i64") p.2)
  | .whole n =>
    match n.toInt64? with
    | some x => .ok (x, p.2)
    | none => .error (.here (.invalidInteger n.val "i64") p.2)

theorem wordOf_eq_ok_iff {n : Number} {x : Int64} :
    wordOf (n, m) = .ok (x, rest) ↔ (Json.number n).int64? = some x ∧ m = rest := by
  cases n with
  | float y => simp [wordOf, Json.int64?]
  | whole n =>
    cases hword : n.toInt64? with
    | none => simp [wordOf, Json.int64?, hword]
    | some y => simp [wordOf, Json.int64?, hword]

theorem readInt64_cons {c : Char} (hs : skipBlanks s = c :: t) :
    readInt64 s =
      if c = '-' ∨ isDigit c = true then readDigits c t >>= wordOf
      else .error (mismatch "i64" (c :: t)) := by
  unfold readInt64 readDigits
  by_cases hminus : c = '-'
  · simp only [hs, hminus, true_or, if_true]
    rfl
  · simp only [hs, hminus, false_or, if_false]
    rfl

/-- A signed word is read where a tree is one. -/
theorem readInt64_eq_ok_iff {x : Int64} :
    readInt64 s = .ok (x, rest) ↔
      ∃ v, Json.int64? v = some x ∧ ScalarText v (skipBlanks s) rest := by
  cases hs : skipBlanks s with
  | nil =>
    constructor
    · intro h
      simp [readInt64, hs] at h
    · rintro ⟨v, -, h⟩
      cases h
  | cons c t =>
    rw [readInt64_cons hs]
    constructor
    · intro h
      by_cases hc : c = '-' ∨ isDigit c = true
      · rw [if_pos hc, bind_eq_ok] at h
        obtain ⟨⟨n, m⟩, hn, hof⟩ := h
        obtain ⟨hword, rfl⟩ := wordOf_eq_ok_iff.1 hof
        exact ⟨.number n, hword, scalarText_of_readDigits hc hn⟩
      · rw [if_neg hc] at h
        cases h
    · rintro ⟨v, hv, h⟩
      cases v with
      | number n =>
        obtain ⟨hc, hn⟩ := readDigits_of_scalarText h
        rw [if_pos hc, bind_eq_ok]
        exact ⟨(n, rest), hn, wordOf_eq_ok_iff.2 ⟨hv, rfl⟩⟩
      | null => cases hv
      | bool b => cases hv
      | string x => cases hv
      | array items => cases hv
      | object members => cases hv

theorem scalar_read_iff (k : Scalar) {x : k.Carrier} :
    k.read s = .ok (x, rest) ↔ ∃ v, k.ofTree? v = some x ∧ ScalarText v (skipBlanks s) rest := by
  cases k with
  | text => exact readStringValue_eq_ok_iff
  | integer => exact readInt64_eq_ok_iff

theorem readsValue_scalar (k : Scalar) : ReadsValue k.read :=
  readsValue_of_scalarText fun _ _ _ => scalar_read_iff k

/-! ## Optional values -/

theorem readOptional_eq_ok_iff {r : Reader α} {y : Option α} :
    readOptional r s = .ok (y, rest) ↔
      (y = none ∧ skipBlanks s = 'n' :: 'u' :: 'l' :: 'l' :: rest) ∨
        ∃ x, y = some x ∧ (∃ c t, skipBlanks s = c :: t ∧ c ≠ 'n') ∧
          r (skipBlanks s) = .ok (x, rest) := by
  unfold readOptional
  cases skipBlanks s with
  | nil => simp
  | cons c t =>
    by_cases hn : c = 'n'
    · subst hn
      simp only [if_true, bind_eq_ok]
      constructor
      · rintro ⟨m, hletters, h⟩
        cases h
        exact .inl ⟨rfl, congrArg _ (readLetters_eq_ok_iff.1 hletters)⟩
      · rintro (⟨rfl, h⟩ | ⟨x, -, ⟨c, t, h, hc⟩, -⟩)
        · exact ⟨rest, readLetters_eq_ok_iff.2 (List.cons.inj h).2, rfl⟩
        · exact absurd (List.cons.inj h).1.symm hc
    · simp only [if_neg hn, bind_eq_ok, Prod.exists]
      constructor
      · rintro ⟨x, m, hx, h⟩
        cases h
        exact .inr ⟨x, rfl, ⟨c, t, rfl, hn⟩, hx⟩
      · rintro (⟨-, h⟩ | ⟨x, rfl, -, hx⟩)
        · exact absurd (List.cons.inj h).1 hn
        · exact ⟨x, rest, hx, rfl⟩

theorem readsValue_readOptional {r : Reader α} (hr : ReadsValue r) :
    ReadsValue (readOptional r) := by
  refine ⟨?_, ?_, ?_⟩
  · intro y s rest h
    rcases readOptional_eq_ok_iff.1 h with ⟨rfl, hnull⟩ | ⟨x, rfl, hx⟩
    · have hlocal : Local fun s rest => skipBlanks s = ['n', 'u', 'l', 'l'] ++ rest :=
        (local_text (by simp)).blanks
      apply (hlocal s rest hnull).imp
      intro s rest hnull
      exact readOptional_eq_ok_iff.2 (.inl ⟨rfl, hnull⟩)
    · refine (((hr.isLocal x).of_cons (· ≠ 'n')).blanks s rest hx).imp ?_
      intro s rest hx
      exact readOptional_eq_ok_iff.2 (.inr ⟨x, rfl, hx⟩)
  · intro s m y
    rw [readOptional_eq_ok_iff, readOptional_eq_ok_iff, skipBlanks_skipBlanks]
  · intro s m y h frames rest hrest
    rcases readOptional_eq_ok_iff.1 h with ⟨rfl, hnull⟩ | ⟨x, rfl, -, hx⟩
    · refine Skips.of_small (small_of_scalarText (v := .null) ?_) hrest
      rw [hnull]
      exact .null
    · exact (hr.passes hx hrest).of_skipBlanks

/-! ## Records -/

theorem local_readList {form : RecordForm σ α} (hall : ∀ field ∈ form.elements, ∀ st,
    ReadsValue (field st)) (x : α) : Local fun s rest => form.readList s = .ok (x, rest) := by
  have helements := fun st => local_elements (allRead_nextField hall) true (form.start, 0)
    (st, form.elements.length)
  exact (Takes.exists fun st => (helements st).and_right _).congr fun _ _ => readList_eq_ok_iff

theorem local_readObject {form : RecordForm σ α} (hall : AllTaken form.slot) (x : α) :
    Local fun s rest => form.readObject s = .ok (x, rest) := by
  have hmembers := fun st => local_members hall true form.start st
  exact (Takes.exists fun st => (hmembers st).and_right _).congr
    fun _ _ => readObject_eq_ok_iff hall

theorem read_eq_ok_iff {form : RecordForm σ α} {x : α} :
    form.read s = .ok (x, rest) ↔
      (∃ t, skipBlanks s = '[' :: t ∧ form.readList t = .ok (x, rest)) ∨
        ∃ t, skipBlanks s = '{' :: t ∧ form.readObject t = .ok (x, rest) := by
  unfold RecordForm.read
  cases skipBlanks s with
  | nil => simp
  | cons c t =>
    by_cases hlist : c = '['
    · simp [hlist]
    · by_cases hobject : c = '{'
      · simp [hobject]
      · simp [hlist, hobject]

theorem readObjectOnly_eq_ok_iff {form : RecordForm σ α} {x : α} :
    form.readObjectOnly s = .ok (x, rest) ↔
      ∃ t, skipBlanks s = '{' :: t ∧ form.readObject t = .ok (x, rest) := by
  unfold RecordForm.readObjectOnly
  cases skipBlanks s with
  | nil => simp
  | cons c t =>
    by_cases hobject : c = '{'
    · simp [hobject]
    · simp [hobject]

/-- **An object that is read as a record is a value.** -/
theorem readsValue_readObjectOnly {form : RecordForm σ α} (hall : AllTaken form.slot) :
    ReadsValue form.readObjectOnly := by
  refine ⟨?_, ?_, ?_⟩
  · intro x
    exact ((local_char '{').comp (local_readObject hall x)).congr
      fun _ _ => readObjectOnly_eq_ok_iff
  · intro s m x
    rw [readObjectOnly_eq_ok_iff, readObjectOnly_eq_ok_iff, skipBlanks_skipBlanks]
  · intro s m x h frames rest hrest
    obtain ⟨t, hs, hobject⟩ := readObjectOnly_eq_ok_iff.1 h
    obtain ⟨st, hmembers, -⟩ := (readObject_eq_ok_iff hall).1 hobject
    exact hmembers.skips hall hs hrest

/-- **A list or an object that is read as a record is a value.** -/
theorem readsValue_read {form : RecordForm σ α} (hall : AllTaken form.slot)
    (hfields : ∀ field ∈ form.elements, ∀ st, ReadsValue (field st)) :
    ReadsValue form.read := by
  refine ⟨?_, ?_, ?_⟩
  · intro x
    exact (((local_char '[').comp (local_readList hfields x)).or
      ((local_char '{').comp (local_readObject hall x))).congr fun _ _ => read_eq_ok_iff
  · intro s m x
    rw [read_eq_ok_iff, read_eq_ok_iff, skipBlanks_skipBlanks]
  · intro s m x h frames rest hrest
    rcases read_eq_ok_iff.1 h with ⟨t, hs, hlist⟩ | ⟨t, hs, hobject⟩
    · obtain ⟨st, helements, -⟩ := readList_eq_ok_iff.1 hlist
      exact helements.skips (allRead_nextField hfields) hs hrest
    · obtain ⟨st, hmembers, -⟩ := (readObject_eq_ok_iff hall).1 hobject
      exact hmembers.skips hall hs hrest

/-! ## Trees -/

theorem allTaken_collectMember {element : Reader Json} (h : ReadsValue element) :
    AllTaken (collectMember element) := by
  intro members name value hvalue
  obtain rfl := Slot.take.inj hvalue
  exact h.map fun v => (name, v) :: members

/-- The object of a tree is a record of all its members. -/
def treeForm (element : Reader Json) : RecordForm (List (String × Json)) Json where
  title := ""
  start := []
  slot := collectMember element
  elements := []
  finish members := .ok (.object members.reverse)

theorem readTreeObject_eq_ok_iff {element : Reader Json} (h : ReadsValue element) :
    readObject element s = .ok (v, rest) ↔
      ∃ members, Members (collectMember element) true [] s members rest ∧
        .ok (.object members.reverse) = (.ok v : Except Cause Json) := by
  have hobject : readObject element s = (treeForm element).readObject s := rfl
  rw [hobject, readObject_eq_ok_iff]
  · rfl
  · exact allTaken_collectMember h

theorem readsValue_readValueWith {inner : Option (Reader Json)}
    (h : ∀ element ∈ inner, ReadsValue element) : ReadsValue (readValueWith inner) := by
  refine ⟨?_, ?_, ?_⟩
  · intro v s rest hv
    -- a scalar, a list and an object are each local, so any value is
    rcases readValueWith_eq_ok_iff.1 hv with hscalar |
      ⟨element, hinner, t, ⟨hs, items, rfl, hitems⟩ | ⟨hs, hobject⟩⟩
    · apply ((local_scalarText v).blanks s rest hscalar).imp
      intro s rest hscalar
      exact readValueWith_eq_ok_iff.2 (.inl hscalar)
    · have helements := local_elements (allRead_collectItem (h element hinner)) true []
        items.reverse
      have hlist := (local_char '[').comp helements s rest
        ⟨t, hs, (readItems_eq_ok_iff (h element hinner)).1 hitems⟩
      apply hlist.imp
      rintro s rest ⟨t, hs, hitems⟩
      exact readValueWith_eq_ok_iff.2 (.inr ⟨element, hinner, t, .inl ⟨hs, items, rfl,
        (readItems_eq_ok_iff (h element hinner)).2 hitems⟩⟩)
    · have hmembers : Local fun s rest => readObject element s = .ok (v, rest) :=
        (Takes.exists fun members => (local_members (allTaken_collectMember (h element hinner))
          true [] members).and_right _).congr fun _ _ => readTreeObject_eq_ok_iff (h element hinner)
      refine ((local_char '{').comp hmembers s rest ⟨t, hs, hobject⟩).imp ?_
      rintro s rest ⟨t, hs, hobject⟩
      exact readValueWith_eq_ok_iff.2 (.inr ⟨element, hinner, t, .inr ⟨hs, hobject⟩⟩)
  · intro s m v
    rw [readValueWith_eq_ok_iff, readValueWith_eq_ok_iff, skipBlanks_skipBlanks]
  · intro s m v hv frames rest hrest
    rcases readValueWith_eq_ok_iff.1 hv with hscalar |
      ⟨element, hinner, t, ⟨hs, items, rfl, hitems⟩ | ⟨hs, hobject⟩⟩
    · exact Skips.of_small (small_of_scalarText hscalar) hrest
    · exact ((readItems_eq_ok_iff (h element hinner)).1 hitems).skips
        (allRead_collectItem (h element hinner)) hs hrest
    · obtain ⟨members, hmembers, -⟩ := (readTreeObject_eq_ok_iff (h element hinner)).1 hobject
      exact hmembers.skips (allTaken_collectMember (h element hinner)) hs hrest

/-- **Trees of any depth are values.** -/
theorem readsValue_readTree (depth : Nat) : ReadsValue (readTree depth) := by
  -- on the number of brackets that may still be opened
  induction depth with
  | zero => exact readsValue_readValueWith fun element h => nomatch h
  | succ depth ih =>
    refine readsValue_readValueWith fun element h => ?_
    obtain rfl := Option.some.inj h
    exact ih

end DbInventory.Json
