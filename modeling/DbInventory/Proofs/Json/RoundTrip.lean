/-
# DbInventory.Proofs.Json.RoundTrip -- what is written is read again

Compact or indented by blanks, the text of a tree is read as that tree (`Kept.readAll_text`),
provided that its numbers are whole and that the reader may open as many brackets as the tree
has. Strings may hold any characters, and whole numbers are kept up to both ends of the words. A
blank, a comma or a bracket stands behind every part that is written, so the parts of a tree are
read one behind the other: the elements and members of a text are the rounds of the loops that
read it (`elements_itemsTextAt`, `members_membersTextAt`). A record is decoded from the object of
its members and from the list of its values (`Fields.Complete.ofTree?_members`,
`Fields.Complete.ofTree?_items`).
-/

import DbInventory.Proofs.Json.Fields

namespace DbInventory.Json

variable {s rest chars : List Char} {v : Json} {style : Style} {n : Nat}

/-! ## Strings -/

theorem hexEscape_hexByte (b : UInt8) (s : List Char) :
    hexEscape ('0' :: '0' :: (Text.hexByte b ++ s)) = .ok b.toNat := by
  have hb : b.toNat < 256 := b.toNat_lt
  have hzero : Text.hexValue '0' = some 0 := rfl
  have hsum : 4096 * 0 + 256 * 0 + 16 * (b.toNat / 16) + b.toNat % 16 = b.toNat := by omega
  simp only [Text.hexByte, List.cons_append, List.nil_append, hexEscape, hzero,
    Text.hexValue_hexDigit _ (show b.toNat / 16 < 16 by omega),
    Text.hexValue_hexDigit _ (show b.toNat % 16 < 16 by omega), hsum]

theorem StringText.letter {c d : Char} (hd : d ≠ 'u') (hletter : letterEscape d = some c)
    (h : StringText 0 s chars rest) : StringText 0 (['\\', d] ++ s) (c :: chars) rest :=
  .escape (.letter hd hletter) (.passed h)

/-- A control character is escaped by its code. -/
theorem StringText.control {c : Char} (hc : c < ' ') (h : StringText 0 s chars rest) :
    StringText 0 (['\\', 'u', '0', '0'] ++ Text.hexByte (UInt8.ofNat c.toNat) ++ s)
      (c :: chars) rest := by
  have hlt : c.toNat < 32 := hc
  have hbyte : (UInt8.ofNat c.toNat).toNat = c.toNat :=
    UInt8.toNat_ofNat_of_lt' (Nat.lt_trans hlt (by decide))
  have hcode := hexEscape_hexByte (UInt8.ofNat c.toNat) s
  rw [hbyte] at hcode
  have hlow : isLowSurrogate c.toNat = false := by
    simp only [isLowSurrogate, Bool.and_eq_false_iff, decide_eq_false_iff_not]
    omega
  have hhigh : isHighSurrogate c.toNat = false := by
    simp only [isHighSurrogate, Bool.and_eq_false_iff, decide_eq_false_iff_not]
    omega
  have hescape := IsEscape.code hcode hlow hhigh
  rw [Char.ofNat_toNat] at hescape
  exact .escape hescape (.passed (.passed (.passed (.passed (.passed h)))))

/-- **Every character is read as it was written.** -/
theorem StringText.escapedChar {c : Char} (h : StringText 0 s chars rest) :
    StringText 0 (escapedChar c ++ s) (c :: chars) rest := by
  unfold Json.escapedChar
  split_ifs with hquote hbackslash hbackspace hfeed hnewline hreturn htab hcontrol
  · subst hquote
    exact letter (by decide) rfl h
  · subst hbackslash
    exact letter (by decide) rfl h
  · subst hbackspace
    exact letter (by decide) rfl h
  · subst hfeed
    exact letter (by decide) rfl h
  · subst hnewline
    exact letter (by decide) rfl h
  · subst hreturn
    exact letter (by decide) rfl h
  · subst htab
    exact letter (by decide) rfl h
  · exact control hcontrol h
  · exact .plain ⟨hquote, hbackslash, hcontrol⟩ h

theorem stringText_flatMap (chars rest : List Char) :
    StringText 0 (chars.flatMap escapedChar ++ '"' :: rest) chars rest := by
  induction chars with
  | nil => exact .closed
  | cons c chars ih =>
    rw [List.flatMap_cons, List.append_assoc]
    exact ih.escapedChar

theorem stringText_append (x : String) (rest : List Char) :
    stringText x ++ rest = '"' :: (x.toList.flatMap escapedChar ++ '"' :: rest) := by
  simp [stringText]

/-- **A string is read as it was written**, whatever stands behind its quote. -/
theorem readString_flatMap (x : String) (rest : List Char) :
    readString (x.toList.flatMap escapedChar ++ '"' :: rest) = .ok (x, rest) :=
  readString_eq_ok_iff.2 ⟨x.toList, stringText_flatMap _ rest, String.ofList_toList.symm⟩

/-! ## Whole numbers -/

theorem isDigit_of_mem_toDigits {m : Nat} {c : Char} (h : c ∈ Nat.toDigits 10 m) :
    isDigit c = true := by
  have hc : c.isDigit = true := Nat.isDigit_of_mem_toDigits (by decide) (by decide) h
  simpa [isDigit, Char.isDigit, Char.le_def] using hc

/-- Only zero is written with a zero in front. -/
theorem head_toDigits {m : Nat} (hm : 0 < m) :
    ∃ c digits, Nat.toDigits 10 m = c :: digits ∧ c ≠ '0' := by
  induction m using Nat.strongRecOn with
  | ind m ih =>
    by_cases hlt : m < 10
    · have hne : ∀ k < 10, 0 < k → Nat.digitChar k ≠ '0' := by decide
      exact ⟨Nat.digitChar m, [], Nat.toDigits_of_lt_base hlt, hne m hlt hm⟩
    · obtain ⟨c, digits, hdigits, hc⟩ := ih (m / 10) (by omega) (by omega)
      refine ⟨c, digits ++ [Nat.digitChar (m % 10)], ?_, hc⟩
      rw [Nat.toDigits_of_base_le (by decide) (by omega), hdigits, List.cons_append]

theorem readIntegerDigits_toDigits (m : Nat) (hrest : NoDigit rest) :
    readIntegerDigits (Nat.toDigits 10 m ++ rest) = .ok (Nat.toDigits 10 m, rest) := by
  cases Nat.eq_zero_or_pos m with
  | inl hm =>
    rw [hm, Nat.toDigits_zero]
    exact readIntegerDigits_zero_eq_ok_iff.2 ⟨hrest, rfl, rfl⟩
  | inr hm =>
    obtain ⟨c, digits, hdigits, hc⟩ := head_toDigits hm
    have hall : ∀ d ∈ c :: digits, isDigit d = true :=
      fun d hd => isDigit_of_mem_toDigits (hdigits ▸ hd)
    rw [List.forall_mem_cons] at hall
    rw [hdigits, List.cons_append]
    simp only [readIntegerDigits, if_neg hc, if_pos hall.1, takeWhile_digits hall.2 hrest,
      dropWhile_digits hall.2 hrest]

theorem le_ofDigitChars (digits : List Char) (m : Nat) : m ≤ Nat.ofDigitChars 10 digits m := by
  induction digits generalizing m with
  | nil => exact Nat.le_refl m
  | cons c digits ih =>
    rw [Nat.ofDigitChars_cons]
    have htail := ih (10 * m + (c.toNat - '0'.toNat))
    omega

/-- Digits are absorbed if their number fits a word: so does every number on the way to it. -/
theorem absorb_eq {digits : List Char} {m : Nat}
    (h : Nat.ofDigitChars 10 digits m < UInt64.size) :
    absorb m digits = (Nat.ofDigitChars 10 digits m, []) := by
  induction digits generalizing m with
  | nil => rfl
  | cons c digits ih =>
    rw [Nat.ofDigitChars_cons] at h ⊢
    have hfits : ¬UInt64.size ≤ 10 * m + digitValue c :=
      Nat.not_le.2 (Nat.lt_of_le_of_lt (le_ofDigitChars digits _) h)
    rw [absorb, if_neg hfits]
    exact ih h

/-- The digits of a number that fits a word are read as a whole number. -/
theorem readNumber_toDigits {m : Nat} (hm : m < UInt64.size) (hrest : Stops rest)
    (negative : Bool) :
    readNumber negative (Nat.toDigits 10 m ++ rest) = finishWhole negative m rest := by
  have hnodigit : NoDigit rest := fun c hc => not_isDigit_of_stop (hrest c hc)
  have hpoint : NoPoint rest := fun c hc => not_point_of_stop (hrest c hc)
  have hscale : NoScale rest := fun c hc => not_scale_of_stop (hrest c hc)
  have habsorb : absorb 0 (Nat.toDigits 10 m) = (m, []) := by
    have hvalue : Nat.ofDigitChars 10 (Nat.toDigits 10 m) 0 = m := Nat.ofDigitChars_ten_toDigits
    rw [absorb_eq (by rwa [hvalue]), hvalue]
  have hnone : (absorb 0 (Nat.toDigits 10 m)).2.isEmpty = true := by rw [habsorb]; rfl
  simp only [readNumber_eq, readIntegerDigits_toDigits m hnodigit, bind, Except.bind,
    finishNumber_of_whole hpoint hnone hscale, habsorb]

/-- Behind its sign, a whole number is read off its digits. -/
theorem readNumber_whole {negative : Bool} {m : Nat} {w : WordInt} (hm : m < UInt64.size)
    (hw : (if negative then -(m : Int) else m) = w.val) (hzero : negative = true → m ≠ 0)
    (hrest : Stops rest) :
    readNumber negative (Nat.toDigits 10 m ++ rest) = .ok (.whole w, rest) := by
  have hnot : ¬(negative && m == 0) = true := by simpa using hzero
  rw [readNumber_toDigits hm hrest, finishWhole, if_neg hnot, hw, WordInt.ofInt?_val]

/-- **A whole number is read as it was written.** -/
theorem scalarText_whole (w : WordInt) (hrest : Stops rest) :
    ScalarText (.number (.whole w)) (intText w.val ++ rest) rest := by
  have hlower : (-9223372036854775808 : Int) ≤ w.val := w.lower
  have hupper : w.val < (18446744073709551616 : Int) := w.upper
  have hsize : UInt64.size = 18446744073709551616 := rfl
  cases hw : w.val with
  | ofNat m =>
    have hm : m < UInt64.size := by
      rw [hw, Int.ofNat_eq_natCast] at hupper
      omega
    have hnumber : readNumber false (Nat.toDigits 10 m ++ rest) = .ok (.whole w, rest) :=
      readNumber_whole hm hw.symm (by simp) hrest
    show ScalarText _ (Nat.toDigits 10 m ++ rest) rest
    cases hdigits : Nat.toDigits 10 m with
    | nil => exact absurd hdigits Nat.toDigits_ne_nil
    | cons c digits =>
      rw [hdigits] at hnumber
      exact .digits (isDigit_of_mem_toDigits (hdigits ▸ List.mem_cons_self)) hnumber
  | negSucc m =>
    have hm : m + 1 < UInt64.size := by
      rw [hw] at hlower
      omega
    exact .negative (readNumber_whole hm hw.symm (by simp) hrest)

/-! ## Scalars -/

theorem isBlank_eq_false_of_isDigit {c : Char} (h : isDigit c = true) : isBlank c = false := by
  rw [← Bool.not_eq_true]
  intro hblank
  have hstop := not_continuesNumber_of_isBlank hblank
  rw [not_isDigit_of_stop hstop] at h
  cases h

theorem ScalarText.skipBlanks_eq (h : ScalarText v s rest) : skipBlanks s = s := by
  cases h with
  | digits hc => exact skipBlanks_cons (isBlank_eq_false_of_isDigit hc) _
  | _ => exact skipBlanks_cons rfl _

/-- A scalar is read at any depth. -/
theorem ScalarText.readTree_eq (h : ScalarText v s rest) (depth : Nat) :
    readTree depth s = .ok (v, rest) := by
  cases depth <;> exact readValueWith_eq_ok_iff.2 (.inl (h.skipBlanks_eq.symm ▸ h))

/-- A tree starts with something else than the end of a list. -/
theorem head_of_readTree {depth : Nat} (h : readTree depth s = .ok (v, rest)) :
    ∃ c t, skipBlanks s = c :: t ∧ c ≠ ']' := by
  have hcases : ScalarText v (skipBlanks s) rest ∨
      ∃ t, skipBlanks s = '[' :: t ∨ skipBlanks s = '{' :: t := by
    cases depth with
    | zero =>
      rcases readValueWith_eq_ok_iff.1 h with hscalar | ⟨element, hinner, -⟩
      · exact .inl hscalar
      · cases hinner
    | succ depth =>
      rcases readValueWith_eq_ok_iff.1 h with hscalar | ⟨element, -, t, ⟨hs, -⟩ | ⟨hs, -⟩⟩
      · exact .inl hscalar
      · exact .inr ⟨t, .inl hs⟩
      · exact .inr ⟨t, .inr hs⟩
  rcases hcases with hscalar | ⟨t, hs | hs⟩
  · generalize skipBlanks s = u at hscalar
    cases hscalar with
    | digits hc => exact ⟨_, _, rfl, ne_of_isDigit hc rfl⟩
    | _ => exact ⟨_, _, rfl, by decide⟩
  · exact ⟨'[', t, hs, by decide⟩
  · exact ⟨'{', t, hs, by decide⟩

/-! ## Blanks between the parts -/

/-- A style that indents by blanks only. -/
def Style.Blank : Style → Prop
  | .compact => True
  | .indented unit => ∀ c ∈ unit, isBlank c = true

theorem skipBlanks_append {b : List Char} (hb : ∀ c ∈ b, isBlank c = true) (s : List Char) :
    skipBlanks (b ++ s) = skipBlanks s :=
  List.dropWhile_append_of_pos hb

theorem skipBlanks_lineBreak (hstyle : style.Blank) (depth : Nat) (s : List Char) :
    skipBlanks (style.lineBreak depth ++ s) = skipBlanks s := by
  cases style with
  | compact => rfl
  | indented unit =>
    have hunits : ∀ c ∈ (List.replicate depth unit).flatten, isBlank c = true := by
      intro c hc
      obtain ⟨u, hu, hc⟩ := List.mem_flatten.1 hc
      exact hstyle c (List.eq_of_mem_replicate hu ▸ hc)
    exact skipBlanks_append (List.forall_mem_cons.2 ⟨rfl, hunits⟩) s

/-- Behind a colon there is at most a blank. -/
theorem exists_readColon (style : Style) (s : List Char) :
    ∃ u, readColon (style.colon ++ s) = .ok u ∧ skipBlanks u = skipBlanks s := by
  cases style with
  | compact => exact ⟨s, readColon_eq_ok_iff.2 rfl, rfl⟩
  | indented unit => exact ⟨' ' :: s, readColon_eq_ok_iff.2 rfl, rfl⟩

/-! ## Lists and objects -/

/-- A reader reads a value off a text, in front of anything that no number goes on with. -/
def ReadsOff (r : Reader Json) (v : Json) (t : List Char) : Prop :=
  ∀ rest, Stops rest → r (t ++ rest) = .ok (v, rest)

variable {inner depth : Nat}

theorem ReadsOff.skipBlanks_eq {t u : List Char} (h : ReadsOff (readTree inner) v t)
    (hrest : Stops rest) (hu : skipBlanks u = skipBlanks (t ++ rest)) :
    readTree inner u = .ok (v, rest) := by
  have hread := (readsValue_readTree inner).blanks.2 (h rest hrest)
  rw [← hu] at hread
  exact (readsValue_readTree inner).blanks.1 hread

/-- An element at the place of the next one. -/
theorem ReadsOff.item {t : List Char} {acc acc' : List Json} {m out : List Char}
    (h : ReadsOff (readTree inner) v t) (first : Bool)
    (hs : if first then skipBlanks s = skipBlanks (t ++ m)
      else ∃ u, skipBlanks s = ',' :: u ∧ skipBlanks u = skipBlanks (t ++ m))
    (hrest : Elements (collectItem (readTree inner)) false (v :: acc) m acc' out) :
    Elements (collectItem (readTree inner)) first acc s acc' out := by
  have hstops := hrest.stops
  have hread : readTree inner (skipBlanks (t ++ m)) = .ok (v, m) :=
    h.skipBlanks_eq hstops (skipBlanks_skipBlanks _)
  have hitem : AtItem first s (skipBlanks (t ++ m)) :=
    ⟨head_of_readTree (h m hstops), hs⟩
  exact .item rfl hitem (readNext_eq_ok_iff.2 ⟨v, hread, rfl⟩) hrest

/-- **The elements of a text are the rounds of the loop that reads it.** -/
theorem elements_itemsTextAt (hstyle : style.Blank) {items : List Json} {out : List Char}
    (hitems : ∀ v ∈ items, ReadsOff (readTree inner) v (textAt style depth v))
    (hend : skipBlanks s = ']' :: out) (acc : List Json) :
    Elements (collectItem (readTree inner)) false acc (itemsTextAt style depth items ++ s)
      (items.reverse ++ acc) out := by
  induction items generalizing acc with
  | nil => exact .done hend
  | cons v items ih =>
    rw [List.forall_mem_cons] at hitems
    have htail := ih hitems.2 (v :: acc)
    rw [List.reverse_cons, List.append_assoc]
    refine hitems.1.item false ⟨style.lineBreak depth ++ (textAt style depth v ++
      (itemsTextAt style depth items ++ s)), ?_, skipBlanks_lineBreak hstyle depth _⟩ htail
    simp [itemsTextAt, skipBlanks_cons, isBlank]

/-- A member at the place of the next one. -/
theorem ReadsOff.member {t : List Char} {name : String} {acc acc' : List (String × Json)}
    {m out : List Char} (h : ReadsOff (readTree inner) v t) (style : Style) (first : Bool)
    (hs : AtName first s (name.toList.flatMap escapedChar ++ '"' :: (style.colon ++ (t ++ m))))
    (hrest : Members (collectMember (readTree inner)) false ((name, v) :: acc) m acc' out) :
    Members (collectMember (readTree inner)) first acc s acc' out := by
  obtain ⟨u, hcolon, hu⟩ := exists_readColon style (t ++ m)
  have hkey : Key first name s u := ⟨_, hs, _, readString_flatMap name _, hcolon⟩
  have hvalue := h.skipBlanks_eq hrest.stops hu
  exact .taken hkey rfl ((bind_fst_eq_ok (g := fun v => (name, v) :: acc)).2 ⟨v, hvalue, rfl⟩) hrest

/-- A name behind a line break. -/
theorem skipBlanks_name (hstyle : style.Blank) (depth : Nat) (name : String) (s : List Char) :
    skipBlanks (style.lineBreak depth ++ (stringText name ++ s)) =
      '"' :: (name.toList.flatMap escapedChar ++ '"' :: s) := by
  rw [skipBlanks_lineBreak hstyle, stringText_append]
  exact skipBlanks_cons rfl _

/-- **The members of a text are the rounds of the loop that reads it.** -/
theorem members_membersTextAt (hstyle : style.Blank) {members : List (String × Json)}
    {out : List Char}
    (hmembers : ∀ m ∈ members, ReadsOff (readTree inner) m.2 (textAt style depth m.2))
    (hend : skipBlanks s = '}' :: out) (acc : List (String × Json)) :
    Members (collectMember (readTree inner)) false acc (membersTextAt style depth members ++ s)
      (members.reverse ++ acc) out := by
  induction members generalizing acc with
  | nil => exact .done hend
  | cons m members ih =>
    obtain ⟨name, v⟩ := m
    rw [List.forall_mem_cons] at hmembers
    have htail := ih hmembers.2 ((name, v) :: acc)
    rw [List.reverse_cons, List.append_assoc]
    refine hmembers.1.member style false ⟨style.lineBreak depth ++ (stringText name ++
      (style.colon ++ (textAt style depth v ++ (membersTextAt style depth members ++ s)))), ?_,
      skipBlanks_name hstyle depth name _⟩ htail
    simp [membersTextAt, skipBlanks_cons, isBlank]

/-- Elements that are read where they stand make a list that is. -/
theorem readsOff_array (hstyle : style.Blank) {items : List Json}
    (hitems : ∀ v ∈ items, ReadsOff (readTree inner) v (textAt style (depth + 1) v)) :
    ReadsOff (readTree (inner + 1)) (.array items) (textAt style depth (.array items)) := by
  have hlist : ∀ {s out}, Elements (collectItem (readTree inner)) true [] s items.reverse out →
      readTree (inner + 1) ('[' :: s) = .ok (.array items, out) := by
    intro s out h
    have hread := (readItems_eq_ok_iff (readsValue_readTree inner)).2 h
    exact readValueWith_eq_ok_iff.2
      (.inr ⟨_, rfl, s, .inl ⟨skipBlanks_cons rfl s, items, rfl, hread⟩⟩)
  intro rest _
  cases items with
  | nil => exact hlist (.done rfl)
  | cons v items =>
    rw [List.forall_mem_cons] at hitems
    have hend : skipBlanks (style.lineBreak depth ++ (']' :: rest)) = ']' :: rest :=
      skipBlanks_lineBreak hstyle depth _
    have htail := elements_itemsTextAt hstyle hitems.2 hend [v]
    rw [← List.reverse_cons] at htail
    have hall := hitems.1.item true (skipBlanks_lineBreak hstyle (depth + 1) _) htail
    simpa [textAt] using hlist hall

/-- Members whose values are read where they stand make an object that is. -/
theorem readsOff_object (hstyle : style.Blank) {members : List (String × Json)}
    (hmembers : ∀ m ∈ members, ReadsOff (readTree inner) m.2 (textAt style (depth + 1) m.2)) :
    ReadsOff (readTree (inner + 1)) (.object members) (textAt style depth (.object members)) := by
  have hobject : ∀ {s out},
      Members (collectMember (readTree inner)) true [] s members.reverse out →
      readTree (inner + 1) ('{' :: s) = .ok (.object members, out) := by
    intro s out h
    have hread := (readTreeObject_eq_ok_iff (readsValue_readTree inner)).2
      ⟨_, h, by rw [List.reverse_reverse]⟩
    exact readValueWith_eq_ok_iff.2 (.inr ⟨_, rfl, s, .inr ⟨skipBlanks_cons rfl s, hread⟩⟩)
  intro rest _
  cases members with
  | nil => exact hobject (.done rfl)
  | cons m members =>
    obtain ⟨name, v⟩ := m
    rw [List.forall_mem_cons] at hmembers
    have hend : skipBlanks (style.lineBreak depth ++ ('}' :: rest)) = '}' :: rest :=
      skipBlanks_lineBreak hstyle depth _
    have htail := members_membersTextAt hstyle hmembers.2 hend [(name, v)]
    rw [← List.reverse_cons] at htail
    have hall := hmembers.1.member style true (skipBlanks_name hstyle (depth + 1) name _) htail
    simpa [textAt] using hobject hall

/-! ## Trees -/

/-- A tree that its text keeps when `n` brackets may be open at once: no number in it is a
binary64 number. -/
inductive Kept : Nat → Json → Prop
  | null {n : Nat} : Kept n .null
  | bool {n : Nat} (b : Bool) : Kept n (.bool b)
  | whole {n : Nat} (w : WordInt) : Kept n (.number (.whole w))
  | string {n : Nat} (x : String) : Kept n (.string x)
  | array {n : Nat} {items : List Json} (h : ∀ v ∈ items, Kept n v) : Kept (n + 1) (.array items)
  | object {n : Nat} {members : List (String × Json)} (h : ∀ m ∈ members, Kept n m.2) :
    Kept (n + 1) (.object members)

/-- **A tree is read as it was written**, wherever its text stands. -/
theorem Kept.readsOff (hstyle : style.Blank) (h : Kept n v) (depth : Nat) :
    ReadsOff (readTree n) v (textAt style depth v) := by
  -- the parts of a tree stand one line break deeper, so the depth varies along the way
  induction h generalizing depth with
  | null =>
    intro rest _
    exact ScalarText.null.readTree_eq _
  | bool b =>
    intro rest _
    cases b with
    | true => exact ScalarText.true.readTree_eq _
    | false => exact ScalarText.false.readTree_eq _
  | whole w =>
    intro rest hrest
    exact (scalarText_whole w hrest).readTree_eq _
  | string x =>
    intro rest _
    show readTree _ (stringText x ++ rest) = _
    rw [stringText_append]
    exact (ScalarText.string (readString_flatMap x rest)).readTree_eq _
  | array _ ih => exact readsOff_array hstyle fun v hv => ih v hv (depth + 1)
  | object _ ih => exact readsOff_object hstyle fun m hm => ih m hm (depth + 1)

/-- **The text of a tree is read as the tree.** -/
theorem Kept.readAll_text (h : Kept n v) (hstyle : style.Blank) :
    readAll (readTree n) (v.text style) = .ok v := by
  refine readAll_eq_ok_iff.2 ⟨[], ?_, rfl⟩
  have hread := h.readsOff hstyle 0 [] stops_nil
  rwa [List.append_nil, ← @String.toList_ofList (textAt style 0 v)] at hread

/-! ## Records of scalars -/

theorem Scalar.ofTree?_toJson (k : Scalar) (x : k.Carrier) : k.ofTree? (k.toJson x) = some x := by
  cases k with
  | text => rfl
  | integer => exact WordInt.toInt64?_ofInt64 x

theorem kept_optional (k : Scalar) (y : Option k.Carrier) (n : Nat) :
    Kept n (Json.optional k.toJson y) := by
  cases y with
  | none => exact .null
  | some x =>
    cases k with
    | text => exact .string x
    | integer => exact .whole (.ofInt64 x)

namespace Fields

variable {ι : Type} (F : Fields ι)

/-- The value of a field, as it is written. -/
def written (values : F.Values) (i : ι) : Json := Json.optional (F.kind i).toJson (values i)

/-- No value is missing that is required. -/
def Complete (values : F.Values) : Prop := ∀ i, F.required i = true → (values i).isSome

variable {F} {values : F.Values} {mayOmit : Nat}

theorem Complete.fieldOfTree?_written (h : F.Complete values) (i : ι) :
    F.fieldOfTree? i (F.written values i) = some (values i) := by
  apply F.fieldOfTree?_eq_some_iff.2
  unfold written
  cases hi : values i with
  | none =>
    refine .inl ⟨?_, rfl, rfl⟩
    rw [← Bool.not_eq_true]
    intro hrequired
    have hsome := h i hrequired
    rw [hi] at hsome
    cases hsome
  | some x => exact .inr ⟨x, Scalar.ofTree?_toJson _ x, rfl⟩

/-- Every field is listed once and found by its name. -/
structure Proper (F : Fields ι) : Prop where
  field?_name : ∀ i, F.field? (F.name i) = some i
  nodup_all : F.all.Nodup

theorem Proper.mem_all (hF : F.Proper) (i : ι) : i ∈ F.all :=
  List.mem_of_find?_eq_some (hF.field?_name i)

variable [DecidableEq ι]

/-- What has been seen of some values, when the given fields have been read. -/
def seenOf (values : F.Values) (fields : List ι) : F.Seen :=
  fun i => if i ∈ fields then some (values i) else none

theorem set_seenOf (fields : List ι) (i : ι) :
    (seenOf values fields).set i (values i) = seenOf values (i :: fields) := by
  funext j
  unfold Seen.set seenOf
  by_cases h : j = i
  · subst h
    simp
  · simp [h]

/-- Once all fields have been read, the record is there. -/
theorem Proper.finish_seenOf (hF : F.Proper) :
    F.finish (seenOf values F.all.reverse) = .ok values := by
  have hseen : ∀ i, seenOf values F.all.reverse i = some (values i) :=
    fun i => if_pos (List.mem_reverse.2 (hF.mem_all i))
  have hnone : (F.all.find? fun i =>
      F.required i && (seenOf values F.all.reverse i).isNone) = none := by
    rw [List.find?_eq_none]
    intro i _
    simp [hseen]
  unfold finish
  rw [hnone]
  simp only [hseen, Option.join_some]

/-- The members of some fields, behind those that have been read. -/
theorem Complete.ofMembers?_written (h : F.Complete values) (hF : F.Proper)
    {fields seen : List ι} (hnodup : (fields ++ seen).Nodup) :
    F.ofMembers? (seenOf values seen) (fields.map fun i => (F.name i, F.written values i)) =
      some (seenOf values (fields.reverse ++ seen)) := by
  induction fields generalizing seen with
  | nil => rfl
  | cons i fields ih =>
    have hnew : i ∉ fields ++ seen := (List.nodup_cons.1 hnodup).1
    have hunseen : seenOf values seen i = none :=
      if_neg fun hi => hnew (List.mem_append_right fields hi)
    have hnodup' : (fields ++ i :: seen).Nodup := List.perm_middle.nodup_iff.2 hnodup
    rw [List.map_cons, ofMembers?_cons_eq_some_iff]
    refine .inr ⟨i, hF.field?_name i, hunseen, values i, h.fieldOfTree?_written i, ?_⟩
    rw [set_seenOf, ih hnodup', List.reverse_cons, List.append_assoc]
    rfl

/-- **The object of a record is decoded as the record.** -/
theorem Complete.ofTree?_members (h : F.Complete values) (hF : F.Proper) :
    F.ofTree? mayOmit (.object (F.members values)) = some values := by
  have hmembers : F.ofMembers? (Seen.empty F) (F.members values) =
      some (seenOf values F.all.reverse) := by
    have hnodup : (F.all ++ []).Nodup := by simpa using hF.nodup_all
    have hall := h.ofMembers?_written hF hnodup
    rwa [List.append_nil] at hall
  rw [ofTree?, hmembers, Option.bind_some, hF.finish_seenOf]
  rfl

/-- The elements of some fields, behind those that have been read. -/
theorem Complete.ofItems?_written (h : F.Complete values) (fields seen : List ι) :
    F.ofItems? mayOmit fields (seenOf values seen) (fields.map (F.written values)) =
      some (seenOf values (fields.reverse ++ seen)) := by
  induction fields generalizing seen with
  | nil => rfl
  | cons i fields ih =>
    rw [List.map_cons, ofItems?, h.fieldOfTree?_written i, Option.bind_some, set_seenOf, ih,
      List.reverse_cons, List.append_assoc]
    rfl

/-- **The list of all fields of a record is decoded as the record.** -/
theorem Complete.ofTree?_items (h : F.Complete values) (hF : F.Proper) :
    F.ofTree? mayOmit (.array (F.all.map (F.written values))) = some values := by
  have hitems : F.ofItems? mayOmit F.all (Seen.empty F) (F.all.map (F.written values)) =
      some (seenOf values F.all.reverse) := by
    rw [← List.append_nil F.all.reverse]
    exact h.ofItems?_written F.all []
  rw [ofTree?, hitems, Option.bind_some, hF.finish_seenOf]
  rfl

end Fields

end DbInventory.Json
