/-
# DbInventory.Proofs.Json.Local -- readers look one character ahead

What a reader does depends on the text that it takes and on at most one character behind it.
`Local` says so of a way of reading, given by the texts before and behind it: the text behind
may be replaced by one that starts alike, or by one that no number goes on with. A value can
therefore be cut out of its text and be read alone, and put into another text. `Local` is
closed under reading one thing behind another (`Peeks.comp`) and under skipping blanks first
(`Takes.blanks`).
-/

import DbInventory.Json.Skip
import DbInventory.Proofs.Except

namespace DbInventory.Json

/-! ## One character ahead -/

/-- The characters that a number may go on with. -/
def continuesNumber (c : Char) : Bool := isDigit c || c == '.' || c == 'e' || c == 'E'

/-- No number goes on with this text. -/
def Stops (s : List Char) : Prop := ∀ c ∈ s.head?, continuesNumber c = false

theorem stops_nil : Stops [] := by
  intro c hc
  cases hc

theorem stops_cons {c : Char} {s : List Char} (h : continuesNumber c = false) :
    Stops (c :: s) := by
  intro d hd
  obtain rfl : c = d := by simpa using hd
  exact h

/-- A way of reading: the texts before and behind it. -/
abbrev Taking := List Char → List Char → Prop

def SameHead (rest rest' : List Char) : Prop := rest'.head? = rest.head?

/-- A text that may stand in place of another one behind a value. -/
def Follows (rest rest' : List Char) : Prop := SameHead rest rest' ∨ Stops rest'

/-- Reading takes a text off the front, and does so again in front of any other text that may
stand in place of what is left. -/
def TakenAt (may : List Char → List Char → Prop) (P : Taking) (s rest : List Char) : Prop :=
  ∃ t, t ≠ [] ∧ s = t ++ rest ∧ ∀ rest', may rest rest' → P (t ++ rest') rest'

/-- The same of all texts that can be read. -/
def Takes (may : List Char → List Char → Prop) (P : Taking) : Prop :=
  ∀ s rest, P s rest → TakenAt may P s rest

/-- What is taken, and whether it can be taken, depends on one character ahead. -/
abbrev Peeks (P : Taking) : Prop := Takes SameHead P

/-- The same, and no character ahead matters that no number goes on with. -/
abbrev Local (P : Taking) : Prop := Takes Follows P

variable {may : List Char → List Char → Prop} {P Q R : Taking} {s m rest : List Char}

theorem TakenAt.imp (h : TakenAt may P s rest) (hPQ : ∀ s rest, P s rest → Q s rest) :
    TakenAt may Q s rest := by
  obtain ⟨t, ht, hs, hagain⟩ := h
  exact ⟨t, ht, hs, fun rest' hrest' => hPQ _ _ (hagain rest' hrest')⟩

theorem sameHead_append {t : List Char} (ht : t ≠ []) (a b : List Char) :
    SameHead (t ++ a) (t ++ b) := by
  cases t with
  | nil => exact absurd rfl ht
  | cons c t => exact rfl

/-- One thing behind another. What the second one takes keeps its first character, so the first
one finds what it looks ahead to. -/
theorem TakenAt.comp (hP : TakenAt SameHead P s m) (hQ : TakenAt may Q m rest)
    (hR : ∀ s m rest, P s m → Q m rest → R s rest) : TakenAt may R s rest := by
  obtain ⟨t, ht, rfl, hagain⟩ := hP
  obtain ⟨t', ht', rfl, hagain'⟩ := hQ
  refine ⟨t ++ t', by simp [ht], by simp, ?_⟩
  intro rest' hrest'
  rw [List.append_assoc]
  exact hR _ _ _ (hagain _ (sameHead_append ht' rest rest')) (hagain' rest' hrest')

theorem Local.peeks (h : Local P) : Peeks P := by
  intro s rest hP
  obtain ⟨t, ht, hs, hagain⟩ := h s rest hP
  exact ⟨t, ht, hs, fun rest' hhead => hagain rest' (.inl hhead)⟩

theorem Takes.length_lt (h : Takes may P) (hP : P s rest) : rest.length < s.length := by
  obtain ⟨t, ht, rfl, -⟩ := h s rest hP
  have hpos := List.length_pos_iff.2 ht
  rw [List.length_append]
  omega

theorem Peeks.comp (hP : Peeks P) (hQ : Takes may Q) :
    Takes may fun s rest => ∃ m, P s m ∧ Q m rest := by
  rintro s rest ⟨m, hsm, hmrest⟩
  exact (hP s m hsm).comp (hQ m rest hmrest) fun s m rest hsm hmrest => ⟨m, hsm, hmrest⟩

theorem Local.comp (hP : Local P) (hQ : Takes may Q) :
    Takes may fun s rest => ∃ m, P s m ∧ Q m rest :=
  hP.peeks.comp hQ

theorem Takes.or (hP : Takes may P) (hQ : Takes may Q) :
    Takes may fun s rest => P s rest ∨ Q s rest := by
  rintro s rest (h | h)
  · exact (hP s rest h).imp fun s rest => .inl
  · exact (hQ s rest h).imp fun s rest => .inr

theorem Takes.exists {β : Type} {P : β → Taking} (h : ∀ b, Takes may (P b)) :
    Takes may fun s rest => ∃ b, P b s rest := by
  rintro s rest ⟨b, hP⟩
  exact (h b s rest hP).imp fun s rest hP => ⟨b, hP⟩

theorem Takes.and_right (h : Takes may P) (q : Prop) : Takes may fun s rest => P s rest ∧ q := by
  rintro s rest ⟨hP, hq⟩
  exact (h s rest hP).imp fun s rest hP => ⟨hP, hq⟩

/-- Reading may depend on the character that it starts with. -/
theorem Takes.of_cons (h : Takes may P) (p : Char → Prop) :
    Takes may fun s rest => (∃ c u, s = c :: u ∧ p c) ∧ P s rest := by
  rintro s rest ⟨⟨c, u, rfl, hc⟩, hP⟩
  obtain ⟨t, ht, hs, hagain⟩ := h _ rest hP
  cases t with
  | nil => exact absurd rfl ht
  | cons d t =>
    obtain ⟨rfl, rfl⟩ := List.cons.inj hs
    exact ⟨c :: t, ht, rfl, fun rest' hrest' => ⟨⟨c, t ++ rest', rfl, hc⟩, hagain rest' hrest'⟩⟩

theorem Takes.congr (h : Takes may P) (hPQ : ∀ s rest, Q s rest ↔ P s rest) : Takes may Q := by
  intro s rest hQ
  exact (h s rest ((hPQ s rest).1 hQ)).imp fun s rest hP => (hPQ s rest).2 hP

/-- A fixed text can be read whatever follows it. -/
theorem local_text {t : List Char} (ht : t ≠ []) : Local fun s rest => s = t ++ rest := by
  rintro s rest rfl
  exact ⟨t, ht, rfl, fun rest' _ => rfl⟩

/-! ## Blanks -/

theorem skipBlanks_cons {c : Char} (h : isBlank c = false) (s : List Char) :
    skipBlanks (c :: s) = c :: s := by
  simp [skipBlanks, h]

theorem not_isBlank_of_skipBlanks {c : Char} {t : List Char} (h : skipBlanks s = c :: t) :
    isBlank c = false := by
  induction s with
  | nil => cases h
  | cons d s ih =>
    by_cases hd : isBlank d = true
    · rw [skipBlanks, List.dropWhile_cons_of_pos hd] at h
      exact ih h
    · rw [Bool.not_eq_true] at hd
      rw [skipBlanks_cons hd] at h
      obtain rfl : d = c := (List.cons.inj h).1
      exact hd

@[simp]
theorem skipBlanks_skipBlanks (s : List Char) : skipBlanks (skipBlanks s) = skipBlanks s := by
  cases h : skipBlanks s with
  | nil => rfl
  | cons c t => exact skipBlanks_cons (not_isBlank_of_skipBlanks h) t

/-- Blanks in front of a text that starts with none. -/
theorem exists_blanks (s : List Char) :
    ∃ b, s = b ++ skipBlanks s ∧
      ∀ t rest, t ≠ [] → skipBlanks s = t ++ rest → ∀ rest', skipBlanks (b ++ (t ++ rest')) =
        t ++ rest' := by
  refine ⟨s.takeWhile isBlank, List.takeWhile_append_dropWhile.symm, ?_⟩
  intro t rest ht hs rest'
  cases t with
  | nil => exact absurd rfl ht
  | cons c t =>
    have hc : isBlank c = false := not_isBlank_of_skipBlanks hs
    have hall : ∀ b ∈ s.takeWhile isBlank, isBlank b = true := by
      intro b hb
      exact List.all_eq_true.1 List.all_takeWhile b hb
    -- the blanks go, and what is behind them starts with the same character as before
    rw [skipBlanks, List.dropWhile_append_of_pos hall]
    exact skipBlanks_cons hc _

theorem Takes.blanks (h : Takes may P) : Takes may fun s rest => P (skipBlanks s) rest := by
  intro s rest hP
  obtain ⟨t, ht, hs, hagain⟩ := h _ rest hP
  obtain ⟨b, hb, hskip⟩ := exists_blanks s
  refine ⟨b ++ t, by simp [ht], by rw [List.append_assoc, ← hs, ← hb], ?_⟩
  intro rest' hrest'
  show P (skipBlanks (b ++ t ++ rest')) rest'
  rw [List.append_assoc, hskip t rest ht hs]
  exact hagain rest' hrest'

/-- A character behind blanks. -/
theorem local_char (c : Char) : Local fun s rest => skipBlanks s = c :: rest :=
  (local_text (List.cons_ne_nil c [])).blanks

/-! ## Words and colons -/

theorem readLetters_eq_ok_iff {letters : List Char} :
    readLetters letters s = .ok rest ↔ s = letters ++ rest := by
  induction letters generalizing s with
  | nil => simp [readLetters, eq_comm]
  | cons e letters ih =>
    cases s with
    | nil => simp [readLetters]
    | cons c s =>
      by_cases hc : c = e
      · subst hc
        simp [readLetters, ih]
      · simp [readLetters, hc]

theorem readColon_eq_ok_iff : readColon s = .ok rest ↔ skipBlanks s = ':' :: rest := by
  unfold readColon
  cases skipBlanks s with
  | nil => simp
  | cons c t =>
    by_cases hc : c = ':'
    · subst hc
      simp
    · simp [hc]

theorem local_readColon : Local fun s rest => readColon s = .ok rest :=
  (local_char ':').congr fun _ _ => readColon_eq_ok_iff

end DbInventory.Json
