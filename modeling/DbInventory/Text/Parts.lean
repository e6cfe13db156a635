/-
# DbInventory.Text.Parts -- texts between separators

Paths, table cells and addresses are lists of parts with a separator between them. A text
always has one part more than separators, so an empty text has one empty part.
-/

namespace DbInventory.Text

/-- The parts between separators. -/
def parts (separator : Char) : List Char → List (List Char)
  | [] => [[]]
  | c :: s =>
    if c = separator then [] :: parts separator s
    else
      match parts separator s with
      | [] => [[c]]
      | p :: ps => (c :: p) :: ps

/-- Parts with a separator between them. -/
def joinParts (separator : Char) : List (List Char) → List Char
  | [] => []
  | [p] => p
  | p :: q :: ps => p ++ separator :: joinParts separator (q :: ps)

theorem parts_ne_nil (separator : Char) (s : List Char) : parts separator s ≠ [] := by
  cases s with
  | nil => simp [parts]
  | cons c s =>
    simp only [parts]
    split
    · simp
    · split <;> simp

/-- A text around a separator has the parts of both sides. -/
theorem parts_append (separator : Char) (s t : List Char) :
    parts separator (s ++ separator :: t) = parts separator s ++ parts separator t := by
  induction s with
  | nil => simp [parts]
  | cons c s ih =>
    rw [List.cons_append, parts, parts, ih]
    split
    next => rfl
    next =>
      cases hp : parts separator s with
      | nil => exact absurd hp (parts_ne_nil separator s)
      | cons p ps => rfl

theorem parts_of_not_mem {separator : Char} {s : List Char} (h : separator ∉ s) :
    parts separator s = [s] := by
  induction s with
  | nil => rfl
  | cons c s ih =>
    rw [List.mem_cons, not_or] at h
    rw [parts, if_neg (Ne.symm h.1), ih h.2]

/-- Parts without a separator in them are got back. -/
theorem parts_joinParts {separator : Char} {ps : List (List Char)} (hne : ps ≠ [])
    (h : ∀ p ∈ ps, separator ∉ p) : parts separator (joinParts separator ps) = ps := by
  induction ps with
  | nil => exact absurd rfl hne
  | cons p ps ih =>
    obtain ⟨hp, hps⟩ := List.forall_mem_cons.1 h
    cases ps with
    | nil => exact parts_of_not_mem hp
    | cons q ps =>
      rw [joinParts, parts_append, parts_of_not_mem hp, ih (by simp) hps, List.singleton_append]

theorem mem_joinParts {separator c : Char} {ps : List (List Char)}
    (h : c ∈ joinParts separator ps) : c = separator ∨ ∃ p ∈ ps, c ∈ p := by
  induction ps with
  | nil => simp [joinParts] at h
  | cons p ps ih =>
    cases ps with
    | nil => exact .inr ⟨p, by simp, h⟩
    | cons q ps =>
      rw [joinParts, List.mem_append, List.mem_cons] at h
      rcases h with hp | hc | hps
      · exact .inr ⟨p, by simp, hp⟩
      · exact .inl hc
      · exact (ih hps).imp_right fun ⟨r, hr, hc⟩ => ⟨r, List.mem_cons_of_mem _ hr, hc⟩

/-- No part holds a separator. -/
theorem not_mem_of_mem_parts {separator : Char} {s p : List Char}
    (h : p ∈ parts separator s) : separator ∉ p := by
  induction s generalizing p with
  | nil => simp_all [parts]
  | cons c s ih =>
    simp only [parts] at h
    split at h
    next =>
      rcases List.mem_cons.1 h with rfl | hmem
      · simp
      · exact ih hmem
    next hc =>
      cases hp : parts separator s with
      | nil => exact absurd hp (parts_ne_nil separator s)
      | cons q qs =>
        rw [hp] at h ih
        rcases List.mem_cons.1 h with rfl | hmem
        · have := ih (p := q) (by simp)
          simp only [List.mem_cons, not_or]
          exact ⟨fun heq => hc heq.symm, this⟩
        · exact ih (List.mem_cons_of_mem _ hmem)

end DbInventory.Text
