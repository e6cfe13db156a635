/-
# DbInventory.Proofs.Except -- steps that may fail

A sequence of steps ends well exactly if each of its steps does. Runs are taken apart step by
step with `bind_eq_ok`, and a result is looked at through `toOption_eq_some_iff`, behind a
function with `map_eq_ok_iff`, or under another kind of error with `mapError_eq_ok_iff`.
-/

namespace DbInventory

variable {ε ε' α β : Type} {m : Except ε α} {x : α}

theorem bind_eq_ok {f : α → Except ε β} {y : β} :
    (m >>= f) = .ok y ↔ ∃ x, m = .ok x ∧ f x = .ok y := by
  cases m with
  | error e =>
    constructor
    · intro h
      cases h
    · rintro ⟨x, h, -⟩
      cases h
  | ok x =>
    constructor
    · intro h
      exact ⟨x, rfl, h⟩
    · rintro ⟨y, h, hf⟩
      cases h
      exact hf

/-- A step that only makes something of the first part of what another one gives. -/
theorem bind_fst_eq_ok {γ : Type} {m : Except ε (α × γ)} {g : α → β} {y : β} {rest : γ} :
    (m >>= fun p => .ok (g p.1, p.2)) = .ok (y, rest) ↔ ∃ x, m = .ok (x, rest) ∧ y = g x := by
  rw [bind_eq_ok]
  constructor
  · rintro ⟨⟨x, rest⟩, hx, h⟩
    cases h
    exact ⟨x, hx, rfl⟩
  · rintro ⟨x, hx, rfl⟩
    exact ⟨(x, rest), hx, rfl⟩

theorem map_eq_ok_iff {f : α → β} {y : β} : m.map f = .ok y ↔ ∃ x, m = .ok x ∧ f x = y := by
  cases m with
  | error e => simp [Except.map]
  | ok x => simp [Except.map]

theorem map_eq_error_iff {f : α → β} {e : ε} : m.map f = .error e ↔ m = .error e := by
  cases m with
  | error e' => simp [Except.map]
  | ok x => simp [Except.map]

theorem toOption_eq_some_iff : m.toOption = some x ↔ m = .ok x := by
  cases m with
  | error e => simp [Except.toOption]
  | ok y => simp [Except.toOption]

theorem mapError_eq_ok_iff {f : ε → ε'} : m.mapError f = .ok x ↔ m = .ok x := by
  cases m with
  | error e =>
    constructor
    · intro h
      cases h
    · intro h
      cases h
  | ok y =>
    constructor
    · intro h
      cases h
      rfl
    · intro h
      cases h
      rfl

end DbInventory
