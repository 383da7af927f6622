import Mathlib.Tactic.TypeStar

/-!
# Results of computations that can fail

A computation made of parts has a result just if its parts have one.
-/

namespace EmbeddedMarkup

universe u

variable {ε ε' : Type*} {α β : Type u}

theorem bind_eq_ok {x : Except ε α} {f : α → Except ε β} {b : β} :
    (x >>= f) = .ok b ↔ ∃ a, x = .ok a ∧ f a = .ok b := by
  cases x <;> simp [bind, Except.bind]

theorem bind_eq_error {x : Except ε α} {f : α → Except ε β} {e : ε} :
    (x >>= f) = .error e ↔ x = .error e ∨ ∃ a, x = .ok a ∧ f a = .error e := by
  cases x <;> simp [bind, Except.bind]

theorem map_eq_error {x : Except ε α} {f : α → β} {e : ε} : x.map f = .error e ↔ x = .error e := by
  cases x <;> simp [Except.map]

theorem pure_eq_ok {a b : α} : (pure a : Except ε α) = .ok b ↔ a = b := by
  simp [pure, Except.pure]

theorem mapError_eq_ok {x : Except ε α} {f : ε → ε'} {a : α} :
    x.mapError f = .ok a ↔ x = .ok a := by
  cases x with
  | error e => exact iff_of_false (fun h => by cases h) (fun h => by cases h)
  | ok b =>
      constructor
      · intro h
        rw [Except.ok.inj h]
      · intro h
        rw [Except.ok.inj h]
        rfl

theorem eq_ok_of_toOption {x : Except ε α} {a : α} (h : x.toOption = some a) : x = .ok a := by
  cases x with
  | error e => simp [Except.toOption] at h
  | ok b => rw [Option.some.inj h]

theorem exists_eq_ok {x : Except ε α} (h : x.toOption.isSome = true) : ∃ a, x = .ok a := by
  cases x with
  | error e => simp [Except.toOption] at h
  | ok a => exact ⟨a, rfl⟩

/-- The result of the first attempt that has one. -/
def firstFound (b : α) : List (Except ε (Option α)) → Except ε α
  | [] => return b
  | x :: xs => do
      if let some a ← x then return a
      firstFound b xs

section FirstFound

variable {x : Except ε (Option α)} {xs : List (Except ε (Option α))} {a b : α} {e : ε}

theorem firstFound_eq_ok :
    firstFound b (x :: xs) = .ok a ↔ x = .ok (some a) ∨
      (x = .ok none ∧ firstFound b xs = .ok a) := by
  rcases x with e | - | c <;> simp [firstFound, bind, Except.bind, pure, Except.pure]

theorem firstFound_eq_error :
    firstFound b (x :: xs) = .error e ↔ x = .error e ∨
      (x = .ok none ∧ firstFound b xs = .error e) := by
  rcases x with e | - | c <;> simp [firstFound, bind, Except.bind, pure, Except.pure]

end FirstFound

end EmbeddedMarkup
