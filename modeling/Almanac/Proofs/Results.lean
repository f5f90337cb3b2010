import Mathlib.Logic.Basic

/-! What is known of the steps of a computation that can fail, from how it ends. -/

namespace Almanac
variable {α β ε : Type} {x : Except ε α} {y : β} {e : ε}

theorem ok_of_bind {f : α → Except ε β} (h : (x >>= f) = .ok y) : ∃ a, x = .ok a ∧ f a = .ok y := by
  cases x with
  | error e => cases h
  | ok a => exact ⟨a, rfl, h⟩

theorem ok_of_map {f : α → β} (h : x.map f = .ok y) : ∃ a, x = .ok a ∧ f a = y := by
  cases x with
  | error e => cases h
  | ok a => exact ⟨a, rfl, Except.ok.inj h⟩

/-! ### Failures -/

/-- Every failure that a computation can end in has a property. -/
def FailsOnly (P : ε → Prop) (x : Except ε α) : Prop := ∀ e, x = .error e → P e

section
variable {P Q : ε → Prop} {a : α}

@[simp] theorem failsOnly_ok : FailsOnly P (.ok a : Except ε α) := fun _ h => by cases h

@[simp] theorem failsOnly_error : FailsOnly P (.error e : Except ε α) ↔ P e :=
  ⟨fun h => h e rfl, fun h _ he => by cases he; exact h⟩

@[simp] theorem failsOnly_map {g : α → β} : FailsOnly P (x.map g) ↔ FailsOnly P x := by
  cases x <;> simp [Except.map]

@[simp] theorem failsOnly_bind {f : α → Except ε β} :
    FailsOnly P (x >>= f) ↔ FailsOnly P x ∧ ∀ a, x = .ok a → FailsOnly P (f a) := by
  cases x <;> simp [bind, Except.bind]

theorem FailsOnly.mono (h : FailsOnly P x) (hPQ : ∀ e, P e → Q e) : FailsOnly Q x :=
  fun e he => hPQ e (h e he)

end

end Almanac
