import Mathlib.Tactic

/-!
# Agreement along a run

A concrete machine agrees with an abstract one along a run when its state stands for
the abstract state at the start and after every step.
-/
namespace SqliteSync.Library
variable {S M E : Type*}

/-- The condition holds of every step of a run, in the state it is taken in. -/
def Throughout (step : S → E → S) (p : S → E → Prop) : S → List E → Prop
  | _, [] => True
  | s, e :: events => p s e ∧ Throughout step p (step s e) events

/-- The state stands for the abstract state all along a run. -/
def Agrees (step : S → E → S) (spec : M → E → M) (abs : S → M) : S → M → List E → Prop
  | s, m, [] => abs s = m
  | s, m, e :: events => abs s = m ∧ Agrees step spec abs (step s e) (spec m e) events

theorem Agrees.start {step : S → E → S} {spec : M → E → M} {abs : S → M} {s : S} {m : M}
    {events : List E} (h : Agrees step spec abs s m events) : abs s = m := by
  cases events with
  | nil => exact h
  | cons e events => exact h.1

/-- Where a step is right exactly under a condition, a run is right exactly when
all of its steps meet it. -/
theorem agrees_iff {step : S → E → S} {spec : M → E → M} {abs : S → M} {p : S → E → Prop}
    (hstep : ∀ s e, abs (step s e) = spec (abs s) e ↔ p s e) (s : S) (events : List E) :
    Agrees step spec abs s (abs s) events ↔ Throughout step p s events := by
  induction events generalizing s with
  | nil => exact iff_of_true rfl trivial
  | cons e events ih =>
    rw [Agrees, Throughout, ← hstep, ← ih]
    constructor
    · rintro ⟨-, h⟩
      have he := h.start
      exact ⟨he, he ▸ h⟩
    · rintro ⟨he, h⟩
      exact ⟨rfl, he ▸ h⟩

theorem Agrees.last {step : S → E → S} {spec : M → E → M} {abs : S → M} {s : S} {m : M}
    {events : List E} (h : Agrees step spec abs s m events) :
    abs (events.foldl step s) = events.foldl spec m := by
  induction events generalizing s m with
  | nil => exact h
  | cons e events ih => exact ih h.2

end SqliteSync.Library
