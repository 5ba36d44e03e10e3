import Mathlib.Tactic

/-!
# Transcripts

A machine answers every event. The transcript of a run lists the events with their
answers, and tells what stands after it: what some event added and none removed since.
-/
namespace SqliteSync.Library
variable {S E O : Type*}

/-- The state after a list of events. -/
def finalState (step : S → E → O × S) (s : S) (events : List E) : S :=
  events.foldl (fun s e => (step s e).2) s

/-- The events with their answers. -/
def transcript (step : S → E → O × S) : S → List E → List (E × O)
  | _, [] => []
  | s, e :: events => (e, (step s e).1) :: transcript step (step s e).2 events

/-- Something was added, and not removed since. -/
def Stands (adds removes : E × O → Prop) (log : List (E × O)) : Prop :=
  ∃ old x new, log = old ++ x :: new ∧ adds x ∧ ∀ y ∈ new, ¬ removes y

variable {adds removes : E × O → Prop}

theorem not_stands_nil : ¬ Stands adds removes [] := by
  rintro ⟨old, x, new, hlog, -⟩
  simp at hlog

theorem stands_cons (x : E × O) (log : List (E × O)) :
    Stands adds removes (x :: log) ↔
      Stands adds removes log ∨ adds x ∧ ∀ y ∈ log, ¬ removes y := by
  constructor
  · rintro ⟨old, z, new, hlog, hadds, hnew⟩
    cases old with
    | nil =>
      rw [List.nil_append, List.cons.injEq] at hlog
      rcases hlog with ⟨rfl, rfl⟩
      exact .inr ⟨hadds, hnew⟩
    | cons w old =>
      rw [List.cons_append, List.cons.injEq] at hlog
      exact .inl ⟨old, z, new, hlog.2, hadds, hnew⟩
  · rintro (⟨old, z, new, rfl, hadds, hnew⟩ | ⟨hadds, hnew⟩)
    · exact ⟨x :: old, z, new, rfl, hadds, hnew⟩
    · exact ⟨[], x, log, rfl, hadds, hnew⟩

section
variable {step : S → E → O × S} {I Q : S → Prop}

theorem finalState_invariant (hstep : ∀ s e, I s → I (step s e).2) {s : S} (hs : I s)
    (events : List E) : I (finalState step s events) := by
  induction events generalizing s with
  | nil => exact hs
  | cons e events ih => exact ih (hstep s e hs)

/-- What every step adds or keeps holds at the end exactly when it stands, or held at the
start and was never removed. -/
theorem holds_finalState_iff (hI : ∀ s e, I s → I (step s e).2)
    (hstep : ∀ s e, I s → (Q (step s e).2 ↔
      adds (e, (step s e).1) ∨ Q s ∧ ¬ removes (e, (step s e).1)))
    {s : S} (hs : I s) (events : List E) :
    Q (finalState step s events) ↔ Stands adds removes (transcript step s events) ∨
      Q s ∧ ∀ y ∈ transcript step s events, ¬ removes y := by
  induction events generalizing s with
  | nil => simp [finalState, transcript, not_stands_nil]
  | cons e events ih =>
    have hrun : finalState step s (e :: events) = finalState step (step s e).2 events := rfl
    rw [hrun, ih (hI s e hs), hstep s e hs, transcript, stands_cons, List.forall_mem_cons]
    tauto

end
end SqliteSync.Library
