import Mathlib.Tactic

/-!
# Runs of a state machine

A machine is a partial step function on a state under an event. The states it
reaches, under a restriction on the steps taken, satisfy whatever holds at the
start and is kept by every such step.
-/
namespace SqliteSync.Library

/-- The states reached from an initial one by steps all of which are allowed. -/
inductive Reachable {S E : Type*} (step : S → E → Option S) (init : S → Prop)
    (allowed : S → E → Prop) : S → Prop
  | start {s : S} (h : init s) : Reachable step init allowed s
  | next {s t : S} (hs : Reachable step init allowed s) (e : E) (he : allowed s e)
      (ht : step s e = some t) : Reachable step init allowed t

namespace Reachable
variable {S E : Type*} {step : S → E → Option S} {init : S → Prop} {allowed : S → E → Prop}

theorem invariant {I : S → Prop} (hinit : ∀ s, init s → I s)
    (hstep : ∀ s e t, I s → allowed s e → step s e = some t → I t) {s : S}
    (h : Reachable step init allowed s) : I s := by
  induction h with
  | start h => exact hinit _ h
  | next _ e he ht ih => exact hstep _ e _ ih he ht

/-- The simulation rule: on states that satisfy `I`, each allowed step of one machine is an
allowed step of another one between what the states stand for. -/
theorem simulates {T F : Type*} {step' : T → F → Option T} {init' : T → Prop}
    {allowed' : T → F → Prop} {abs : S → T} {I : S → Prop}
    (hinit : ∀ s, init s → I s ∧ init' (abs s))
    (hstep : ∀ s e t, Reachable step' init' allowed' (abs s) → I s → allowed s e →
      step s e = some t → I t ∧ ∃ f, allowed' (abs s) f ∧ step' (abs s) f = some (abs t)) {s : S}
    (h : Reachable step init allowed s) : I s ∧ Reachable step' init' allowed' (abs s) := by
  induction h with
  | start h => exact ⟨(hinit _ h).1, .start (hinit _ h).2⟩
  | next _ e he ht ih =>
    rcases hstep _ e _ ih.2 ih.1 he ht with ⟨hI, f, hf, hft⟩
    exact ⟨hI, ih.2.next f hf hft⟩

theorem mono {allowed' : S → E → Prop} (hle : ∀ s e, allowed s e → allowed' s e) {s : S}
    (h : Reachable step init allowed s) : Reachable step init allowed' s := by
  induction h with
  | start h => exact .start h
  | next _ e he ht ih => exact .next ih e (hle _ e he) ht

theorem trans {s t : S} (hs : Reachable step init allowed s)
    (ht : Reachable step (fun u => u = s) allowed t) : Reachable step init allowed t := by
  induction ht with
  | start h => exact h ▸ hs
  | next _ e he ht ih => exact ih.next e he ht

theorem next_get {s : S} (hs : Reachable step init allowed s) (e : E) (he : allowed s e)
    (h : (step s e).isSome) : Reachable step init allowed ((step s e).get h) :=
  hs.next e he (Option.some_get h).symm

section
variable [∀ s e, Decidable (allowed s e)]

/-- The state after a list of events, as long as each is allowed and enabled. -/
def runs (step : S → E → Option S) (allowed : S → E → Prop) [∀ s e, Decidable (allowed s e)] :
    S → List E → Option S
  | s, [] => some s
  | s, e :: events => if allowed s e then (step s e).bind (fun t => runs step allowed t events)
    else none

theorem of_runs {s t : S} (hs : Reachable step init allowed s) {events : List E}
    (h : runs step allowed s events = some t) : Reachable step init allowed t := by
  induction events generalizing s with
  | nil =>
    cases h
    exact hs
  | cons e events ih =>
    rw [runs, Option.ite_none_right_eq_some, Option.bind_eq_some_iff] at h
    rcases h with ⟨he, u, hu, ht⟩
    exact ih (hs.next e he hu) ht

/-- A list of events that can be evaluated, with what is checked of its last state. -/
theorem exists_of_runs (step : S → E → Option S) (init : S → Prop) (allowed : S → E → Prop)
    [∀ s e, Decidable (allowed s e)] {s : S} (hs : init s) (events : List E) (p : S → Bool)
    (h : (runs step allowed s events).any p = true) :
    ∃ t, Reachable step init allowed t ∧ p t = true := by
  cases ht : runs step allowed s events with
  | none =>
    rw [ht] at h
    cases h
  | some t =>
    rw [ht] at h
    exact ⟨t, of_runs (.start hs) ht, h⟩

end
end Reachable
end SqliteSync.Library
