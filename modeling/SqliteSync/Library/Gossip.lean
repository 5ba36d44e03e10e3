import Mathlib.Data.Set.Lattice
import Mathlib.Order.Bounds.Basic

/-!
# Gossip

Nodes take in, one exchange at a time, what another node holds. Where taking in is
a join, a node holds the least upper bound of what the nodes it has heard of, directly
or through others, held at the start.
-/
namespace SqliteSync.Library
variable {ι σ S : Type*} [DecidableEq ι]

/-- A run of exchanges, each of a receiving and a sending node. What the receiver holds
after an exchange is not determined by what the two held. -/
inductive Exchanges (takes : σ → σ → σ → Prop) : (ι → σ) → List (ι × ι) → (ι → σ) → Prop
  | nil (s : ι → σ) : Exchanges takes s [] s
  | cons {s u : ι → σ} {i j : ι} {t : σ} {events : List (ι × ι)} (ht : takes (s i) (s j) t)
      (h : Exchanges takes (Function.update s i t) events u) : Exchanges takes s ((i, j) :: events) u

/-- Whom the nodes have heard of after some exchanges, when they had heard of `h`. -/
def heardFrom (h : ι → Set ι) : List (ι × ι) → ι → Set ι
  | [] => h
  | (i, j) :: events => heardFrom (Function.update h i (h i ∪ h j)) events

/-- Whom the nodes have heard of, each knowing of itself. -/
def heard (events : List (ι × ι)) : ι → Set ι := heardFrom (fun i => {i}) events

namespace Exchanges
variable {takes : σ → σ → σ → Prop} {s u : ι → σ} {events : List (ι × ι)}

theorem invariant {I : σ → Prop} (hstep : ∀ x y t, I x → I y → takes x y t → I t)
    (h : Exchanges takes s events u) (hs : ∀ i, I (s i)) : ∀ i, I (u i) := by
  induction h with
  | nil s => exact hs
  | @cons s u i j t events ht h ih =>
    apply ih
    intro k
    rw [Function.update_apply]
    split_ifs with hk
    · exact hstep _ _ _ (hs i) (hs j) ht
    · exact hs k

variable [SemilatticeSup S]

theorem isLUB_heardFrom {I : σ → Prop} {f : σ → S} {start : ι → S}
    (hstep : ∀ x y t, I x → I y → takes x y t → I t ∧ f t = f x ⊔ f y)
    (h : Exchanges takes s events u) (hs : ∀ i, I (s i)) {known : ι → Set ι}
    (hknown : ∀ i, IsLUB (start '' known i) (f (s i))) (i : ι) :
    IsLUB (start '' heardFrom known events i) (f (u i)) := by
  induction h generalizing known with
  | nil s => exact hknown i
  | @cons s u i' j t events ht h ih =>
    rcases hstep _ _ _ (hs i') (hs j) ht with ⟨hI, hf⟩
    apply ih
    · intro k
      rw [Function.update_apply]
      split_ifs with hk
      · exact hI
      · exact hs k
    · intro k
      rw [Function.update_apply, Function.update_apply]
      split_ifs with hk
      · rw [Set.image_union, hf]
        exact (hknown i').union (hknown j)
      · exact hknown k

theorem isLUB_heard {I : σ → Prop} {f : σ → S}
    (hstep : ∀ x y t, I x → I y → takes x y t → I t ∧ f t = f x ⊔ f y)
    (h : Exchanges takes s events u) (hs : ∀ i, I (s i)) (i : ι) :
    IsLUB ((fun j => f (s j)) '' heard events i) (f (u i)) := by
  apply h.isLUB_heardFrom hstep hs
  intro j
  rw [Set.image_singleton]
  exact isLUB_singleton

theorem abs_eq_of_heard {I : σ → Prop} {f : σ → S}
    (hstep : ∀ x y t, I x → I y → takes x y t → I t ∧ f t = f x ⊔ f y)
    (h : Exchanges takes s events u) (hs : ∀ i, I (s i)) {i j : ι}
    (hij : heard events i = heard events j) : f (u i) = f (u j) := by
  have hi := h.isLUB_heard hstep hs i
  rw [hij] at hi
  exact hi.unique (h.isLUB_heard hstep hs j)

end Exchanges
end SqliteSync.Library
