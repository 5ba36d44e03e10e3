import Mathlib.Algebra.Order.Ring.Int
import Mathlib.Data.Prod.Lex
import Mathlib.Order.Bounds.Basic
import Mathlib.Order.WithBot

/-!
# Rows of registers in epochs

Contents are replaced from one epoch to the next and joined within an epoch. Over
them, a row of clocked registers, each the greatest of its writes by version and
then by value: what a later epoch brings starts the row over, its registers
losing their versions but not their values.
-/
namespace SqliteSync.Library

/-- Contents and the epoch they belong to. -/
@[ext] structure Epoch (ε α : Type*) where
  epoch : ε
  content : α

namespace Epoch
variable {ε α : Type*}

section
variable [LinearOrder ε] [PartialOrder α] {x y : Epoch ε α}

instance : PartialOrder (Epoch ε α) where
  le x y := x.epoch < y.epoch ∨ x.epoch = y.epoch ∧ x.content ≤ y.content
  le_refl x := .inr ⟨rfl, le_rfl⟩
  le_trans x y z := by
    rintro (hxy | ⟨hxy, hle⟩) (hyz | ⟨hyz, hle'⟩)
    · exact .inl (hxy.trans hyz)
    · exact .inl (hyz ▸ hxy)
    · exact .inl (hxy ▸ hyz)
    · exact .inr ⟨hxy.trans hyz, hle.trans hle'⟩
  le_antisymm x y := by
    rintro (hxy | ⟨hxy, hle⟩) (hyx | ⟨hyx, hle'⟩)
    · exact absurd hyx hxy.not_gt
    · exact absurd hyx hxy.ne'
    · exact absurd hxy hyx.ne'
    · exact Epoch.ext hxy (hle.antisymm hle')

theorem le_of_lt (h : x.epoch < y.epoch) : x ≤ y := .inl h

theorem epoch_le (h : x ≤ y) : x.epoch ≤ y.epoch := by
  rcases h with h | h
  · exact h.le
  · exact h.1.le

theorem content_le (h : x ≤ y) (he : x.epoch = y.epoch) : x.content ≤ y.content := by
  rcases h with h | h
  · exact absurd he h.ne
  · exact h.2

end

section
variable [LinearOrder ε] [SemilatticeSup α]

/-- The later of two, or their join within one epoch. -/
def join (x y : Epoch ε α) : Epoch ε α :=
  if x.epoch < y.epoch then y else if y.epoch < x.epoch then x
  else ⟨x.epoch, x.content ⊔ y.content⟩

instance : SemilatticeSup (Epoch ε α) where
  sup := join
  le_sup_left x y := by
    rw [join]
    split_ifs with hxy hyx
    · exact le_of_lt hxy
    · exact le_rfl
    · exact .inr ⟨rfl, le_sup_left⟩
  le_sup_right x y := by
    rw [join]
    split_ifs with hxy hyx
    · exact le_rfl
    · exact le_of_lt hyx
    · exact .inr ⟨le_antisymm (not_lt.mp hxy) (not_lt.mp hyx), le_sup_right⟩
  sup_le x y z hx hy := by
    rw [join]
    split_ifs with hxy hyx
    · exact hy
    · exact hx
    · have he : x.epoch = y.epoch := le_antisymm (not_lt.mp hyx) (not_lt.mp hxy)
      rcases (epoch_le hx).lt_or_eq with hlt | heq
      · exact le_of_lt hlt
      · exact .inr ⟨heq, sup_le (content_le hx heq) (content_le hy (he.symm.trans heq))⟩

theorem sup_of_eq {x y : Epoch ε α} (h : x.epoch = y.epoch) :
    x ⊔ y = ⟨x.epoch, x.content ⊔ y.content⟩ := by
  change join x y = _
  rw [join, if_neg h.not_lt, if_neg h.symm.not_lt]

@[simp] theorem sup_epoch (x y : Epoch ε α) : (x ⊔ y).epoch = x.epoch ⊔ y.epoch := by
  change (join x y).epoch = _
  rw [join]
  split_ifs with hxy hyx
  · exact (sup_eq_right.mpr hxy.le).symm
  · exact (sup_eq_left.mpr hyx.le).symm
  · exact (sup_eq_left.mpr (not_lt.mp hxy)).symm

end
end Epoch

/-! ## Registers -/

/-- A register that has not been written, or a version and a value. -/
abbrev Register (ν : Type*) := WithBot (ℤ ×ₗ ν)

instance {ν : Type*} [LinearOrder ν] : PartialOrder (Register ν) := SemilatticeSup.toPartialOrder

/-- Registers under a causal length, which is odd while the row is alive. -/
abbrev CausalRow (κ ν : Type*) := Epoch ℤ (κ → Register ν)

namespace CausalRow
variable {κ ν : Type*}

/-- The value is kept, and its version starts from zero. -/
def restartRegister (a : Register ν) : Register ν := a.map fun w => toLex (0, (ofLex w).2)

variable [LinearOrder ν]

/-- A row takes in a change: one of a later length starts the row over, the registers it
writes holding what it brings. -/
def merge (x c : CausalRow κ ν) : CausalRow κ ν :=
  if x.epoch < c.epoch then
    ⟨c.epoch, fun k => if c.content k = ⊥ then
      if c.epoch % 2 = 1 then restartRegister (x.content k) else ⊥ else c.content k⟩
  else x ⊔ c

theorem merge_of_lt {x c : CausalRow κ ν} (h : x.epoch < c.epoch) :
    x.merge c = ⟨c.epoch, fun k => if c.content k = ⊥ then
      if c.epoch % 2 = 1 then restartRegister (x.content k) else ⊥ else c.content k⟩ := if_pos h

theorem merge_of_le {x c : CausalRow κ ν} (h : c.epoch ≤ x.epoch) : x.merge c = x ⊔ c :=
  if_neg h.not_gt

section
variable {x c : CausalRow κ ν} {k : κ}

theorem merge_epoch_of_lt (h : x.epoch < c.epoch) : (x.merge c).epoch = c.epoch := by
  rw [merge_of_lt h]

theorem merge_content_written (h : x.epoch < c.epoch) (hk : c.content k ≠ ⊥) :
    (x.merge c).content k = c.content k := by
  rw [merge_of_lt h]
  exact if_neg hk

theorem merge_content_restarted (h : x.epoch < c.epoch) (hodd : c.epoch % 2 = 1)
    (hk : c.content k = ⊥) : (x.merge c).content k = restartRegister (x.content k) := by
  rw [merge_of_lt h]
  exact (if_pos hk).trans (if_pos hodd)

theorem merge_content_dead (h : x.epoch < c.epoch) (heven : c.epoch % 2 = 0)
    (hk : c.content k = ⊥) : (x.merge c).content k = ⊥ := by
  rw [merge_of_lt h]
  exact (if_pos hk).trans (if_neg (by omega))

end

@[simp] theorem merge_epoch (x c : CausalRow κ ν) : (x.merge c).epoch = x.epoch ⊔ c.epoch := by
  rcases lt_or_ge x.epoch c.epoch with h | h
  · rw [merge_of_lt h, sup_eq_right.mpr h.le]
  · rw [merge_of_le h, Epoch.sup_epoch]

theorem le_merge (x c : CausalRow κ ν) : x ≤ x.merge c := by
  rcases lt_or_ge x.epoch c.epoch with h | h
  · rw [merge_of_lt h]
    exact Epoch.le_of_lt h
  · rw [merge_of_le h]
    exact le_sup_left

theorem change_le_merge (x c : CausalRow κ ν) : c ≤ x.merge c := by
  rcases lt_or_ge x.epoch c.epoch with h | h
  · rw [merge_of_lt h]
    refine .inr ⟨rfl, fun k => ?_⟩
    by_cases hk : c.content k = ⊥
    · rw [hk]
      exact bot_le
    · exact (if_neg hk).ge
  · rw [merge_of_le h]
    exact le_sup_right

/-- What the row has taken in already changes nothing, and nothing else does. -/
theorem merge_eq_self_iff {x c : CausalRow κ ν} : x.merge c = x ↔ c ≤ x := by
  constructor
  · intro h
    rw [← h]
    exact x.change_le_merge c
  · intro h
    rw [merge_of_le (Epoch.epoch_le h), sup_eq_left.mpr h]

section
variable {x t : CausalRow κ ν} {D : List (CausalRow κ ν)}

theorem le_foldl_merge (x : CausalRow κ ν) (D : List (CausalRow κ ν)) : x ≤ D.foldl merge x := by
  induction D generalizing x with
  | nil => exact le_rfl
  | cons c D ih => exact (x.le_merge c).trans (ih _)

theorem mem_le_foldl_merge {c : CausalRow κ ν} (hc : c ∈ D) (x : CausalRow κ ν) :
    c ≤ D.foldl merge x := by
  induction D generalizing x with
  | nil => cases hc
  | cons d D ih =>
    rcases List.mem_cons.mp hc with rfl | hc
    · exact (x.change_le_merge c).trans (le_foldl_merge _ D)
    · exact ih hc _

theorem foldl_merge_epoch {cl : ℤ} (hD : D ≠ []) (hepoch : ∀ c ∈ D, c.epoch = cl)
    (x : CausalRow κ ν) : (D.foldl merge x).epoch = x.epoch ⊔ cl := by
  induction D generalizing x with
  | nil => exact absurd rfl hD
  | cons c D ih =>
    have hc : c.epoch = cl := hepoch c List.mem_cons_self
    rw [List.foldl_cons]
    by_cases hnil : D = []
    · rw [hnil, List.foldl_nil, merge_epoch, hc]
    · rw [ih hnil fun d hd => hepoch d (.tail c hd), merge_epoch, hc, sup_assoc, sup_idem]

/-- Changes that start nothing over stay below whatever the row and they stay below. -/
theorem foldl_merge_le {z : CausalRow κ ν} (hepoch : ∀ c ∈ D, c.epoch ≤ x.epoch) (hx : x ≤ z)
    (hD : ∀ c ∈ D, c ≤ z) : D.foldl merge x ≤ z := by
  induction D generalizing x with
  | nil => exact hx
  | cons c D ih =>
    have hc := hepoch c List.mem_cons_self
    refine ih (fun d hd => ?_) ?_ fun d hd => hD d (.tail c hd)
    · rw [merge_epoch]
      exact le_sup_of_le_left (hepoch d (.tail c hd))
    · rw [merge_of_le hc]
      exact sup_le hx (hD c List.mem_cons_self)

theorem le_of_changes {z : CausalRow κ ν} {E : Set (CausalRow κ ν)} (hz : t.epoch ≤ z.epoch)
    (hepoch : ∀ c ∈ E, c.epoch = t.epoch)
    (hcover : ∀ k, t.content k ≠ ⊥ → ∃ c ∈ E, c.content k = t.content k) (hE : ∀ c ∈ E, c ≤ z) :
    t ≤ z := by
  rcases hz.lt_or_eq with hlt | heq
  · exact Epoch.le_of_lt hlt
  · refine .inr ⟨heq, fun k => ?_⟩
    by_cases hk : t.content k = ⊥
    · rw [hk]
      exact bot_le
    · rcases hcover k hk with ⟨c, hc, hcontent⟩
      rw [← hcontent]
      exact Epoch.content_le (hE c hc) ((hepoch c hc).trans heq) k

/-- The changes that make up a row, merged in any order, are joined with a row that none of
them starts over. -/
theorem foldl_merge_eq (hx : t.epoch ≤ x.epoch) (hepoch : ∀ c ∈ D, c.epoch = t.epoch)
    (hle : ∀ c ∈ D, c ≤ t)
    (hcover : ∀ k, t.content k ≠ ⊥ → ∃ c ∈ D, c.content k = t.content k) :
    D.foldl merge x = x ⊔ t := by
  apply le_antisymm
  · apply foldl_merge_le
    · exact fun c hc => (hepoch c hc).trans_le hx
    · exact le_sup_left
    · exact fun c hc => (hle c hc).trans le_sup_right
  · apply sup_le (le_foldl_merge x D)
    apply le_of_changes (E := {c | c ∈ D}) (hx.trans (Epoch.epoch_le (le_foldl_merge x D)))
      hepoch hcover
    exact fun c hc => mem_le_foldl_merge hc x

end
end CausalRow
end SqliteSync.Library
