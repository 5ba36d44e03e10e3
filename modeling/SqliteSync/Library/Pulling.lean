import Mathlib.Data.Set.Insert
import Mathlib.Order.Lattice
import Mathlib.Logic.Function.Basic

/-!
# Pulling a log by a cursor

Nodes keep entries under stamps, and read each other's. A reader asks for what is
stamped above its cursor, and moves the cursor to the last stamp of the answer, which
may be lost, delayed, taken twice or overtaken by a later one. As long as a writer
stamps what it changes above all it has answered, a reader knows what is stamped up to
its cursor.
-/
namespace SqliteSync.Library
variable {ι σ ε V : Type*}

/-- What readers see of a node: its entries and their stamps, the stamps it has left
behind, and the entries it knows itself. -/
structure Log (σ ε V : Type*) where
  stamp : ε → V
  entry : σ → ε → Prop
  past : σ → V → Prop
  knows : σ → ε → Prop

/-- The entries of a writer from a cursor up to a stamp. -/
structure Answer (ι ε V : Type*) where
  reader : ι
  writer : ι
  lower : V
  upper : V
  entries : Set ε

structure Pulling (ι σ ε V : Type*) where
  node : ι → σ
  cursor : ι → ι → V
  answers : Set (Answer ι ε V)

namespace Log
section
variable [LE V] (L : Log σ ε V)

/-- What a node does, as far as readers are concerned: an entry whose stamp it has left
behind was there before, and what it knew it knows. -/
structure Advances (s t : σ) : Prop where
  past : ∀ v, L.past s v → L.past t v
  entry : ∀ v e, L.past s v → L.entry t e → L.stamp e ≤ v → L.entry s e
  knows : ∀ e, L.knows s e → L.knows t e

variable {L} {s t u : σ}

theorem Advances.refl (s : σ) : L.Advances s s := ⟨fun _ h => h, fun _ _ _ h _ => h, fun _ h => h⟩

theorem Advances.trans (h : L.Advances s t) (h' : L.Advances t u) : L.Advances s u where
  past v hv := h'.past v (h.past v hv)
  entry v e hv he hle := h.entry v e hv (h'.entry v e (h.past v hv) he hle) hle
  knows e he := h'.knows e (h.knows e he)

end

section
variable [LinearOrder V] [DecidableEq ι]

/-- The cursors once an answer is taken. -/
def movedCursor (x : Pulling ι σ ε V) (a : Answer ι ε V) (k l : ι) : V :=
  if k = a.reader ∧ l = a.writer then x.cursor k l ⊔ a.upper else x.cursor k l

theorem le_movedCursor (x : Pulling ι σ ε V) (a : Answer ι ε V) (k l : ι) :
    x.cursor k l ≤ movedCursor x a k l := by
  rw [movedCursor]
  split_ifs
  · exact le_sup_left
  · exact le_rfl

variable (L : Log σ ε V)

inductive Step : Pulling ι σ ε V → Pulling ι σ ε V → Prop
  | own {x : Pulling ι σ ε V} (k : ι) {t : σ} (h : L.Advances (x.node k) t) :
      Step x { x with node := Function.update x.node k t }
  | answer {x : Pulling ι σ ε V} (k l : ι) {upper : V} {E : Set ε}
      (hpast : L.past (x.node l) upper)
      (hE : ∀ e, L.entry (x.node l) e → x.cursor k l < L.stamp e → L.stamp e ≤ upper → e ∈ E) :
      Step x { x with answers := insert ⟨k, l, x.cursor k l, upper, E⟩ x.answers }
  | take {x : Pulling ι σ ε V} (a : Answer ι ε V) (ha : a ∈ x.answers) {t : σ}
      (h : L.Advances (x.node a.reader) t) (hE : ∀ e ∈ a.entries, L.knows t e) :
      Step x { x with node := Function.update x.node a.reader t, cursor := movedCursor x a }

/-- Cursors stand at stamps left behind, and up to them everything is known. So it is for
the answers, from where they begin. -/
structure Covered (x : Pulling ι σ ε V) : Prop where
  past : ∀ k l, L.past (x.node l) (x.cursor k l)
  known : ∀ k l e, L.entry (x.node l) e → L.stamp e ≤ x.cursor k l → L.knows (x.node k) e
  lower : ∀ a ∈ x.answers, a.lower ≤ x.cursor a.reader a.writer
  upper : ∀ a ∈ x.answers, L.past (x.node a.writer) a.upper
  entries : ∀ a ∈ x.answers, ∀ e, L.entry (x.node a.writer) e → a.lower < L.stamp e →
    L.stamp e ≤ a.upper → e ∈ a.entries

variable {L} {x y : Pulling ι σ ε V}

theorem Covered.own (h : L.Covered x) (k : ι) {t : σ} (ht : L.Advances (x.node k) t) :
    L.Covered { x with node := Function.update x.node k t } := by
  have hnode : ∀ l, L.Advances (x.node l) (Function.update x.node k t l) := by
    intro l
    rw [Function.update_apply]
    split_ifs with hl
    · exact hl ▸ ht
    · exact .refl _
  constructor
  · intro j l
    exact (hnode l).past _ (h.past j l)
  · intro j l e he hle
    apply (hnode j).knows
    exact h.known j l e ((hnode l).entry _ e (h.past j l) he hle) hle
  · exact h.lower
  · intro a ha
    exact (hnode a.writer).past _ (h.upper a ha)
  · intro a ha e he hlt hle
    exact h.entries a ha e ((hnode a.writer).entry _ e (h.upper a ha) he hle) hlt hle

/-- What an answer brings lies between the cursor it was given and its last stamp, and the
cursor may have moved on since. -/
theorem Covered.take (h : L.Covered x) {a : Answer ι ε V} (ha : a ∈ x.answers)
    (hE : ∀ e ∈ a.entries, L.knows (x.node a.reader) e) :
    L.Covered { x with cursor := movedCursor x a } := by
  constructor
  · intro k l
    dsimp only
    rw [movedCursor]
    split_ifs with hkl
    · rcases hkl with ⟨rfl, rfl⟩
      rcases le_total (x.cursor a.reader a.writer) a.upper with hle | hle
      · rw [sup_eq_right.mpr hle]
        exact h.upper a ha
      · rw [sup_eq_left.mpr hle]
        exact h.past a.reader a.writer
    · exact h.past k l
  · intro k l e he hle
    by_cases hold : L.stamp e ≤ x.cursor k l
    · exact h.known k l e he hold
    -- the cursor has moved over the entry, so the answer brought it
    dsimp only at hle
    rw [movedCursor] at hle
    split_ifs at hle with hkl
    · rcases hkl with ⟨rfl, rfl⟩
      apply hE
      apply h.entries a ha e he ((h.lower a ha).trans_lt (not_le.mp hold))
      exact (le_sup_iff.mp hle).resolve_left hold
    · exact absurd hle hold
  · intro b hb
    exact (h.lower b hb).trans (le_movedCursor x a b.reader b.writer)
  · exact h.upper
  · exact h.entries

/-- No step moves a cursor over an entry its reader does not know. -/
theorem Covered.step (h : L.Covered x) (hs : L.Step x y) : L.Covered y := by
  cases hs with
  | own k ht => exact h.own k ht
  | answer k l hpast hE =>
    refine ⟨h.past, h.known, ?_, ?_, ?_⟩
    · rintro a (rfl | ha)
      · exact le_rfl
      · exact h.lower a ha
    · rintro a (rfl | ha)
      · exact hpast
      · exact h.upper a ha
    · rintro a (rfl | ha)
      · exact hE
      · exact h.entries a ha
  | take a ha ht hE =>
    apply (h.own a.reader ht).take ha
    intro e he
    dsimp only
    rw [Function.update_self]
    exact hE e he

end
end Log
end SqliteSync.Library
