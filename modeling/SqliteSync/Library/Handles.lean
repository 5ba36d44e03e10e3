import Mathlib.Tactic

/-!
# Handles

A handle is acquired fresh and must be released once. Owners hold at most one handle each;
they are held properly if the live ones are exactly those that some owner holds, each by
one owner.
-/
namespace SqliteSync.Library

/-- The handles that are live, and the next one. -/
structure Handles where
  live : Finset ℕ
  fresh : ℕ

namespace Handles

def acquire (x : Handles) : Handles := ⟨insert x.fresh x.live, x.fresh + 1⟩

/-- `none` is the release of a handle that is not live. -/
def release (x : Handles) (id : ℕ) : Option Handles :=
  if id ∈ x.live then some { x with live := x.live.erase id } else none

/-- Owners hold the live handles, each one by one of them. -/
structure Held {κ : Type*} (x : Handles) (held : κ → Option ℕ) : Prop where
  live : ∀ id, id ∈ x.live ↔ ∃ k, held k = some id
  unique : ∀ k l id, held k = some id → held l = some id → k = l
  old : ∀ id ∈ x.live, id < x.fresh

namespace Held
variable {κ : Type*} {x : Handles} {held : κ → Option ℕ} {k : κ}

theorem ne_fresh (h : x.Held held) (l : κ) : held l ≠ some x.fresh := by
  intro hl
  exact absurd (h.old _ ((h.live _).mpr ⟨l, hl⟩)) (lt_irrefl _)

section
variable [DecidableEq κ]

theorem acquire (h : x.Held held) (hk : held k = none) :
    x.acquire.Held (Function.update held k (some x.fresh)) := by
  refine ⟨fun id => ?_, fun l l' id hl hl' => ?_, fun id hid => ?_⟩
  · rw [Handles.acquire, Finset.mem_insert, h.live]
    constructor
    · rintro (rfl | ⟨l, hl⟩)
      · exact ⟨k, Function.update_self _ _ _⟩
      · refine ⟨l, ?_⟩
        rw [Function.update_of_ne, hl]
        rintro rfl
        cases hk.symm.trans hl
    · rintro ⟨l, hl⟩
      rw [Function.update_apply] at hl
      split_ifs at hl
      · exact .inl (Option.some.inj hl).symm
      · exact .inr ⟨l, hl⟩
  · rw [Function.update_apply] at hl hl'
    split_ifs at hl hl' with hlk hlk' hlk'
    · exact hlk.trans hlk'.symm
    · exact absurd (hl'.trans hl.symm) (h.ne_fresh l')
    · exact absurd (hl.trans hl'.symm) (h.ne_fresh l)
    · exact h.unique l l' id hl hl'
  · rcases Finset.mem_insert.mp hid with rfl | hid
    · exact Nat.lt_succ_self _
    · exact (h.old id hid).trans (Nat.lt_succ_self _)

theorem release (h : x.Held held) {id : ℕ} (hk : held k = some id) :
    ∃ y, x.release id = some y ∧ y.Held (Function.update held k none) := by
  refine ⟨_, if_pos ((h.live id).mpr ⟨k, hk⟩), fun id' => ?_, fun l l' id' hl hl' => ?_,
    fun id' hid => h.old id' (Finset.mem_of_mem_erase hid)⟩
  · rw [Finset.mem_erase, h.live]
    constructor
    · rintro ⟨hne, l, hl⟩
      refine ⟨l, ?_⟩
      rw [Function.update_of_ne, hl]
      rintro rfl
      exact hne (Option.some.inj (hl.symm.trans hk))
    · rintro ⟨l, hl⟩
      rw [Function.update_apply] at hl
      split_ifs at hl with hlk
      refine ⟨?_, l, hl⟩
      rintro rfl
      exact hlk (h.unique l k id' hl hk)
  · rw [Function.update_apply] at hl hl'
    split_ifs at hl hl'
    exact h.unique l l' id' hl hl'

end
end Held
end Handles
end SqliteSync.Library
