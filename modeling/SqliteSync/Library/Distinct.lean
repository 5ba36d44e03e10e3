import Mathlib.Tactic

/-!
# Maps whose values carry different stamps

A partial map gives each of its values a stamp, and no two keys hold values of
one stamp. Dropping values keeps them apart, and so does a value whose stamp no
other key holds.
-/
namespace SqliteSync.Library

variable {K V S : Type*} {stamp : V → S} {t u : K → Option V}

/-- No two keys hold values with the same stamp. -/
def Distinct (stamp : V → S) (t : K → Option V) : Prop :=
  ∀ k l v w, t k = some v → t l = some w → stamp v = stamp w → k = l

namespace Distinct

theorem empty (stamp : V → S) : Distinct stamp (fun _ : K => none) :=
  fun _ _ _ _ hk => (Option.some_ne_none _ hk.symm).elim

theorem mono (h : Distinct stamp t) (hu : ∀ k v, u k = some v → t k = some v) :
    Distinct stamp u :=
  fun k l v w hk hl => h k l v w (hu k v hk) (hu l w hl)

/-- Some keys are revised, and their values are apart from each other and from the rest. -/
theorem revise (h : Distinct stamp t) (p : K → Prop)
    (hold : ∀ k v, ¬ p k → u k = some v → t k = some v)
    (hin : ∀ k l v w, p k → p l → u k = some v → u l = some w → stamp v = stamp w → k = l)
    (hout : ∀ k l v w, p k → ¬ p l → u k = some v → u l = some w → stamp v ≠ stamp w) :
    Distinct stamp u := by
  intro k l v w hk hl heq
  by_cases hpk : p k <;> by_cases hpl : p l
  · exact hin k l v w hpk hpl hk hl heq
  · exact (hout k l v w hpk hpl hk hl heq).elim
  · exact (hout l k w v hpl hpk hl hk heq.symm).elim
  · exact h k l v w (hold k v hpk hk) (hold l w hpl hl) heq

/-- One key takes a stamp, and what the others hold was there and has another one. -/
theorem insert (h : Distinct stamp t) {k : K} {s : S}
    (hu : ∀ l w, u l = some w → l = k ∧ stamp w = s ∨ t l = some w ∧ stamp w ≠ s) :
    Distinct stamp u := by
  intro a b v w ha hb heq
  rcases hu a v ha with ⟨hak, hv⟩ | ⟨ha, hv⟩ <;> rcases hu b w hb with ⟨hbk, hw⟩ | ⟨hb, hw⟩
  · rw [hak, hbk]
  · exact (hw (heq.symm.trans hv)).elim
  · exact (hv (heq.trans hw)).elim
  · exact h a b v w ha hb heq

end Distinct
end SqliteSync.Library
