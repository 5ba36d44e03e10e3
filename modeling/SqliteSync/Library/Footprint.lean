import SqliteSync.Library.Keyed

/-!
# The footprint of a run of writes

Which rows a sequence of inserts and updates has written, when every write leaves
a row that carries a stamp and stands above the row it replaces. What such a run
leaves alone, and when it leaves everything alone, is read off its set of keys.
-/
namespace SqliteSync.Library.Keyed
variable {K V : Type} [DecidableEq K]

/-- The rows of `keys`, and no others, were written: each is stamped and above
what it was. -/
structure Stamps (stamp : K → V → Prop) (lt : V → V → Prop) (keys : Set K) (t u : Keyed K V) :
    Prop where
  keep : ∀ k, k ∉ keys → u.get k = t.get k
  stamped : ∀ k ∈ keys, ∃ v, u.get k = some v ∧ stamp k v ∧ ∀ w, t.get k = some w → lt w v

namespace Stamps
variable {stamp : K → V → Prop} {lt : V → V → Prop} {keys keys' : Set K} {t u v : Keyed K V}

theorem refl (t : Keyed K V) : Stamps stamp lt ∅ t t where
  keep := fun _ _ => rfl
  stamped := fun _ hk => hk.elim

theorem congr (h : Stamps stamp lt keys t u) (he : ∀ k, k ∈ keys ↔ k ∈ keys') :
    Stamps stamp lt keys' t u := by
  have hset : keys = keys' := Set.ext he
  rwa [hset] at h

theorem trans [IsTrans V lt] (h : Stamps stamp lt keys t u) (h' : Stamps stamp lt keys' u v) :
    Stamps stamp lt (keys ∪ keys') t v where
  keep := by
    intro k hk
    rw [Set.mem_union, not_or] at hk
    rw [h'.keep k hk.2, h.keep k hk.1]
  stamped := by
    intro k hk
    by_cases hk' : k ∈ keys'
    · rcases h'.stamped k hk' with ⟨y, hy, hstamp, hlt⟩
      refine ⟨y, hy, hstamp, fun w hw => ?_⟩
      by_cases hkeys : k ∈ keys
      · rcases h.stamped k hkeys with ⟨x, hx, -, hwx⟩
        exact IsTrans.trans _ _ _ (hwx w hw) (hlt x hx)
      · exact hlt w ((h.keep k hkeys).trans hw)
    · rcases h.stamped k (hk.resolve_right hk') with ⟨x, hx, hstamp, hlt⟩
      exact ⟨x, (h'.keep k hk').trans hx, hstamp, hlt⟩

theorem upsert {k : K} {x : V} {f : V → V} (hx : stamp k x)
    (hf : ∀ w, t.get k = some w → stamp k (f w) ∧ lt w (f w)) :
    Stamps stamp lt {k} t (t.upsert k x f) where
  keep := by
    intro k' hk'
    rw [get_upsert, if_neg (by simpa using hk')]
  stamped := by
    rintro k' rfl
    rw [get_upsert, if_pos rfl]
    cases hget : t.get k' with
    | none => exact ⟨x, rfl, hx, fun w hw => by cases hw⟩
    | some w =>
      refine ⟨f w, rfl, (hf w hget).1, ?_⟩
      rintro w' ⟨⟩
      exact (hf w hget).2

theorem updateWhere {p : K → Bool} {k : K} (hp : ∀ k', p k' = true ↔ k' = k) {f : V → V}
    (hf : ∀ w, t.get k = some w → stamp k (f w) ∧ lt w (f w)) :
    Stamps stamp lt {k' | k' = k ∧ t.get k ≠ none} t (t.updateWhere p f) where
  keep := by
    intro k' hk'
    rw [get_updateWhere]
    by_cases he : k' = k
    · subst he
      have hnone : t.get k' = none := by simpa using hk'
      rw [hnone]
      rfl
    · simp [mt (hp k').mp he]
  stamped := by
    rintro k' ⟨rfl, hne⟩
    rcases Option.ne_none_iff_exists'.mp hne with ⟨w, hw⟩
    rw [get_updateWhere, hw]
    refine ⟨f w, by simp [(hp k').mpr], (hf w hw).1, ?_⟩
    rintro w' ⟨⟩
    exact (hf w hw).2

theorem notMem_of_get (h : Stamps stamp lt keys t u) {k : K} {v : V} (hget : u.get k = some v)
    (hv : ¬ stamp k v) : k ∉ keys := by
  intro hk
  rcases h.stamped k hk with ⟨w, hw, hstamp, -⟩
  rw [hget, Option.some.injEq] at hw
  subst hw
  exact hv hstamp

theorem get_ne_none_iff (h : Stamps stamp lt keys t u) (k : K) :
    u.get k ≠ none ↔ t.get k ≠ none ∨ k ∈ keys := by
  by_cases hk : k ∈ keys
  · rcases h.stamped k hk with ⟨v, hv, -⟩
    exact iff_of_true (by simp [hv]) (.inr hk)
  · rw [h.keep k hk, or_iff_left hk]

/-- Nothing changed when nothing was written, and only then. -/
theorem unchanged_iff [Std.Irrefl lt] (h : Stamps stamp lt keys t u) :
    (∀ k, u.get k = t.get k) ↔ keys = ∅ := by
  constructor
  · intro hsame
    apply Set.eq_empty_of_forall_notMem
    intro k hk
    rcases h.stamped k hk with ⟨v, hv, -, hlt⟩
    exact Std.Irrefl.irrefl v (hlt v ((hsame k).symm.trans hv))
  · rintro rfl k
    exact h.keep k (Set.notMem_empty k)

end Stamps
end SqliteSync.Library.Keyed
