import Mathlib.Tactic
import Mathlib.Data.List.Nodup

/-!
# Tables with a unique key

A table is a list of rows, no two under the same key. The operations are the
SQL statements that write such a table, and every statement is characterised
by what a lookup returns after it; row order is never relied on.
-/
namespace SqliteSync.Library

/-- A finite table: the rows in storage order, with pairwise distinct keys. -/
structure Keyed (K V : Type) where
  rows : List (K × V)
  nodup : (rows.map Prod.fst).Nodup

namespace Keyed
variable {K V : Type} [DecidableEq K]

def empty : Keyed K V := ⟨[], List.nodup_nil⟩

/-- The row stored under a key. -/
def get (t : Keyed K V) (k : K) : Option V :=
  (t.rows.find? (fun r => decide (r.1 = k))).map Prod.snd

theorem get_eq_some_iff (t : Keyed K V) (k : K) (v : V) :
    t.get k = some v ↔ (k, v) ∈ t.rows := by
  simp only [get, Option.map_eq_some_iff, Prod.exists, exists_eq_right]
  constructor
  · rintro ⟨a, ha⟩
    have hk : a = k := by simpa using List.find?_some ha
    subst hk
    exact List.mem_of_find?_eq_some ha
  · intro h
    cases hf : t.rows.find? (fun r => decide (r.1 = k)) with
    | none =>
      have hn := List.find?_eq_none.mp hf (k, v) h
      simp at hn
    | some r =>
      have hm := List.mem_of_find?_eq_some hf
      have hk : r.1 = k := by simpa using List.find?_some hf
      have hr : r = (k, v) := List.inj_on_of_nodup_map t.nodup hm h hk
      exact ⟨k, by rw [hr]⟩

theorem get_eq_none_iff (t : Keyed K V) (k : K) : t.get k = none ↔ ∀ v, (k, v) ∉ t.rows := by
  rw [Option.eq_none_iff_forall_not_mem]
  exact forall_congr' fun v => not_congr (get_eq_some_iff t k v)

/-- A search that tells the keys of a table apart finds the row of its key. -/
theorem find?_key (t : Keyed K V) (k : K) {p : K × V → Bool}
    (hp : ∀ r ∈ t.rows, p r = decide (r.1 = k)) :
    t.rows.find? p = (t.get k).map fun v => (k, v) := by
  rw [List.find?_congr hp, get, Option.map_map]
  cases hfind : t.rows.find? fun r => decide (r.1 = k) with
  | none => rfl
  | some r =>
    have hr : r.1 = k := by simpa using List.find?_some hfind
    simp [← hr]

theorem filter_key (t : Keyed K V) (k : K) :
    (t.rows.filter fun r => r.1 = k) = ((t.get k).map fun v => (k, v)).toList := by
  rw [get]
  have hnodup := t.nodup
  generalize t.rows = rows at hnodup
  induction rows with
  | nil => rfl
  | cons r rows ih =>
    rw [List.map_cons, List.nodup_cons] at hnodup
    by_cases hk : r.1 = k
    · have hrest : (rows.filter fun x => x.1 = k) = [] := by
        apply List.filter_eq_nil_iff.mpr
        intro x hx hxk
        exact hnodup.1 (List.mem_map.mpr ⟨x, hx, (of_decide_eq_true hxk).trans hk.symm⟩)
      subst hk
      simp [hrest]
    · simpa [hk] using ih hnodup.2

@[simp] theorem get_empty (k : K) : (empty : Keyed K V).get k = none := rfl

/-- `DELETE ... WHERE p`. -/
def deleteWhere (t : Keyed K V) (p : K → V → Bool) : Keyed K V where
  rows := t.rows.filter (fun r => !p r.1 r.2)
  nodup := t.nodup.sublist (List.filter_sublist.map _)

@[simp] theorem get_deleteWhere (t : Keyed K V) (p : K → V → Bool) (k : K) :
    (t.deleteWhere p).get k = (t.get k).filter (fun v => !p k v) := by
  apply Option.ext
  intro v
  rw [get_eq_some_iff, Option.filter_eq_some_iff, get_eq_some_iff]
  simp [deleteWhere]

/-- `INSERT OR REPLACE` of one row. -/
def replace (t : Keyed K V) (k : K) (v : V) : Keyed K V where
  rows := t.rows.filter (fun r => decide (r.1 ≠ k)) ++ [(k, v)]
  nodup := by
    rw [List.map_append, List.nodup_append]
    refine ⟨t.nodup.sublist (List.filter_sublist.map _), by simp, ?_⟩
    intro a ha b hb hab
    simp only [List.map_cons, List.map_nil, List.mem_singleton] at hb
    obtain ⟨r, hr, rfl⟩ := List.mem_map.mp ha
    simp [hab, hb] at hr

@[simp] theorem get_replace (t : Keyed K V) (k k' : K) (v : V) :
    (t.replace k v).get k' = if k' = k then some v else t.get k' := by
  apply Option.ext
  intro w
  rw [get_eq_some_iff]
  simp only [replace, List.mem_append, List.mem_filter, List.mem_singleton, Prod.mk.injEq,
    decide_eq_true_eq]
  by_cases h : k' = k
  · simp [h, eq_comm]
  · simp [h, get_eq_some_iff]

/-- `UPDATE ... SET ... WHERE p`, for an update that keeps the keys. -/
def updateWhere (t : Keyed K V) (p : K → Bool) (f : V → V) : Keyed K V where
  rows := t.rows.map (fun r => if p r.1 then (r.1, f r.2) else r)
  nodup := by
    have h : (Prod.fst ∘ fun r : K × V => if p r.1 then (r.1, f r.2) else r) = Prod.fst := by
      funext r
      by_cases hr : p r.1 <;> simp [hr]
    rw [List.map_map, h]
    exact t.nodup

@[simp] theorem get_updateWhere (t : Keyed K V) (p : K → Bool) (f : V → V) (k : K) :
    (t.updateWhere p f).get k = (t.get k).map (fun v => if p k then f v else v) := by
  apply Option.ext
  intro w
  rw [get_eq_some_iff, Option.map_eq_some_iff]
  simp only [updateWhere, List.mem_map, Prod.exists, get_eq_some_iff]
  constructor
  · rintro ⟨a, v, hv, he⟩
    by_cases hp : p a
    · simp only [hp, if_true, Prod.mk.injEq] at he
      obtain ⟨rfl, rfl⟩ := he
      exact ⟨v, hv, by simp [hp]⟩
    · simp only [hp, if_false, Prod.mk.injEq, Bool.false_eq_true] at he
      obtain ⟨rfl, rfl⟩ := he
      exact ⟨v, hv, by simp [hp]⟩
  · rintro ⟨v, hv, rfl⟩
    refine ⟨k, v, hv, ?_⟩
    by_cases hp : p k <;> simp [hp]

/-- `INSERT ... ON CONFLICT DO UPDATE`: insert `v`, or apply `f` to the row in place. -/
def upsert (t : Keyed K V) (k : K) (v : V) (f : V → V) : Keyed K V :=
  t.replace k (((t.get k).map f).getD v)

@[simp] theorem get_upsert (t : Keyed K V) (k k' : K) (v : V) (f : V → V) :
    (t.upsert k v f).get k' = if k' = k then some (((t.get k).map f).getD v) else t.get k' :=
  get_replace t k k' _

/-- `UPDATE OR REPLACE ... SET key = g key ... WHERE p`: the selected rows leave
their keys, and each replaces whatever its new key holds. -/
def moveWhere (t : Keyed K V) (p : K → Bool) (g : K → K) (f : V → V) : Keyed K V :=
  (t.rows.filter (fun r => p r.1)).foldl (fun acc r => acc.replace (g r.1) (f r.2))
    (t.deleteWhere (fun k _ => p k))

theorem get_foldl_replace_of_notMem (l : List (K × V)) (g : K → K) (f : V → V) (k : K)
    (h : ∀ r ∈ l, g r.1 ≠ k) (t : Keyed K V) :
    (l.foldl (fun acc r => acc.replace (g r.1) (f r.2)) t).get k = t.get k := by
  induction l generalizing t with
  | nil => rfl
  | cons r l ih =>
    rw [List.foldl_cons, ih (fun x hx => h x (List.mem_cons_of_mem _ hx)), get_replace,
      if_neg (Ne.symm (h r List.mem_cons_self))]

theorem get_foldl_replace_of_mem (l : List (K × V)) (g : K → K) (f : V → V) (r : K × V)
    (hr : r ∈ l) (hinj : ∀ x ∈ l, g x.1 = g r.1 → x = r) (t : Keyed K V) :
    (l.foldl (fun acc r => acc.replace (g r.1) (f r.2)) t).get (g r.1) = some (f r.2) := by
  induction l generalizing t with
  | nil => cases hr
  | cons x l ih =>
    rw [List.foldl_cons]
    by_cases hl : r ∈ l
    · exact ih hl (fun y hy => hinj y (List.mem_cons_of_mem _ hy)) _
    · have hx : x = r := ((List.mem_cons.mp hr).resolve_right hl).symm
      subst hx
      rw [get_foldl_replace_of_notMem, get_replace, if_pos rfl]
      intro y hy he
      exact hl (hinj y (List.mem_cons_of_mem _ hy) he ▸ hy)

theorem get_moveWhere_of_get (t : Keyed K V) (p : K → Bool) (g : K → K) (f : V → V) (k : K) (v : V)
    (hp : p k = true) (hk : t.get k = some v) (hinj : ∀ a, p a = true → g a = g k → a = k) :
    (t.moveWhere p g f).get (g k) = some (f v) := by
  have hm : (k, v) ∈ t.rows := (get_eq_some_iff t k v).mp hk
  apply get_foldl_replace_of_mem _ g f (k, v)
  · exact List.mem_filter.mpr ⟨hm, hp⟩
  · intro x hx he
    obtain ⟨hxm, hxp⟩ := List.mem_filter.mp hx
    exact List.inj_on_of_nodup_map t.nodup hxm hm (hinj x.1 hxp he)

/-- A key no moved row arrives at keeps its row, unless it was itself selected. -/
theorem get_moveWhere_of_ne (t : Keyed K V) (p : K → Bool) (g : K → K) (f : V → V) (k : K)
    (h : ∀ a, p a = true → t.get a ≠ none → g a ≠ k) :
    (t.moveWhere p g f).get k = if p k then none else t.get k := by
  rw [moveWhere, get_foldl_replace_of_notMem, get_deleteWhere]
  · by_cases hp : p k <;> cases t.get k <;> simp [hp]
  · rintro ⟨a, v⟩ hr
    obtain ⟨hm, hp⟩ := List.mem_filter.mp hr
    exact h a hp (by rw [(get_eq_some_iff t a v).mpr hm]; exact Option.some_ne_none v)

/-- `SELECT EXISTS(SELECT 1 ... WHERE p)`. -/
def existsWhere (t : Keyed K V) (p : K → Bool) : Bool := t.rows.any (fun r => p r.1)

theorem existsWhere_iff (t : Keyed K V) (p : K → Bool) :
    t.existsWhere p = true ↔ ∃ k, p k = true ∧ t.get k ≠ none := by
  simp only [existsWhere, List.any_eq_true, Prod.exists, Option.ne_none_iff_exists',
    get_eq_some_iff]
  exact ⟨fun ⟨a, v, hm, hp⟩ => ⟨a, hp, v, hm⟩, fun ⟨a, hp, v, hm⟩ => ⟨a, v, hm, hp⟩⟩

end Keyed
end SqliteSync.Library
