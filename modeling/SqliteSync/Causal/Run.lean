import SqliteSync.Library.Run
import SqliteSync.Store.LocalRow
import SqliteSync.Store.MergeRow

/-!
# Runs of a replica

A replica starts empty and goes through local changes of single rows, a
statement being the run of the rows it changes, merges of well-formed changes,
and commits.
-/
namespace SqliteSync.Store
open Library Clock

/-- A change as the extension produces them: a tombstone carries its causal
length as its version, a column comes from a living row. -/
def Change.WellFormed {n : ℕ} (c : Change n) : Prop :=
  if c.name = CLOUDSYNC_TOMBSTONE_VALUE then c.colVersion = c.cl else c.cl % 2 = 1

instance {n : ℕ} (c : Change n) : Decidable c.WellFormed := by
  unfold Change.WellFormed
  infer_instance

namespace Change
variable {n : ℕ}

/-- A change of a table as a replica sends it: a tombstone with its causal
length for a version, or a column of the table under its stored name, from a
living row. -/
def WellFormedFor (table : TableContext) (c : Change n) : Prop :=
  (c.name = CLOUDSYNC_TOMBSTONE_VALUE ∧ c.colVersion = c.cl ∧ 1 ≤ c.cl) ∨
    ((∃ col, c.name = table.colName col) ∧ c.cl % 2 = 1 ∧ 0 ≤ c.colVersion)

theorem WellFormedFor.wellFormed {table : TableContext} {c : Change n}
    (h : c.WellFormedFor table) : c.WellFormed := by
  rw [WellFormed]
  rcases h with ⟨hname, hcl, -⟩ | ⟨⟨col, hname⟩, hodd, -⟩
  · rw [if_pos hname]
    exact hcl
  · rw [if_neg (hname ▸ colName_ne_tombstone table col)]
    exact hodd

end Change

/-- A table with one column `v` besides its key. -/
def singleColumn : TableContext where
  algo := .crdtCls
  ncols := 1
  colName _ := "v"
  dflt _ := .null
  colName_lower := by decide
  colName_injective := Function.injective_of_subsingleton _

namespace Replica
variable {n : ℕ} {schema : Fin n → TableContext}

/-- A replica of empty tables, all synchronised, with a fresh context. -/
def empty (schema : Fin n → TableContext) (site : SiteId) : Replica schema where
  data := cloudsyncContextCreate
  dataVersion := 1
  siteIds := [site]
  enabled := fun _ => true
  table := fun i => Table.empty (schema i)

inductive Event (schema : Fin n → TableContext) where
  | write (i : Fin n) (c : RowChange (schema i))
  | merge (c : Change n)
  | commit

def step (r : Replica schema) : Event schema → Option (Replica schema)
  | .write i c => applyRowChange r i c
  | .merge c => if c.WellFormed then some (cloudsyncMergeInsert noFaults r c).2 else none
  | .commit => some { r with data := cloudsyncCommitHook r.data }

def Reached (schema : Fin n → TableContext) (allowed : Replica schema → Event schema → Prop) :
    Replica schema → Prop :=
  Reachable step (fun r => ∃ site, r = empty schema site) allowed

def AllRecording (r : Replica schema) : Prop := ∀ i, Recording r i

theorem allRecording_empty (hcls : ∀ i, (schema i).algo = .crdtCls) (site : SiteId) :
    (empty schema site).AllRecording :=
  fun i => ⟨by rw [hcls i]; decide, rfl, rfl⟩

theorem AllRecording.of_clocked {r r' : Replica schema} {versions : List ℤ}
    (h : r.AllRecording) (hc : Clocked r r' versions) : r'.AllRecording :=
  fun i => ⟨(h i).cls, hc.insync (h i).insync, hc.enabled ▸ (h i).enabled⟩

theorem AllRecording.merged {r r' : Replica schema} {c : Change n} {st : Stamps}
    (h : r.AllRecording) (hm : MergedInto r r' c st) : r'.AllRecording := by
  rcases hm.clocked with rfl | ⟨versions, -, hc, -⟩
  · exact h
  · exact h.of_clocked hc

/-- The rule for an invariant of single rows: it holds of absent rows, every
allowed local change of a row keeps it, and so does every merge. Meanwhile the
tables stay recorded. -/
theorem Reached.recording_invariant (hcls : ∀ i, (schema i).algo = .crdtCls)
    {allowed : Replica schema → Event schema → Prop} {I : (i : Fin n) → RowState (schema i) → Prop}
    (hkey : ∀ r i c, allowed r (.write i c) → c.KeyDetected)
    (hcl : ∀ i s, I i s → 0 ≤ s.localCl)
    (habsent : ∀ i, I i (RowState.absent (schema i)))
    (hwrite : ∀ r i c dbVersion seq₀ rows', allowed r (.write i c) → (∀ pk, I i (r.rows i pk)) →
      RowStep dbVersion seq₀ (r.rows i) c rows' → ∀ pk, I i (rows' pk))
    (hmerge : ∀ r c st, allowed r (.merge c) → c.WellFormed → I c.tbl (r.rows c.tbl c.pk) →
      I c.tbl ((r.rows c.tbl c.pk).merged c st))
    {r : Replica schema} (h : Reached schema allowed r) :
    r.AllRecording ∧ ∀ i pk, I i (r.rows i pk) := by
  refine Reachable.invariant (I := fun r : Replica schema =>
    r.AllRecording ∧ ∀ i pk, I i (r.rows i pk)) ?_ ?_ h
  · rintro s ⟨site, rfl⟩
    exact ⟨allRecording_empty hcls site, fun i pk => habsent i⟩
  · rintro s e t ⟨hrec, hs⟩ he ht
    cases e with
    | write i c =>
      rcases applyRowChange_rowStep (hrec i) (hkey s i c he) ht with ⟨rows', hstep, hholds⟩
      refine ⟨hrec.of_clocked hholds.clocked, fun j pk => ?_⟩
      by_cases hj : j = i
      · subst hj
        rw [rows, hholds.rowAt]
        exact hwrite s j c _ _ rows' he (hs j) hstep pk
      · rw [rows, hholds.tables j hj]
        exact hs j pk
    | merge c =>
      rw [step, Option.ite_none_right_eq_some, Option.some.injEq] at ht
      rcases ht with ⟨hwf, rfl⟩
      rcases cloudsyncMergeInsert_merged s c (hrec c.tbl).cls (hcl c.tbl _ (hs c.tbl c.pk))
        with ⟨st, hm⟩
      refine ⟨hrec.merged hm, fun j pk => ?_⟩
      by_cases hj : j = c.tbl
      · subst hj
        by_cases hpk : pk = c.pk
        · subst hpk
          rw [rows, hm.rewrites.here]
          exact hmerge s c st he hwf (hs c.tbl c.pk)
        · rw [rows, hm.rewrites.rows pk hpk]
          exact hs c.tbl pk
      · rw [rows, hm.rewrites.tables j hj]
        exact hs j pk
    | commit =>
      cases ht
      exact ⟨fun i => ⟨(hrec i).cls, (hrec i).insync, (hrec i).enabled⟩, hs⟩

def deliver (r : Replica schema) (D : List (Change n)) : Replica schema :=
  D.foldl (fun r c => (cloudsyncMergeInsert noFaults r c).2) r

def changesOf (D : List (Change n)) (i : Fin n) (pk : Pk) : Set (Change n) :=
  {c | c ∈ D ∧ c.tbl = i ∧ c.pk = pk}

theorem changesOf_cons (c : Change n) (D : List (Change n)) (i : Fin n) (pk : Pk)
    (E : Set (Change n)) :
    changesOf (c :: D) i pk ∪ E = changesOf D i pk ∪ (changesOf [c] i pk ∪ E) := by
  ext d
  simp only [changesOf, List.mem_cons, List.not_mem_nil, or_false, Set.mem_union,
    Set.mem_ofPred_eq]
  tauto

theorem changesOf_self (c : Change n) (E : Set (Change n)) :
    changesOf [c] c.tbl c.pk ∪ E = insert c E := by
  ext d
  simp only [changesOf, List.mem_singleton, Set.mem_union, Set.mem_ofPred_eq,
    Set.mem_insert_iff]
  constructor
  · rintro (⟨rfl, -⟩ | hd)
    · exact .inl rfl
    · exact .inr hd
  · rintro (rfl | hd)
    · exact .inl ⟨rfl, rfl, rfl⟩
    · exact .inr hd

theorem changesOf_other {c : Change n} {i : Fin n} {pk : Pk} (h : ¬ (c.tbl = i ∧ c.pk = pk)) :
    changesOf [c] i pk = ∅ := by
  ext d
  simp only [changesOf, List.mem_singleton, Set.mem_ofPred_eq, Set.mem_empty_iff_false,
    iff_false]
  rintro ⟨rfl, hd⟩
  exact h hd

/-- The rule for what a row knows of the changes delivered to it: each merge
adds the change it merges. -/
theorem deliver_rule (hcls : ∀ i, (schema i).algo = .crdtCls)
    {P : (i : Fin n) → Pk → Set (Change n) → RowState (schema i) → Prop} {D : List (Change n)}
    (hcl : ∀ i pk E s, P i pk E s → 0 ≤ s.localCl)
    (hstep : ∀ c st E s, c ∈ D → P c.tbl c.pk E s → P c.tbl c.pk (insert c E) (s.merged c st))
    {r : Replica schema} {E : Fin n → Pk → Set (Change n)}
    (h : ∀ i pk, P i pk (E i pk) (r.rows i pk)) (i : Fin n) (pk : Pk) :
    P i pk (changesOf D i pk ∪ E i pk) ((r.deliver D).rows i pk) := by
  induction D generalizing r E with
  | nil =>
    have hset : changesOf ([] : List (Change n)) i pk ∪ E i pk = E i pk := by
      simp [changesOf]
    rw [hset]
    exact h i pk
  | cons c D ih =>
    rw [changesOf_cons]
    refine ih (fun d st E s hd => hstep d st E s (.tail c hd))
      (r := (cloudsyncMergeInsert noFaults r c).2) (E := fun i pk => changesOf [c] i pk ∪ E i pk) ?_
    intro i pk
    have hgos : (schema c.tbl).algo ≠ .crdtGos := by
      rw [hcls]
      decide
    rcases cloudsyncMergeInsert_merged r c hgos (hcl _ _ _ _ (h c.tbl c.pk)) with ⟨st, hm⟩
    by_cases hrow : c.tbl = i ∧ c.pk = pk
    · rcases hrow with ⟨rfl, rfl⟩
      rw [rows, hm.rewrites.here, changesOf_self]
      exact hstep c st _ _ (.head D) (h c.tbl c.pk)
    · have hsame : (cloudsyncMergeInsert noFaults r c).2.rows i pk = r.rows i pk := by
        by_cases hi : i = c.tbl
        · subst hi
          exact hm.rewrites.rows pk fun hpk => hrow ⟨rfl, hpk.symm⟩
        · rw [rows, hm.rewrites.tables i hi]
          rfl
      rw [hsame, changesOf_other hrow, Set.empty_union]
      exact h i pk

end Replica
end SqliteSync.Store
