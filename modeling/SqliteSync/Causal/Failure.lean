import SqliteSync.Store.MergeFaults
import SqliteSync.Causal.DeclaredRun

/-!
# What a failed merge leaves

No savepoint is around the statements of a merge, so when one of them fails
what the ones before it wrote stays. The tables are as they were only if none of
it was new.
-/
namespace SqliteSync.Store
open Library Clock

namespace Outcome
variable {σ : Type}

theorem andThen_snd_of_fail {x : Outcome σ} (h : x.1 ≠ .ok ()) (f : σ → Outcome σ) :
    (x.andThen f).2 = x.2 := by
  rcases x with ⟨err | ⟨⟩, s⟩
  · rfl
  · exact absurd rfl h

theorem describe_fst_ok_iff {x : Outcome σ} (message : String) :
    (x.describe message).1 = .ok () ↔ x.1 = .ok () := by
  rcases x with ⟨err | ⟨⟩, s⟩
  · exact iff_of_false (fun h => by cases h) (fun h => by cases h)
  · rfl

end Outcome

/-! ## Tables that hold the same -/

/-- Two tables hold the same rows and the same metadata. -/
structure Table.Same {table : TableContext} (t t' : Table table) : Prop where
  base : ∀ pk, t.base.get pk = t'.base.get pk
  metadata : ∀ k, t.metadata.get k = t'.metadata.get k

namespace Table
variable {table : TableContext} {t : Table table}

theorem Same.refl (t : Table table) : t.Same t := ⟨fun _ => rfl, fun _ => rfl⟩

/-- What is written to one table leaves the others the same. -/
theorem forall_same_update_iff {n : ℕ} {schema : Fin n → TableContext}
    (tables : (j : Fin n) → Table (schema j)) (i : Fin n) (t : Table (schema i)) :
    (∀ j, (Function.update tables i t j).Same (tables j)) ↔ t.Same (tables i) := by
  constructor
  · intro hall
    have hsame := hall i
    rwa [Function.update_self] at hsame
  · intro hsame j
    by_cases hj : j = i
    · subst hj
      rwa [Function.update_self]
    · rw [Function.update_of_ne hj]
      exact .refl _

theorem same_base_iff (base : Keyed Pk (Row table)) :
    Same { t with base := base } t ↔ ∀ pk, base.get pk = t.base.get pk :=
  ⟨fun h => h.base, fun h => ⟨h, fun _ => rfl⟩⟩

theorem same_winnerClock_iff (base : Keyed Pk (Row table)) (pk : Pk) (colName : String)
    (colVersion dbVersion seq : ℤ) (siteId : ℕ) :
    Same (metaWinnerClock { t with base := base } pk colName colVersion dbVersion seq siteId) t ↔
      (∀ pk, base.get pk = t.base.get pk) ∧
        t.metadata.get (pk, colName) = some ⟨colVersion, dbVersion, siteId, seq⟩ := by
  constructor
  · intro h
    refine ⟨h.base, ?_⟩
    rw [← h.metadata, metaWinnerClock, Keyed.get_replace, if_pos rfl]
  · rintro ⟨hbase, hmeta⟩
    refine ⟨hbase, fun k => ?_⟩
    rw [metaWinnerClock, Keyed.get_replace]
    split_ifs with hk
    · rw [hk, hmeta]
    · rfl

/-- Clocks that are set back over those that were set back at the same version. -/
theorem same_zeroClock_iff (base : Keyed Pk (Row table)) (dbVersion : ℤ) (pk : Pk) :
    Same (metaZeroClock { t with base := base } dbVersion pk) t ↔
      (∀ pk, base.get pk = t.base.get pk) ∧ ∀ name, name ≠ CLOUDSYNC_TOMBSTONE_VALUE →
        ∀ m, t.metadata.get (pk, name) = some m → m.colVersion = 0 ∧ m.dbVersion = dbVersion := by
  have hget : ∀ k, (metaZeroClock { t with base := base } dbVersion pk).metadata.get k =
      (t.metadata.get k).map fun m =>
        if isColumnOf pk k then { m with colVersion := 0, dbVersion := dbVersion } else m :=
    fun k => Keyed.get_updateWhere _ _ _ k
  constructor
  · intro h
    refine ⟨h.base, fun name hname m hm => ?_⟩
    have hcolumn : isColumnOf pk (pk, name) = true := by simp [isColumnOf, hname]
    have hmeta := h.metadata (pk, name)
    rw [hget, hm, Option.map_some, if_pos hcolumn, Option.some.injEq] at hmeta
    rw [← hmeta]
    exact ⟨rfl, rfl⟩
  · rintro ⟨hbase, hzero⟩
    refine ⟨hbase, fun k => ?_⟩
    rw [hget]
    cases hm : t.metadata.get k with
    | none => rfl
    | some m =>
      rw [Option.map_some]
      split_ifs with hcolumn
      · rw [isColumnOf, Bool.and_eq_true, beq_iff_eq, bne_iff_ne] at hcolumn
        rcases hzero k.2 hcolumn.2 m (hcolumn.1 ▸ hm) with ⟨hv, hd⟩
        rw [← hv, ← hd]
      · rfl

end Table

namespace Declaration
variable {table : TableContext} {d : Declaration table} {base : Keyed Pk (Row table)} {pk : Pk}

theorem get_of_select_eq_none (h : d.select base pk = none) {k : Pk} {row : Row table}
    (hrow : base.get k = some row) : d.same k (d.storeKey pk) = false := by
  have hall := List.find?_eq_none.mp h (k, row) ((Keyed.get_eq_some_iff base k row).mp hrow)
  exact Bool.eq_false_iff.mpr hall

theorem realMergeDelete_same_iff (t : Table table) (pk : Pk) :
    (∀ pk', (d.realMergeDelete t pk).base.get pk' = t.base.get pk') ↔
      d.select t.base pk = none := by
  have hget : ∀ pk', (d.realMergeDelete t pk).base.get pk' =
      (t.base.get pk').filter fun _ => !d.same pk' (d.storeKey pk) :=
    fun pk' => Keyed.get_deleteWhere _ _ pk'
  constructor
  · intro h
    rw [Declaration.select, List.find?_eq_none]
    rintro ⟨k, row⟩ hmem hsame
    have hrow := (Keyed.get_eq_some_iff t.base k row).mpr hmem
    have hkept := (hget k).symm.trans (h k)
    rw [hrow, Option.filter_some, hsame] at hkept
    cases hkept
  · intro h pk'
    rw [hget]
    cases hrow : t.base.get pk' with
    | none => rfl
    | some row =>
      rw [Option.filter_some, get_of_select_eq_none h hrow]
      rfl

theorem get_of_conflict_eq_none {row : Row table} (haccepts : d.accepts pk row = true)
    (h : d.conflict base pk row = none) : base.get pk = none := by
  rw [Declaration.conflict, Option.or_eq_none_iff, Option.or_eq_none_iff, Option.map_eq_none_iff,
    List.find?_eq_none] at h
  cases hrow : base.get pk with
  | none => rfl
  | some row' =>
    exact absurd (d.same_self pk row haccepts)
      (h.2.1 (pk, row') ((Keyed.get_eq_some_iff base pk row').mp hrow))

theorem replace_ne_self {row : Row table} (haccepts : d.accepts pk row = true)
    (h : d.conflict base pk row = none) : ¬ ∀ pk', (base.replace pk row).get pk' = base.get pk' := by
  intro hsame
  have hget := hsame pk
  rw [Keyed.get_replace, if_pos rfl, get_of_conflict_eq_none haccepts h] at hget
  cases hget

theorem realMergeSentinel_eq (t : Table table) (pk : Pk) : d.realMergeSentinel t pk =
    { t with base := (d.realMergeSentinel t pk).base } := by
  rw [Declaration.realMergeSentinel]
  split_ifs <;> rfl

theorem realMergeSentinel_same_iff (t : Table table) (pk : Pk) :
    (∀ pk', (d.realMergeSentinel t pk).base.get pk' = t.base.get pk') ↔ ¬ d.Inserts t.base pk := by
  rw [Declaration.realMergeSentinel]
  split_ifs with h
  · exact iff_of_false (replace_ne_self h.1 h.2) (not_not.mpr h)
  · exact iff_of_true (fun _ => rfl) h

def Holds (d : Declaration table) (base : Keyed Pk (Row table)) (pk : Pk) (col : Fin table.ncols)
    (value : Value) : Prop :=
  ∃ k ∈ d.conflict base (d.storeKey pk) (d.fresh col value), ∃ row ∈ base.get k,
    row col = d.store col value

theorem get_of_conflict {row : Row table} {k : Pk} (h : d.conflict base pk row = some k) :
    base.get k ≠ none := by
  have hholder : ∀ keys : List (UniqueKey table), (keys.findSome? fun key => Constraints.holder base key pk row) = some k →
      base.get k ≠ none := by
    intro keys hfound
    rcases List.exists_of_findSome?_eq_some hfound with ⟨key, -, hkey⟩
    exact Constraints.holder_ne_none base hkey
  rw [Declaration.conflict, Option.or_eq_some_iff, Option.or_eq_some_iff] at h
  rcases h with h | ⟨-, h | ⟨-, h⟩⟩
  · exact hholder d.before h
  · rcases Option.map_eq_some_iff.mp h with ⟨r, hr, rfl⟩
    rw [(Keyed.get_eq_some_iff base r.1 r.2).mpr (List.mem_of_find?_eq_some hr)]
    exact Option.some_ne_none r.2
  · exact hholder d.after h

theorem colMerge_same_iff {t t' : Table table} {pk : Pk} {col : Fin table.ncols} {value : Value}
    (h : d.colMerge t pk col value = .ok t') :
    t' = { t with base := t'.base } ∧
      ((∀ pk', t'.base.get pk' = t.base.get pk') ↔ d.Holds t.base pk col value) := by
  rw [Declaration.colMerge] at h
  cases hup : d.upsert t.base pk col value with
  | error err =>
    rw [hup] at h
    cases h
  | ok base =>
    rw [hup] at h
    cases h
    refine ⟨rfl, ?_⟩
    change (∀ pk', base.get pk' = t.base.get pk') ↔ _
    rw [Declaration.upsert] at hup
    rw [Holds]
    by_cases haccepts : d.accepts (d.storeKey pk) (d.fresh col value) = false
    · rw [if_pos haccepts] at hup
      cases hup
    rw [if_neg haccepts] at hup
    rw [Bool.not_eq_false] at haccepts
    cases hconflict : d.conflict t.base (d.storeKey pk) (d.fresh col value) with
    | none =>
      simp only [hconflict, Except.ok.injEq] at hup
      subst hup
      refine iff_of_false (replace_ne_self haccepts hconflict) ?_
      rintro ⟨k, hk, -⟩
      cases hk
    | some k =>
      rcases Option.ne_none_iff_exists'.mp (get_of_conflict hconflict) with ⟨row, hrow⟩
      simp only [hconflict, hrow] at hup
      split_ifs at hup
      cases hup
      simp only [Keyed.get_replace, Option.mem_def, Option.some.injEq, exists_eq_left', hrow]
      constructor
      · intro h
        have hk := h k
        rw [if_pos rfl, hrow, Option.some.injEq, Function.update_eq_self_iff] at hk
        exact hk.symm
      · intro h pk'
        split_ifs with hpk
        · rw [hpk, hrow, Option.some.injEq, Function.update_eq_self_iff]
          exact h.symm
        · rfl

end Declaration

section
variable {n : ℕ} {schema : Fin n → TableContext} {faults : Faults}

/-! ## The statements of a merge -/

namespace Replica

/-- Table `i` with another base table, after a statement between `SYNCBIT_SET` and
`SYNCBIT_RESET`. -/
def based (r : Replica schema) (i : Fin n) (base : Keyed Pk (Row (schema i))) : Replica schema :=
  ((r.setInsync true).setTable i { r.table i with base := base }).setInsync false

theorem based_table (r : Replica schema) (i : Fin n) (base : Keyed Pk (Row (schema i))) :
    (r.based i base).table = Function.update r.table i { r.table i with base := base } := rfl

theorem based_view (r : Replica schema) (i : Fin n) (base : Keyed Pk (Row (schema i))) :
    (r.based i base).view = r.view := by
  have hversions : ∀ j, ((r.based i base).table j).dbVersions = (r.table j).dbVersions := by
    intro j
    rw [based_table]
    by_cases hj : j = i
    · subst hj
      rw [Function.update_self]
      rfl
    · rw [Function.update_of_ne hj]
  rw [view, view, funext hversions]
  rfl

/-- The base tables have no part in the next db version. -/
theorem dbVersionNext_based (r : Replica schema) (i : Fin n) (base : Keyed Pk (Row (schema i)))
    (mergingVersion : ℤ) :
    ((r.based i base).dbVersionNext mergingVersion).1 = (r.dbVersionNext mergingVersion).1 := by
  change nextVersion (dbVersionCheckUptodate (r.based i base).view { r.data with insync := false })
    mergingVersion = nextVersion (dbVersionCheckUptodate r.view r.data) mergingVersion
  rw [based_view, dbVersionCheckUptodate, dbVersionCheckUptodate]
  dsimp only
  split_ifs <;> rfl

end Replica

variable (r : Replica schema) (i : Fin n) (pk : Pk)

def ClockFails (faults : Faults) (colName : String) : Prop :=
  faults (.siteId colName) ≠ none ∨ faults (.winnerClock colName) ≠ none

instance (faults : Faults) (colName : String) : Decidable (ClockFails faults colName) :=
  inferInstanceAs (Decidable (_ ∨ _))

theorem mergeSetWinnerClock_fst_ok_iff (colName : String) (colVersion dbVersion : ℤ)
    (siteId : SiteId) (seq : ℤ) :
    (mergeSetWinnerClock faults r i pk colName colVersion dbVersion siteId seq).1 = .ok () ↔
      ¬ ClockFails faults colName := by
  rw [mergeSetWinnerClock, ClockFails, not_or, not_not, not_not]
  cases hs : faults (.siteId colName) with
  | some err => simp
  | none =>
    cases hw : faults (.winnerClock colName) with
    | some err => simp [stepVersioned, hw]
    | none => simp [stepVersioned, hw]

theorem mergeSetWinnerClock_table (colName : String) (colVersion dbVersion : ℤ)
    (siteId : SiteId) (seq : ℤ) :
    (mergeSetWinnerClock faults r i pk colName colVersion dbVersion siteId seq).2.table =
      if ClockFails faults colName then r.table
      else Function.update r.table i ((r.table i).metaWinnerClock pk colName colVersion
        (r.dbVersionNext dbVersion).1 seq (getsetSiteid r.siteIds siteId).1) := by
  rw [mergeSetWinnerClock]
  cases hs : faults (.siteId colName) with
  | some err => rw [if_pos (.inl (hs ▸ Option.some_ne_none err))]
  | none =>
    dsimp only
    cases hw : faults (.winnerClock colName) with
    | some err => rw [stepVersioned_of_some _ _ hw, if_pos (.inr (hw ▸ Option.some_ne_none err))]
    | none =>
      rw [stepVersioned_of_none _ _ hw, if_neg (by simp [ClockFails, hs, hw])]
      rfl

end

namespace Declared
variable {n : ℕ} {schema : Fin n → TableContext} {decl : (i : Fin n) → Declaration (schema i)}
  {faults : Faults}

section
variable (r : Replica schema) (i : Fin n) (pk : Pk)

theorem mergeDelete_stops (colname : String) (cl dbVersion : ℤ) (siteId : SiteId) (seq : ℤ)
    (hfail : (mergeDelete decl faults r i pk colname cl dbVersion siteId seq).1 ≠ .ok ()) :
    (mergeDelete decl faults r i pk colname cl dbVersion siteId seq).2.table =
      Function.update r.table i
        (if faults .mergeDelete ≠ none then r.table i
        else if ClockFails faults colname then (decl i).realMergeDelete (r.table i) pk
        else ((decl i).realMergeDelete (r.table i) pk).metaWinnerClock pk colname cl
          (r.dbVersionNext dbVersion).1 seq (getsetSiteid r.siteIds siteId).1) := by
  rw [mergeDelete] at hfail ⊢
  cases hd : faults .mergeDelete with
  | some err =>
    rw [stepInsync_of_some _ _ hd, Outcome.andThen_error, if_pos (Option.some_ne_none err),
      Function.update_eq_self]
    rfl
  | none =>
    have hstep : stepInsync noFaults r i .mergeDelete (fun t => (decl i).realMergeDelete t pk) =
        (.ok (), r.based i ((decl i).realMergeDelete (r.table i) pk).base) := rfl
    rw [stepInsync_of_none _ _ hd, hstep, Outcome.andThen_ok] at hfail ⊢
    rw [if_neg (not_not.mpr rfl)]
    generalize hr₁ : r.based i ((decl i).realMergeDelete (r.table i) pk).base = r₁ at hfail ⊢
    have htable : r₁.table = Function.update r.table i ((decl i).realMergeDelete (r.table i) pk) := by
      rw [← hr₁, Replica.based_table]
      rfl
    by_cases hclock : ClockFails faults colname
    · have hstops := mt (mergeSetWinnerClock_fst_ok_iff r₁ i pk colname cl dbVersion siteId seq).mp
        (not_not.mpr hclock)
      rw [Outcome.andThen_snd_of_fail hstops, mergeSetWinnerClock_table, if_pos hclock,
        if_pos hclock, htable]
    · have hok := (mergeSetWinnerClock_fst_ok_iff r₁ i pk colname cl dbVersion siteId seq).mpr hclock
      rw [Outcome.andThen_eq_of_ok hok] at hfail ⊢
      cases hdrop : faults .deleteDrop with
      | none => exact absurd (by rw [stepStmt_of_none _ _ hdrop]; rfl) hfail
      | some err =>
        rw [stepStmt_of_some _ _ hdrop, mergeSetWinnerClock_table, if_neg hclock, if_neg hclock,
          htable, Function.update_self, Function.update_idem, ← hr₁, Replica.dbVersionNext_based]
        rfl

theorem stepInsync_realMergeSentinel :
    stepInsync noFaults r i .mergeSentinel (fun t => (decl i).realMergeSentinel t pk) =
      (.ok (), r.based i ((decl i).realMergeSentinel (r.table i) pk).base) := by
  rw [Replica.based, ← Declaration.realMergeSentinel_eq]
  rfl

/-- A sentinel whose insert and whose clocks do not fail ends with its own clock. -/
theorem mergeSentinelOnlyInsert_eq_clock (decl : (i : Fin n) → Declaration (schema i))
    (hb : faults .mergeSentinel = none) (hz : faults .zeroClock = none) (cl dbVersion : ℤ)
    (siteId : SiteId) (seq : ℤ) :
    ∃ r' : Replica schema, mergeSentinelOnlyInsert decl faults r i pk cl dbVersion siteId seq =
        mergeSetWinnerClock faults r' i pk CLOUDSYNC_TOMBSTONE_VALUE cl dbVersion siteId seq ∧
      r'.table = Function.update r.table i
        (((decl i).realMergeSentinel (r.table i) pk).metaZeroClock (r.dbVersionNext dbVersion).1
          pk) := by
  refine ⟨(stepVersioned noFaults (r.based i ((decl i).realMergeSentinel (r.table i) pk).base) i
    .zeroClock dbVersion fun version t => t.metaZeroClock version pk).2, ?_, ?_⟩
  · rw [mergeSentinelOnlyInsert, stepInsync_of_none _ _ hb, stepInsync_realMergeSentinel,
      Outcome.andThen_ok, mergeZeroclockOnResurrect, stepVersioned_of_none _ _ hz, stepVersioned,
      noFaults_apply]
    exact Outcome.andThen_ok _ _
  · rw [stepVersioned, noFaults_apply]
    change Function.update (r.based i _).table i _ = _
    rw [Replica.dbVersionNext_based, Replica.based_table, Function.update_idem]
    congr 1
    change Table.metaZeroClock ((r.based i _).table i) _ pk = _
    rw [Replica.based_table, Function.update_self, ← Declaration.realMergeSentinel_eq]

theorem mergeSentinelOnlyInsert_stops (cl dbVersion : ℤ) (siteId : SiteId) (seq : ℤ)
    (hfail : (mergeSentinelOnlyInsert decl faults r i pk cl dbVersion siteId seq).1 ≠ .ok ()) :
    (mergeSentinelOnlyInsert decl faults r i pk cl dbVersion siteId seq).2.table =
      Function.update r.table i
        (if faults .mergeSentinel ≠ none then r.table i
        else if faults .zeroClock ≠ none then (decl i).realMergeSentinel (r.table i) pk
        else ((decl i).realMergeSentinel (r.table i) pk).metaZeroClock
          (r.dbVersionNext dbVersion).1 pk) := by
  cases hb : faults .mergeSentinel with
  | some err =>
    rw [mergeSentinelOnlyInsert, stepInsync_of_some _ _ hb, Outcome.andThen_error,
      if_pos (Option.some_ne_none err), Function.update_eq_self]
    rfl
  | none =>
    rw [if_neg (not_not.mpr rfl)]
    cases hz : faults .zeroClock with
    | some err =>
      rw [mergeSentinelOnlyInsert, stepInsync_of_none _ _ hb, stepInsync_realMergeSentinel,
        Outcome.andThen_ok, mergeZeroclockOnResurrect, stepVersioned_of_some _ _ hz,
        Outcome.andThen_error, if_pos (Option.some_ne_none err), Replica.based_table,
        ← Declaration.realMergeSentinel_eq]
    | none =>
      rw [if_neg (not_not.mpr rfl)]
      rcases mergeSentinelOnlyInsert_eq_clock r i pk decl hb hz cl dbVersion siteId seq with
        ⟨r', hr', htable⟩
      rw [hr', Ne, mergeSetWinnerClock_fst_ok_iff, not_not] at hfail
      rw [hr', mergeSetWinnerClock_table, if_pos hfail, htable]

theorem mergeSentinelOnlyInsert_ok_iff (cl dbVersion : ℤ) (siteId : SiteId) (seq : ℤ) :
    (mergeSentinelOnlyInsert decl faults r i pk cl dbVersion siteId seq).1 = .ok () ↔
      faults .mergeSentinel = none ∧ faults .zeroClock = none ∧
        ¬ ClockFails faults CLOUDSYNC_TOMBSTONE_VALUE := by
  cases hb : faults .mergeSentinel with
  | some err =>
    rw [mergeSentinelOnlyInsert, stepInsync_of_some _ _ hb, Outcome.andThen_error]
    simp
  | none =>
    cases hz : faults .zeroClock with
    | some err =>
      rw [mergeSentinelOnlyInsert, stepInsync_of_none _ _ hb, stepInsync_realMergeSentinel,
        Outcome.andThen_ok, mergeZeroclockOnResurrect, stepVersioned_of_some _ _ hz,
        Outcome.andThen_error]
      simp
    | none =>
      rcases mergeSentinelOnlyInsert_eq_clock r i pk decl hb hz cl dbVersion siteId seq with
        ⟨r', hr', -⟩
      rw [hr', mergeSetWinnerClock_fst_ok_iff]
      simp

theorem metadata_of_mergeSentinelOnlyInsert {cl dbVersion : ℤ} {siteId : SiteId} {seq : ℤ}
    (hok : (mergeSentinelOnlyInsert decl faults r i pk cl dbVersion siteId seq).1 = .ok ()) :
    ∃ t, (mergeSentinelOnlyInsert decl faults r i pk cl dbVersion siteId seq).2.table =
        Function.update r.table i t ∧
      ∃ m : MetaRow, m.colVersion = cl ∧
        t.metadata.get (pk, CLOUDSYNC_TOMBSTONE_VALUE) = some m := by
  rcases (mergeSentinelOnlyInsert_ok_iff r i pk cl dbVersion siteId seq).mp hok with ⟨hb, hz, hclock⟩
  rcases mergeSentinelOnlyInsert_eq_clock r i pk decl hb hz cl dbVersion siteId seq with
    ⟨r', hr', htable⟩
  rw [hr', mergeSetWinnerClock_table, if_neg hclock, htable, Function.update_idem]
  refine ⟨_, rfl, ⟨cl, (r'.dbVersionNext dbVersion).1, (getsetSiteid r'.siteIds siteId).1, seq⟩, rfl,
    ?_⟩
  rw [Table.metaWinnerClock, Keyed.get_replace, if_pos rfl]

theorem mergeInsertCol_stops (hcls : (schema i).algo ≠ .crdtGos) {colName : String}
    {col : Fin (schema i).ncols} (hcol : tableColumnLookup (schema i) colName = some col)
    (colValue : Value) (colVersion dbVersion : ℤ) (siteId : SiteId) (seq : ℤ)
    (hfail : (mergeInsertCol decl faults r i pk colName colValue colVersion dbVersion siteId seq).1 ≠
      .ok ()) :
    ∃ t, (mergeInsertCol decl faults r i pk colName colValue colVersion dbVersion siteId
        seq).2.table = Function.update r.table i t ∧
      if faults .colMerge ≠ none then t = r.table i
      else ((decl i).colMerge (r.table i) pk col colValue).toOption = none ∧ t = r.table i ∨
        (decl i).colMerge (r.table i) pk col colValue = .ok t := by
  have hgos : ((schema i).algo == TableAlgo.crdtGos) = false := beq_false_of_ne hcls
  simp only [mergeInsertCol, hcol, hgos, Bool.false_eq_true, if_false] at hfail ⊢
  rw [stepUpsert] at hfail ⊢
  cases hb : faults .colMerge with
  | some err =>
    refine ⟨r.table i, ?_, rfl⟩
    rw [Function.update_eq_self]
    rfl
  | none =>
    rw [Replica.setInsync_table]
    cases hup : (decl i).colMerge (r.table i) pk col colValue with
    | error err =>
      refine ⟨r.table i, ?_, .inl ⟨rfl, rfl⟩⟩
      rw [Function.update_eq_self]
      rfl
    | ok t =>
      refine ⟨t, ?_, .inr rfl⟩
      simp only [hb, Replica.setInsync_table, hup, Outcome.andThen_ok] at hfail ⊢
      rw [Ne, mergeSetWinnerClock_fst_ok_iff, not_not] at hfail
      rw [mergeSetWinnerClock_table, if_pos hfail]
      rfl

end

/-! ## When nothing was written -/

section
variable (decl : (i : Fin n) → Declaration (schema i)) (faults : Faults) (r : Replica schema)
  (c : Change n)

/-- A deletion that fails on the base table, or later when it found no base row
and the metadata it wrote was there before. -/
def DeleteStopsClean : Prop :=
  faults .mergeDelete ≠ none ∨ (decl c.tbl).select (r.table c.tbl).base c.pk = none ∧
    (ClockFails faults c.name ∨ (r.table c.tbl).metadata.get (c.pk, c.name) = some ⟨c.colVersion,
      (r.dbVersionNext c.dbVersion).1, (getsetSiteid r.siteIds c.siteId).1, c.seq⟩)

/-- A sentinel that fails on the base table, or later when no base row was inserted
and the clocks, if they were set back, had been so already. -/
def SentinelStopsClean : Prop :=
  faults .mergeSentinel ≠ none ∨ ¬ (decl c.tbl).Inserts (r.table c.tbl).base c.pk ∧
    (faults .zeroClock ≠ none ∨ ClockFails faults CLOUDSYNC_TOMBSTONE_VALUE ∧
      ∀ name, name ≠ CLOUDSYNC_TOMBSTONE_VALUE → ∀ m,
        (r.table c.tbl).metadata.get (c.pk, name) = some m →
          m.colVersion = 0 ∧ m.dbVersion = (r.dbVersionNext c.dbVersion).1)

/-- A column that fails before its value is written, or whose value was there before. -/
def ColumnStopsClean : Prop :=
  (∃ err, mergeDidCidWin decl faults r c.tbl c.pk c.colValue c.name c.colVersion = .error err) ∨
    faults .colMerge ≠ none ∨ ∀ col, tableColumnLookup (schema c.tbl) c.name = some col →
      (∃ err, (decl c.tbl).colMerge (r.table c.tbl) c.pk col c.colValue = .error err) ∨
        (decl c.tbl).Holds (r.table c.tbl).base c.pk col c.colValue

/-- The failing statement of a merge comes before every statement that changes something. -/
def StopsClean : Prop :=
  faults .localCl ≠ none ∨ (r.table c.tbl).metaLocalCl c.pk < 0 ∨
    if (r.table c.tbl).metaLocalCl c.pk < c.cl ∧ c.cl % 2 = 0 then DeleteStopsClean decl faults r c
    else if (r.table c.tbl).metaLocalCl c.pk < c.cl ∧ (c.name = CLOUDSYNC_TOMBSTONE_VALUE ∨
      (r.table c.tbl).metaLocalCl c.pk ≠ 0 ∨ 1 < c.cl) then SentinelStopsClean decl faults r c
    else ColumnStopsClean decl faults r c

end

section
variable {r : Replica schema} {c : Change n}

theorem mergeDelete_same_iff
    (hfail : (mergeDelete decl faults r c.tbl c.pk c.name c.colVersion c.dbVersion c.siteId
      c.seq).1 ≠ .ok ()) :
    ∃ t, (mergeDelete decl faults r c.tbl c.pk c.name c.colVersion c.dbVersion c.siteId
        c.seq).2.table = Function.update r.table c.tbl t ∧
      (t.Same (r.table c.tbl) ↔ DeleteStopsClean decl faults r c) := by
  refine ⟨_, mergeDelete_stops r c.tbl c.pk c.name c.colVersion c.dbVersion c.siteId c.seq hfail, ?_⟩
  have hbase := (decl c.tbl).realMergeDelete_same_iff (r.table c.tbl) c.pk
  rw [DeleteStopsClean]
  split_ifs with hd hclock
  · exact iff_of_true (.refl _) (.inl hd)
  · rw [Declaration.realMergeDelete] at hbase ⊢
    rw [Table.same_base_iff, hbase]
    exact ⟨fun h => .inr ⟨h, .inl hclock⟩, fun h => (h.resolve_left hd).1⟩
  · rw [Declaration.realMergeDelete] at hbase ⊢
    rw [Table.same_winnerClock_iff, hbase]
    constructor
    · exact fun h => .inr ⟨h.1, .inr h.2⟩
    · exact fun h => ⟨(h.resolve_left hd).1, (h.resolve_left hd).2.resolve_left hclock⟩

theorem mergeSentinelOnlyInsert_same_iff {cl : ℤ}
    (hfail : (mergeSentinelOnlyInsert decl faults r c.tbl c.pk cl c.dbVersion c.siteId c.seq).1 ≠
      .ok ()) :
    ∃ t, (mergeSentinelOnlyInsert decl faults r c.tbl c.pk cl c.dbVersion c.siteId
        c.seq).2.table = Function.update r.table c.tbl t ∧
      (t.Same (r.table c.tbl) ↔ SentinelStopsClean decl faults r c) := by
  refine ⟨_, mergeSentinelOnlyInsert_stops r c.tbl c.pk cl c.dbVersion c.siteId c.seq hfail, ?_⟩
  have hbase := (decl c.tbl).realMergeSentinel_same_iff (r.table c.tbl) c.pk
  rw [SentinelStopsClean]
  split_ifs with hb hz
  · exact iff_of_true (.refl _) (.inl hb)
  · rw [Declaration.realMergeSentinel_eq, Table.same_base_iff, hbase]
    exact ⟨fun h => .inr ⟨h, .inl hz⟩, fun h => (h.resolve_left hb).1⟩
  · have hclock : ClockFails faults CLOUDSYNC_TOMBSTONE_VALUE := by
      rw [Ne, mergeSentinelOnlyInsert_ok_iff] at hfail
      by_contra hclock
      exact hfail ⟨not_not.mp hb, not_not.mp hz, hclock⟩
    rw [Declaration.realMergeSentinel_eq, Table.same_zeroClock_iff, hbase]
    constructor
    · exact fun h => .inr ⟨h.1, .inr ⟨hclock, h.2⟩⟩
    · exact fun h => ⟨(h.resolve_left hb).1, ((h.resolve_left hb).2.resolve_left hz).2⟩

theorem mergeColumn_same_iff (hcls : (schema c.tbl).algo ≠ .crdtGos)
    {needsResurrect rowExistsLocally : Bool}
    (hfail : (mergeColumn decl faults r c needsResurrect rowExistsLocally).1 ≠ .ok ()) :
    ∃ t, (mergeColumn decl faults r c needsResurrect rowExistsLocally).2.table =
        Function.update r.table c.tbl t ∧ t.metadata = (r.table c.tbl).metadata ∧
      (t.Same (r.table c.tbl) ↔ ColumnStopsClean decl faults r c) := by
  rw [mergeColumn] at hfail ⊢
  rw [ColumnStopsClean]
  cases hwin : mergeDidCidWin decl faults r c.tbl c.pk c.colValue c.name c.colVersion with
  | error err =>
    refine ⟨r.table c.tbl, ?_, rfl, iff_of_true (.refl _) (.inl ⟨err, rfl⟩)⟩
    rw [Function.update_eq_self]
  | ok flag =>
    rw [hwin] at hfail
    dsimp only at hfail ⊢
    by_cases happly : (needsResurrect || !rowExistsLocally || flag) = true
    swap
    · rw [if_neg happly] at hfail
      exact absurd rfl hfail
    rw [if_pos happly] at hfail ⊢
    rw [Outcome.describe_snd]
    cases hcol : tableColumnLookup (schema c.tbl) c.name with
    | none =>
      refine ⟨r.table c.tbl, ?_, rfl, iff_of_true (.refl _) (.inr (.inr fun col h => by cases h))⟩
      rw [mergeInsertCol, hcol, Function.update_eq_self]
    | some col =>
      rcases mergeInsertCol_stops r c.tbl c.pk hcls hcol c.colValue c.colVersion c.dbVersion c.siteId
        c.seq (mt (Outcome.describe_fst_ok_iff _).mpr hfail) with ⟨t, htable, ht⟩
      refine ⟨t, htable, ?_⟩
      split_ifs at ht with hb
      · subst ht
        exact ⟨rfl, iff_of_true (.refl _) (.inr (.inl hb))⟩
      rcases ht with ⟨hrefused, rfl⟩ | hup
      · refine ⟨rfl, iff_of_true (.refl _) (.inr (.inr fun col' hcol' => .inl ?_))⟩
        cases hcol'
        cases hup : (decl c.tbl).colMerge (r.table c.tbl) c.pk col c.colValue with
        | error err => exact ⟨err, rfl⟩
        | ok t' =>
          rw [hup] at hrefused
          cases hrefused
      · rcases Declaration.colMerge_same_iff hup with ⟨hbase, hsame⟩
        refine ⟨by rw [hbase], ?_⟩
        rw [hbase, Table.same_base_iff, hsame]
        constructor
        · intro h
          refine .inr (.inr fun col' hcol' => .inr ?_)
          cases hcol'
          exact h
        · rintro (⟨err, h⟩ | h | h)
          · cases h
          · exact absurd h hb
          · rcases h col rfl with ⟨err, h⟩ | h
            · rw [hup] at h
              cases h
            · exact h

/-- The column of a row that is brought to life: once the sentinel is raised
the table is no longer what it was. -/
theorem resurrect_same_iff (hcls : (schema c.tbl).algo ≠ .crdtGos)
    (hlt : (r.table c.tbl).metaLocalCl c.pk < c.cl) {message : String}
    {needsResurrect rowExistsLocally : Bool}
    (hfail : (((mergeSentinelOnlyInsert decl faults r c.tbl c.pk c.cl c.dbVersion c.siteId
      c.seq).describe message).andThen fun r =>
        mergeColumn decl faults r c needsResurrect rowExistsLocally).1 ≠ .ok ()) :
    ∃ t, (((mergeSentinelOnlyInsert decl faults r c.tbl c.pk c.cl c.dbVersion c.siteId
        c.seq).describe message).andThen fun r =>
          mergeColumn decl faults r c needsResurrect rowExistsLocally).2.table =
            Function.update r.table c.tbl t ∧
      (t.Same (r.table c.tbl) ↔ SentinelStopsClean decl faults r c) := by
  by_cases hok : (mergeSentinelOnlyInsert decl faults r c.tbl c.pk c.cl c.dbVersion c.siteId
      c.seq).1 = .ok ()
  · rcases metadata_of_mergeSentinelOnlyInsert r c.tbl c.pk hok with ⟨t₁, htable, m, hm, hget⟩
    have hdescribed := (Outcome.describe_fst_ok_iff message).mpr hok
    rw [Outcome.andThen_eq_of_ok hdescribed, Outcome.describe_snd] at hfail ⊢
    rcases mergeColumn_same_iff hcls hfail with ⟨t, ht, hmeta, -⟩
    refine ⟨t, ?_, iff_of_false (fun hsame => ?_) ?_⟩
    · rw [ht, htable, Function.update_idem]
    · rw [htable, Function.update_self] at hmeta
      have hsentinel : ((r.table c.tbl).rowAt c.pk).sentinel = some m := by
        rw [RowState.sentinel, Table.rowAt_info, ← hsame.metadata, hmeta, hget]
      rw [Table.metaLocalCl_eq, RowState.localCl_of_sentinel hsentinel, hm] at hlt
      exact lt_irrefl _ hlt
    · rcases (mergeSentinelOnlyInsert_ok_iff r c.tbl c.pk c.cl c.dbVersion c.siteId c.seq).mp hok
        with ⟨hb, hz, hclock⟩
      simp [SentinelStopsClean, hb, hz, hclock]
  · rw [Outcome.andThen_snd_of_fail (mt (Outcome.describe_fst_ok_iff _).mp hok), Outcome.describe_snd]
    exact mergeSentinelOnlyInsert_same_iff hok

/-- A merge that fails changed nothing exactly when no statement before the
failing one wrote anything new. -/
theorem cloudsyncMergeInsert_same_iff (hcls : (schema c.tbl).algo = .crdtCls)
    (hfail : (cloudsyncMergeInsert decl faults r c).1 ≠ .ok ()) :
    (∀ j, ((cloudsyncMergeInsert decl faults r c).2.table j).Same (r.table j)) ↔
      StopsClean decl faults r c := by
  have hgos : (schema c.tbl).algo ≠ .crdtGos := by
    rw [hcls]
    decide
  suffices h : ∃ t, (cloudsyncMergeInsert decl faults r c).2.table =
      Function.update r.table c.tbl t ∧ (t.Same (r.table c.tbl) ↔ StopsClean decl faults r c) by
    rcases h with ⟨t, ht, hiff⟩
    rw [ht]
    exact (Table.forall_same_update_iff r.table c.tbl t).trans hiff
  have hleft : ∀ P : Prop, P → ∃ t, r.table = Function.update r.table c.tbl t ∧
      (t.Same (r.table c.tbl) ↔ P) :=
    fun P hP => ⟨r.table c.tbl, (Function.update_eq_self _ _).symm, iff_of_true (.refl _) hP⟩
  rw [cloudsyncMergeInsert, if_neg hgos] at hfail ⊢
  rw [StopsClean]
  cases hl : faults .localCl with
  | some err => exact hleft _ (.inl (Option.some_ne_none err))
  | none =>
    simp only [hl, ne_eq, not_true_eq_false, false_or] at hfail ⊢
    generalize hL : (r.table c.tbl).metaLocalCl c.pk = L at *
    by_cases hneg : L < 0
    · rw [if_pos hneg]
      exact hleft _ (.inl hneg)
    rw [if_neg hneg] at hfail ⊢
    by_cases hold : c.cl < L
    · rw [if_pos hold] at hfail
      exact absurd rfl hfail
    have hmod : c.cl.tmod 2 = c.cl % 2 := Int.tmod_eq_emod_of_nonneg (by omega)
    rw [if_neg hold, hmod] at hfail ⊢
    simp only [hneg, false_or]
    by_cases heven : c.cl % 2 = 0
    · rw [if_pos heven] at hfail ⊢
      by_cases heq : L = c.cl
      · rw [if_pos heq] at hfail
        exact absurd rfl hfail
      rw [if_neg heq] at hfail ⊢
      rw [Outcome.describe_snd, if_pos ⟨by omega, heven⟩]
      exact mergeDelete_same_iff (mt (Outcome.describe_fst_ok_iff _).mpr hfail)
    have hnotEven : ¬ (L < c.cl ∧ c.cl % 2 = 0) := fun h => heven h.2
    rw [if_neg heven] at hfail ⊢
    rw [if_neg hnotEven]
    by_cases htomb : c.name = CLOUDSYNC_TOMBSTONE_VALUE
    · rw [if_pos htomb] at hfail
      by_cases heq : L = c.cl
      · rw [if_pos heq] at hfail
        exact absurd rfl hfail
      have hlt : L < c.cl ∧ (c.name = CLOUDSYNC_TOMBSTONE_VALUE ∨ ¬ L = 0 ∨ 1 < c.cl) :=
        ⟨by omega, .inl htomb⟩
      rw [if_neg heq] at hfail
      rw [if_pos hlt, if_pos htomb, if_neg heq, Outcome.describe_snd]
      exact mergeSentinelOnlyInsert_same_iff (mt (Outcome.describe_fst_ok_iff _).mpr hfail)
    rw [if_neg htomb] at hfail
    rw [if_neg htomb]
    by_cases hrev : L < c.cl ∧ (L ≠ 0 ∨ 1 < c.cl)
    · have hflag : (decide (c.cl > L) && decide (c.cl % 2 = 1) &&
          (decide (¬ L = 0) || decide (c.cl > 1))) = true := by
        have hodd : c.cl % 2 = 1 := by omega
        simp only [hodd, hrev.1, gt_iff_lt, decide_true, Bool.and_self, Bool.true_and,
          Bool.or_eq_true, decide_eq_true_eq]
        exact hrev.2
      have hlt : L < c.cl ∧ (c.name = CLOUDSYNC_TOMBSTONE_VALUE ∨ ¬ L = 0 ∨ 1 < c.cl) :=
        ⟨hrev.1, .inr hrev.2⟩
      rw [if_pos hflag] at hfail ⊢
      rw [if_pos hlt]
      exact resurrect_same_iff hgos (hL ▸ hrev.1) hfail
    · have hflag : ¬ (decide (c.cl > L) && decide (c.cl % 2 = 1) &&
          (decide (¬ L = 0) || decide (c.cl > 1))) = true := by
        simp only [Bool.and_eq_true, Bool.or_eq_true, decide_eq_true_eq, gt_iff_lt]
        exact fun h => hrev ⟨h.1.1, h.2⟩
      have hlt : ¬ (L < c.cl ∧ (c.name = CLOUDSYNC_TOMBSTONE_VALUE ∨ ¬ L = 0 ∨ 1 < c.cl)) :=
        fun h => hrev ⟨h.1, h.2.resolve_left htomb⟩
      rw [if_neg hflag, Outcome.andThen_ok] at hfail ⊢
      rw [if_neg hlt]
      rcases mergeColumn_same_iff hgos hfail with ⟨t, ht, -, hiff⟩
      exact ⟨t, ht, hiff⟩

def oneRow : Replica (fun _ : Fin 1 => singleColumn) :=
  (cloudsyncMergeInsert (fun _ => foldedKey) noFaults (Replica.empty _ [1])
    ⟨⟨0, Nat.one_pos⟩, letterKey 0x61, some "v", .integer 10, 1, 1, [2], 1, 0⟩).2

/-- Only the upsert of a column fails, as under a policy on the table. -/
def denied : Faults := fun stmt => if stmt = .colMerge then some "denied" else none

/-- A newer value that is denied leaves the row alone. -/
theorem cloudsyncMergeInsert_same_denied :
    ((cloudsyncMergeInsert (fun _ => foldedKey) denied oneRow
      ⟨0, letterKey 0x61, some "v", .integer 11, 2, 2, [2], 1, 0⟩).2.table 0).Same
        (oneRow.table 0) := by
  have hclean : StopsClean (fun _ => foldedKey) denied oneRow
      ⟨0, letterKey 0x61, some "v", .integer 11, 2, 2, [2], 1, 0⟩ := by
    refine .inr (.inr ?_)
    rw [if_neg (by decide), if_neg (by decide)]
    exact .inr (.inl (by decide))
  exact (cloudsyncMergeInsert_same_iff rfl (by decide)).mpr hclean 0

/-- A row brought back whose value is denied keeps its raised causal length. -/
theorem cloudsyncMergeInsert_not_same :
    ¬ ∀ (n : ℕ) (schema : Fin n → TableContext) (decl : (i : Fin n) → Declaration (schema i))
      (faults : Faults) (r : Replica schema) (c : Change n), (schema c.tbl).algo = .crdtCls →
      (cloudsyncMergeInsert decl faults r c).1 ≠ .ok () →
      ∀ j, ((cloudsyncMergeInsert decl faults r c).2.table j).Same (r.table j) := by
  intro h
  have hkeys := (h 1 (fun _ => singleColumn) (fun _ => foldedKey) denied oneRow
    ⟨0, letterKey 0x61, some "v", .integer 11, 1, 2, [2], 3, 0⟩ rfl (by decide) 0).metadata
    (letterKey 0x61, CLOUDSYNC_TOMBSTONE_VALUE)
  exact absurd hkeys (by decide)

end
end Declared
end SqliteSync.Store
