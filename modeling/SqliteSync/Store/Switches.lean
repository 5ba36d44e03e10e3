import SqliteSync.Causal.Run

/-!
# The switches of the synchronisation

A merge switches the triggers off around its statements on the base table: the
flag of the context for all of them, and for a grow-only set the flag of the table.
Both are then set to a fixed value, not to the one they had.
-/
namespace SqliteSync.Store
open Library Clock

section
variable {n : ℕ} {schema : Fin n → TableContext} (faults binding : Faults) (r : Replica schema)
  (i : Fin n) (pk : Pk) (c : Change n)

/-- A statement whose key cannot be decoded, or whose parameters cannot be bound, is
given up before anything is switched. -/
def bound (stmt : MergeStmt) (f : Replica schema → Outcome (Replica schema)) :
    Outcome (Replica schema) :=
  match binding stmt with
  | some err => (.error err, r)
  | none => f r

/-- `merge_insert_col`, with the errors in front of its statement. -/
def mergeInsertColBound (colName : String) (colValue : Value) (colVersion dbVersion : ℤ)
    (siteId : SiteId) (seq : ℤ) : Outcome (Replica schema) :=
  match tableColumnLookup (schema i) colName with
  | none =>
    (.error "Unable to retrieve column merge precompiled statement in merge_insert_col.", r)
  | some _ =>
    bound binding r .colMerge fun r =>
      mergeInsertCol faults r i pk colName colValue colVersion dbVersion siteId seq

/-- `merge_delete`, with the errors in front of its statement. -/
def mergeDeleteBound (colname : String) (cl dbVersion : ℤ) (siteId : SiteId) (seq : ℤ) :
    Outcome (Replica schema) :=
  bound binding r .mergeDelete fun r => mergeDelete faults r i pk colname cl dbVersion siteId seq

/-- `merge_sentinel_only_insert`, with the errors in front of its statement. -/
def mergeSentinelOnlyInsertBound (cl dbVersion : ℤ) (siteId : SiteId) (seq : ℤ) :
    Outcome (Replica schema) :=
  bound binding r .mergeSentinel fun r =>
    mergeSentinelOnlyInsert faults r i pk cl dbVersion siteId seq

def Change.resurrects (localCl : ℤ) : Bool :=
  decide (c.cl > localCl) && decide (c.cl.tmod 2 = 1) &&
    (decide (localCl ≠ 0) || decide (c.cl > 1))

/-- `mergeColumn` with the errors in front of its statements. -/
def mergeColumnBound (needsResurrect rowExistsLocally : Bool) : Outcome (Replica schema) :=
  match mergeDidCidWin faults r c.tbl c.pk c.colValue c.name c.colVersion with
  | .error err => (.error ("Unable to perform merge_did_cid_win: " ++ err), r)
  | .ok flag =>
    if needsResurrect || !rowExistsLocally || flag then
      (mergeInsertColBound faults binding r c.tbl c.pk c.name c.colValue c.colVersion c.dbVersion
        c.siteId c.seq).describe "Unable to perform merge_insert_col: "
    else (.ok (), r)

/-- `cloudsync_merge_insert` with all of its error paths. -/
def cloudsyncMergeInsertBound : Outcome (Replica schema) :=
  if (schema c.tbl).algo = .crdtGos then
    (mergeInsertColBound faults binding r c.tbl c.pk c.name c.colValue c.colVersion c.dbVersion
      c.siteId c.seq).describe "Unable to perform GOS merge_insert_col: "
  else
  match faults .localCl with
  | some err => (.error ("Unable to compute local causal length: " ++ err), r)
  | none =>
    let localCl := (r.table c.tbl).metaLocalCl c.pk
    if localCl < 0 then
      (.error ("Unable to compute local causal length: " ++ localClError localCl), r)
    else if c.cl < localCl then (.ok (), r)
    else if c.cl.tmod 2 = 0 then
      if localCl = c.cl then (.ok (), r)
      else (mergeDeleteBound faults binding r c.tbl c.pk c.name c.colVersion c.dbVersion c.siteId
        c.seq).describe "Unable to perform merge_delete: "
    else if c.name = CLOUDSYNC_TOMBSTONE_VALUE then
      if localCl = c.cl then (.ok (), r)
      else (mergeSentinelOnlyInsertBound faults binding r c.tbl c.pk c.colVersion c.dbVersion
        c.siteId c.seq).describe "Unable to perform merge_sentinel_only_insert: "
    else
      let needsResurrect := decide (c.cl > localCl) && decide (c.cl.tmod 2 = 1)
      let rowExistsLocally := decide (localCl ≠ 0)
      let x : Outcome (Replica schema) :=
        if needsResurrect && (rowExistsLocally || decide (c.cl > 1)) then
          (mergeSentinelOnlyInsertBound faults binding r c.tbl c.pk c.cl c.dbVersion c.siteId
            c.seq).describe "Unable to perform merge_sentinel_only_insert: "
        else (.ok (), r)
      x.andThen fun r => mergeColumnBound faults binding r c needsResurrect rowExistsLocally

def ColReached (binding : Faults) (table : TableContext) (colName : String) : Prop :=
  tableColumnLookup table colName ≠ none ∧ binding .colMerge = none

/-- The merge gets to a statement on the base table: to the delete, to the insert of
a row without columns, or to the upsert of a column that wins. -/
def BaseReached : Prop :=
  if (schema c.tbl).algo = .crdtGos then ColReached binding (schema c.tbl) c.name
  else
    let localCl := (r.table c.tbl).metaLocalCl c.pk
    faults .localCl = none ∧ 0 ≤ localCl ∧ localCl ≤ c.cl ∧
      if c.cl.tmod 2 = 0 then localCl ≠ c.cl ∧ binding .mergeDelete = none
      else if c.name = CLOUDSYNC_TOMBSTONE_VALUE then
        localCl ≠ c.cl ∧ binding .mergeSentinel = none
      else if c.resurrects localCl then binding .mergeSentinel = none
      else ColReached binding (schema c.tbl) c.name ∧ ∃ flag,
        mergeDidCidWin faults r c.tbl c.pk c.colValue c.name c.colVersion = .ok flag ∧
          (localCl < c.cl ∧ c.cl.tmod 2 = 1 ∨ localCl = 0 ∨ flag = true)

end

section
variable {n : ℕ} {schema : Fin n → TableContext} (faults : Faults) (r : Replica schema)
  (i : Fin n) (pk : Pk)

theorem cloudsyncMergeInsertBound_noFaults (c : Change n) :
    cloudsyncMergeInsertBound faults noFaults r c = cloudsyncMergeInsert faults r c := by
  have hcol : ∀ (r : Replica schema) colName colValue colVersion dbVersion siteId seq,
      mergeInsertColBound faults noFaults r c.tbl c.pk colName colValue colVersion dbVersion siteId
        seq = mergeInsertCol faults r c.tbl c.pk colName colValue colVersion dbVersion siteId
          seq := by
    intro r colName colValue colVersion dbVersion siteId seq
    rw [mergeInsertColBound]
    cases hlookup : tableColumnLookup (schema c.tbl) colName with
    | none => rw [mergeInsertCol, hlookup]
    | some col => rfl
  have hmerge : ∀ (r : Replica schema) needsResurrect rowExistsLocally,
      mergeColumnBound faults noFaults r c needsResurrect rowExistsLocally =
        mergeColumn faults r c needsResurrect rowExistsLocally := by
    intro r needsResurrect rowExistsLocally
    rw [mergeColumnBound, mergeColumn]
    cases mergeDidCidWin faults r c.tbl c.pk c.colValue c.name c.colVersion with
    | error err => rfl
    | ok flag => simp only [hcol]
  rw [cloudsyncMergeInsertBound, cloudsyncMergeInsert, cloudsyncMergeInsertGos]
  simp only [hcol, hmerge]
  rfl

/-! ## What the switches are after each function -/

/-- The flag of the context and those of the tables. -/
def switches (r : Replica schema) : Bool × (Fin n → Bool) := (r.data.insync, r.enabled)

theorem switches_andThen {x : Outcome (Replica schema)}
    {f : Replica schema → Outcome (Replica schema)}
    (hf : switches (f x.2).2 = switches x.2) : switches (x.andThen f).2 = switches x.2 := by
  rcases x with ⟨err | ⟨⟩, s⟩
  · rfl
  · exact hf

theorem switches_stepStmt (stmt : MergeStmt) (f : Table (schema i) → Table (schema i)) :
    switches (stepStmt faults r i stmt f).2 = switches r := by
  rw [stepStmt]
  cases faults stmt <;> rfl

theorem switches_stepInsync (stmt : MergeStmt) (f : Table (schema i) → Table (schema i)) :
    switches (stepInsync faults r i stmt f).2 = (false, r.enabled) := by
  have h := switches_stepStmt faults (r.setInsync true) i stmt f
  rw [switches, Prod.mk.injEq] at h
  rw [stepInsync, switches, Prod.mk.injEq]
  exact ⟨rfl, h.2⟩

theorem switches_stepVersioned (stmt : MergeStmt) (dbVersion : ℤ)
    (f : ℤ → Table (schema i) → Table (schema i)) :
    switches (stepVersioned faults r i stmt dbVersion f).2 = switches r := by
  rw [stepVersioned]
  cases faults stmt with
  | some err => rfl
  | none =>
    have hinsync : (r.dbVersionNext dbVersion).2.data.insync = r.data.insync :=
      dbVersionCheckUptodate_insync r.view r.data
    exact Prod.ext hinsync rfl

theorem switches_mergeSetWinnerClock (colname : String) (colVersion dbVersion : ℤ)
    (siteId : SiteId) (seq : ℤ) :
    switches (mergeSetWinnerClock faults r i pk colname colVersion dbVersion siteId seq).2 =
      switches r := by
  rw [mergeSetWinnerClock]
  cases faults (.siteId colname) with
  | some err => rfl
  | none => exact switches_stepVersioned faults _ i _ _ _

theorem switches_mergeInsertCol {colName : String}
    (hlookup : tableColumnLookup (schema i) colName ≠ none) (colValue : Value)
    (colVersion dbVersion : ℤ) (siteId : SiteId) (seq : ℤ) :
    switches (mergeInsertCol faults r i pk colName colValue colVersion dbVersion siteId seq).2 =
      (false, if (schema i).algo = .crdtGos then Function.update r.enabled i true
        else r.enabled) := by
  rw [mergeInsertCol]
  cases hcol : tableColumnLookup (schema i) colName with
  | none => exact absurd hcol hlookup
  | some col =>
    dsimp only
    rw [switches_andThen (switches_mergeSetWinnerClock faults _ i pk _ _ _ _ _)]
    by_cases hgos : (schema i).algo = .crdtGos
    · have h := switches_stepInsync faults (r.setEnabled i false) i .colMerge
        (fun t => t.colMerge pk col colValue)
      rw [switches, Prod.mk.injEq] at h
      simp only [hgos, beq_self_eq_true, if_true]
      refine Prod.ext h.1 ?_
      rw [switches, Replica.setEnabled, h.2]
      exact Function.update_idem _ _ _
    · have hbeq : ((schema i).algo == TableAlgo.crdtGos) = false := beq_false_of_ne hgos
      simp only [hbeq, hgos, Bool.false_eq_true, if_false]
      exact switches_stepInsync faults r i .colMerge _

theorem switches_mergeDelete (colname : String) (cl dbVersion : ℤ) (siteId : SiteId) (seq : ℤ) :
    switches (mergeDelete faults r i pk colname cl dbVersion siteId seq).2 =
      (false, r.enabled) := by
  rw [mergeDelete, switches_andThen, switches_stepInsync]
  rw [switches_andThen (switches_stepStmt faults _ i _ _), switches_mergeSetWinnerClock]

theorem switches_mergeSentinelOnlyInsert (cl dbVersion : ℤ) (siteId : SiteId) (seq : ℤ) :
    switches (mergeSentinelOnlyInsert faults r i pk cl dbVersion siteId seq).2 =
      (false, r.enabled) := by
  rw [mergeSentinelOnlyInsert, switches_andThen, switches_stepInsync]
  rw [switches_andThen (switches_mergeSetWinnerClock faults _ i pk _ _ _ _ _),
    mergeZeroclockOnResurrect, switches_stepVersioned]

end

section
variable {n : ℕ} {schema : Fin n → TableContext} (faults binding : Faults) (r : Replica schema)
  (c : Change n)

def switched : Bool × (Fin n → Bool) :=
  (false, if (schema c.tbl).algo = .crdtGos then Function.update r.enabled c.tbl true
    else r.enabled)

theorem switched_cls {r : Replica schema} {c : Change n} (hgos : (schema c.tbl).algo ≠ .crdtGos) :
    switched r c = (false, r.enabled) := by
  rw [switched, if_neg hgos]

theorem mergeInsertColBound_cases :
    ColReached binding (schema c.tbl) c.name ∧ switches (mergeInsertColBound faults binding r c.tbl
        c.pk c.name c.colValue c.colVersion c.dbVersion c.siteId c.seq).2 = switched r c ∨
      ¬ ColReached binding (schema c.tbl) c.name ∧ switches (mergeInsertColBound faults binding r
        c.tbl c.pk c.name c.colValue c.colVersion c.dbVersion c.siteId c.seq).2 = switches r := by
  rw [mergeInsertColBound]
  cases hlookup : tableColumnLookup (schema c.tbl) c.name with
  | none => exact .inr ⟨fun h => h.1 hlookup, rfl⟩
  | some col =>
    cases hbinding : binding .colMerge with
    | some err =>
      right
      refine ⟨fun h => ?_, ?_⟩
      · rw [h.2] at hbinding
        cases hbinding
      · dsimp only
        rw [bound, hbinding]
    | none =>
      left
      have hne : tableColumnLookup (schema c.tbl) c.name ≠ none := by
        rw [hlookup]
        exact Option.some_ne_none col
      refine ⟨⟨hne, hbinding⟩, ?_⟩
      dsimp only
      rw [bound, hbinding]
      exact switches_mergeInsertCol faults r c.tbl c.pk hne _ _ _ _ _

theorem mergeColumnBound_cases (needsResurrect rowExistsLocally : Bool) :
    (ColReached binding (schema c.tbl) c.name ∧ ∃ flag,
        mergeDidCidWin faults r c.tbl c.pk c.colValue c.name c.colVersion = .ok flag ∧
          (needsResurrect || !rowExistsLocally || flag) = true) ∧
        switches (mergeColumnBound faults binding r c needsResurrect rowExistsLocally).2 =
          switched r c ∨
      ¬ (ColReached binding (schema c.tbl) c.name ∧ ∃ flag,
        mergeDidCidWin faults r c.tbl c.pk c.colValue c.name c.colVersion = .ok flag ∧
          (needsResurrect || !rowExistsLocally || flag) = true) ∧
        switches (mergeColumnBound faults binding r c needsResurrect rowExistsLocally).2 =
          switches r := by
  rw [mergeColumnBound]
  cases hwin : mergeDidCidWin faults r c.tbl c.pk c.colValue c.name c.colVersion with
  | error err =>
    right
    refine ⟨?_, rfl⟩
    rintro ⟨-, flag, hflag, -⟩
    cases hflag
  | ok flag =>
    dsimp only
    by_cases hwrite : (needsResurrect || !rowExistsLocally || flag) = true
    · rw [if_pos hwrite, Outcome.describe_snd]
      rcases mergeInsertColBound_cases faults binding r c with
        ⟨hreached, h⟩ | ⟨hnot, h⟩
      · exact .inl ⟨⟨hreached, flag, rfl, hwrite⟩, h⟩
      · exact .inr ⟨fun hr => hnot hr.1, h⟩
    · rw [if_neg hwrite]
      right
      refine ⟨?_, rfl⟩
      rintro ⟨-, flag', hflag, hwrite'⟩
      cases hflag
      exact hwrite hwrite'

theorem switches_mergeColumnBound {r : Replica schema} {c : Change n}
    (hgos : (schema c.tbl).algo ≠ .crdtGos) (hinsync : r.data.insync = false)
    (needsResurrect rowExistsLocally : Bool) :
    switches (mergeColumnBound faults binding r c needsResurrect rowExistsLocally).2 =
      switches r := by
  rcases mergeColumnBound_cases faults binding r c needsResurrect
    rowExistsLocally with ⟨-, h⟩ | ⟨-, h⟩
  · rw [h, switched_cls hgos, switches, hinsync]
  · exact h

theorem mergeInsertBound_cases :
    BaseReached faults binding r c ∧
        switches (cloudsyncMergeInsertBound faults binding r c).2 = switched r c ∨
      ¬ BaseReached faults binding r c ∧
        switches (cloudsyncMergeInsertBound faults binding r c).2 = switches r := by
  rw [cloudsyncMergeInsertBound, BaseReached]
  by_cases hgos : (schema c.tbl).algo = .crdtGos
  · rw [if_pos hgos, if_pos hgos, Outcome.describe_snd]
    exact mergeInsertColBound_cases faults binding r c
  rw [if_neg hgos, if_neg hgos]
  cases hfault : faults .localCl with
  | some err => exact .inr ⟨fun h => Option.some_ne_none _ h.1, rfl⟩
  | none =>
    dsimp only
    generalize hcl : (r.table c.tbl).metaLocalCl c.pk = localCl
    by_cases hnegative : localCl < 0
    · rw [if_pos hnegative]
      exact .inr ⟨fun h => absurd h.2.1 (not_le.mpr hnegative), rfl⟩
    by_cases hbehind : c.cl < localCl
    · rw [if_neg hnegative, if_pos hbehind]
      exact .inr ⟨fun h => absurd h.2.2.1 (not_le.mpr hbehind), rfl⟩
    rw [if_neg hnegative, if_neg hbehind]
    simp only [true_and, not_lt.mp hnegative, not_lt.mp hbehind]
    by_cases hdelete : c.cl.tmod 2 = 0
    · simp only [if_pos hdelete]
      by_cases hequal : localCl = c.cl
      · rw [if_pos hequal]
        exact .inr ⟨fun h => h.1 hequal, rfl⟩
      · rw [if_neg hequal, Outcome.describe_snd, mergeDeleteBound, switched_cls hgos, bound]
        cases hbinding : binding .mergeDelete with
        | some err => exact .inr ⟨fun h => Option.some_ne_none _ h.2, rfl⟩
        | none =>
          exact .inl ⟨⟨hequal, rfl⟩, switches_mergeDelete faults r c.tbl c.pk _ _ _ _ _⟩
    simp only [if_neg hdelete]
    by_cases hsentinel : c.name = CLOUDSYNC_TOMBSTONE_VALUE
    · simp only [if_pos hsentinel]
      by_cases hequal : localCl = c.cl
      · rw [if_pos hequal]
        exact .inr ⟨fun h => h.1 hequal, rfl⟩
      · rw [if_neg hequal, Outcome.describe_snd, mergeSentinelOnlyInsertBound, switched_cls hgos,
          bound]
        cases hbinding : binding .mergeSentinel with
        | some err => exact .inr ⟨fun h => Option.some_ne_none _ h.2, rfl⟩
        | none =>
          exact .inl ⟨⟨hequal, rfl⟩, switches_mergeSentinelOnlyInsert faults r c.tbl c.pk _ _ _ _⟩
    simp only [if_neg hsentinel]
    have hresurrects : (decide (c.cl > localCl) && decide (c.cl.tmod 2 = 1) &&
        (decide (localCl ≠ 0) || decide (c.cl > 1))) = c.resurrects localCl := rfl
    rw [hresurrects]
    cases c.resurrects localCl with
    | true =>
      rw [if_pos rfl, if_pos rfl, mergeSentinelOnlyInsertBound, bound]
      cases hbinding : binding .mergeSentinel with
      | some err => exact .inr ⟨Option.some_ne_none _, rfl⟩
      | none =>
        refine .inl ⟨rfl, ?_⟩
        rw [switched_cls hgos]
        have hx : switches ((mergeSentinelOnlyInsert faults r c.tbl c.pk c.cl c.dbVersion c.siteId
            c.seq).describe "Unable to perform merge_sentinel_only_insert: ").2 =
              (false, r.enabled) := by
          rw [Outcome.describe_snd]
          exact switches_mergeSentinelOnlyInsert faults r c.tbl c.pk _ _ _ _
        rw [← hx]
        exact switches_andThen
          (switches_mergeColumnBound faults binding hgos (congrArg Prod.fst hx) _ _)
    | false =>
      rw [if_neg Bool.false_ne_true, if_neg Bool.false_ne_true, Outcome.andThen_ok]
      have hwrite : ∀ flag : Bool, ((decide (c.cl > localCl) && decide (c.cl.tmod 2 = 1)) ||
          !decide (localCl ≠ 0) || flag) = true ↔
            (localCl < c.cl ∧ c.cl.tmod 2 = 1 ∨ localCl = 0 ∨ flag = true) := by
        intro flag
        simp [or_assoc]
      have hcases := mergeColumnBound_cases faults binding r c
        (decide (c.cl > localCl) && decide (c.cl.tmod 2 = 1)) (decide (localCl ≠ 0))
      simp only [hwrite] at hcases
      exact hcases

/-- A merge leaves the switches as it found them exactly when, where it gets to the base
table, the context was not in sync, and a grow-only set was enabled. -/
theorem mergeInsert_restores_iff :
    switches (cloudsyncMergeInsertBound faults binding r c).2 = switches r ↔
      (BaseReached faults binding r c → r.data.insync = false ∧
        ((schema c.tbl).algo = .crdtGos → r.enabled c.tbl = true)) := by
  rcases mergeInsertBound_cases faults binding r c with
    ⟨hreached, h⟩ | ⟨hnot, h⟩
  · rw [h, switched, switches, Prod.mk.injEq, imp_iff_right hreached, eq_comm]
    apply and_congr_right
    intro _
    by_cases hgos : (schema c.tbl).algo = .crdtGos
    · rw [if_pos hgos, imp_iff_right hgos, Function.update_eq_self_iff, eq_comm]
    · rw [if_neg hgos]
      exact iff_of_true rfl (fun h => absurd h hgos)
  · rw [h]
    exact iff_of_true rfl (fun hr => absurd hr hnot)

end

def oneColumnSet : TableContext := { singleColumn with algo := .crdtGos }

/-- An empty grow-only set of one column, which `cloudsync_disable` has switched off. -/
def disabledSet : Replica fun _ : Fin 1 => oneColumnSet where
  data := cloudsyncContextCreate
  dataVersion := 1
  siteIds := [[1]]
  enabled _ := false
  table _ := Table.empty oneColumnSet

/-- A remote row switches it on. -/
theorem not_mergeInsert_restores :
    ¬ switches (cloudsyncMergeInsertBound noFaults noFaults disabledSet
        ⟨⟨0, Nat.one_pos⟩, [.integer 1], some "v", .integer 10, 1, 1, [2], 1, 0⟩).2 =
      switches disabledSet := by
  intro h
  have henabled := congrFun (congrArg Prod.snd h) ⟨0, Nat.one_pos⟩
  exact absurd henabled (by decide)

end SqliteSync.Store
