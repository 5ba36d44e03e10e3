import SqliteSync.Store.MergeRow

/-!
# A merge that meets a failing statement

A merge that returns success met no failure, and did what it does without one.
A merge that returns an error stops where the statement failed, and what the
statements before it wrote stays.
-/
namespace SqliteSync.Store
open Library Clock

namespace Outcome
variable {σ : Type}

/-- `x`, if it succeeds, is `y`. -/
def Under (x y : Outcome σ) : Prop := x.1 = .ok () → x = y

theorem Under.refl (x : Outcome σ) : Under x x := fun _ => rfl

theorem Under.of_error {x y : Outcome σ} {err : String} (h : x.1 = .error err) : Under x y := by
  intro hok
  rw [h] at hok
  cases hok

theorem andThen_eq_of_ok {x : Outcome σ} (h : x.1 = .ok ()) (f : σ → Outcome σ) :
    x.andThen f = f x.2 := by
  rw [andThen, h]

theorem andThen_ok_fst {x : Outcome σ} {f : σ → Outcome σ} (h : (x.andThen f).1 = .ok ()) :
    x.1 = .ok () := by
  rcases x with ⟨err | ⟨⟩, s⟩
  · cases h
  · rfl

theorem Under.andThen {x y : Outcome σ} {f g : σ → Outcome σ} (h : Under x y)
    (hf : ∀ s, Under (f s) (g s)) : Under (x.andThen f) (y.andThen g) := by
  intro hok
  have hx := andThen_ok_fst hok
  have hy := h hx
  rw [andThen_eq_of_ok hx] at hok ⊢
  rw [andThen_eq_of_ok (hy ▸ hx), ← hy]
  exact hf x.2 hok

theorem describe_fst_ok {x : Outcome σ} {message : String}
    (h : (x.describe message).1 = .ok ()) : x.1 = .ok () := by
  rcases x with ⟨err | ⟨⟩, s⟩
  · cases h
  · rfl

theorem Under.describe {x y : Outcome σ} (h : Under x y) (message : String) :
    Under (x.describe message) (y.describe message) := by
  intro hok
  rw [h (describe_fst_ok hok)]

end Outcome

section
variable {n : ℕ} {schema : Fin n → TableContext} {faults : Faults} (r : Replica schema) (i : Fin n)

theorem stepStmt_of_none {stmt : MergeStmt} (h : faults stmt = none)
    (f : Table (schema i) → Table (schema i)) :
    stepStmt faults r i stmt f = stepStmt noFaults r i stmt f := by
  rw [stepStmt, h, stepStmt, noFaults_apply]

theorem stepStmt_of_some {stmt : MergeStmt} {err : String} (h : faults stmt = some err)
    (f : Table (schema i) → Table (schema i)) :
    stepStmt faults r i stmt f = (.error err, r) := by
  rw [stepStmt, h]

theorem stepInsync_of_none {stmt : MergeStmt} (h : faults stmt = none)
    (f : Table (schema i) → Table (schema i)) :
    stepInsync faults r i stmt f = stepInsync noFaults r i stmt f := by
  rw [stepInsync, stepStmt_of_none _ _ h, stepInsync]

theorem stepInsync_of_some {stmt : MergeStmt} {err : String} (h : faults stmt = some err)
    (f : Table (schema i) → Table (schema i)) :
    stepInsync faults r i stmt f = (.error err, r.setInsync false) := by
  rw [stepInsync, stepStmt_of_some _ _ h]
  rfl

theorem stepVersioned_of_none {stmt : MergeStmt} (h : faults stmt = none) (dbVersion : ℤ)
    (f : ℤ → Table (schema i) → Table (schema i)) :
    stepVersioned faults r i stmt dbVersion f = stepVersioned noFaults r i stmt dbVersion f := by
  rw [stepVersioned, h, stepVersioned, noFaults_apply]

theorem stepVersioned_of_some {stmt : MergeStmt} {err : String} (h : faults stmt = some err)
    (dbVersion : ℤ) (f : ℤ → Table (schema i) → Table (schema i)) :
    stepVersioned faults r i stmt dbVersion f = (.error err, r) := by
  rw [stepVersioned, h]

theorem stepStmt_under (stmt : MergeStmt) (f : Table (schema i) → Table (schema i)) :
    Outcome.Under (stepStmt faults r i stmt f) (stepStmt noFaults r i stmt f) := by
  cases h : faults stmt with
  | none => exact fun _ => stepStmt_of_none r i h f
  | some err => exact .of_error (congrArg Prod.fst (stepStmt_of_some r i h f))

theorem stepInsync_under (stmt : MergeStmt) (f : Table (schema i) → Table (schema i)) :
    Outcome.Under (stepInsync faults r i stmt f) (stepInsync noFaults r i stmt f) := by
  cases h : faults stmt with
  | none => exact fun _ => stepInsync_of_none r i h f
  | some err => exact .of_error (congrArg Prod.fst (stepInsync_of_some r i h f))

theorem stepVersioned_under (stmt : MergeStmt) (dbVersion : ℤ)
    (f : ℤ → Table (schema i) → Table (schema i)) :
    Outcome.Under (stepVersioned faults r i stmt dbVersion f)
      (stepVersioned noFaults r i stmt dbVersion f) := by
  cases h : faults stmt with
  | none => exact fun _ => stepVersioned_of_none r i h dbVersion f
  | some err => exact .of_error (congrArg Prod.fst (stepVersioned_of_some r i h dbVersion f))

theorem mergeSetWinnerClock_under (pk : Pk) (colname : String) (colVersion dbVersion : ℤ)
    (siteId : SiteId) (seq : ℤ) :
    Outcome.Under (mergeSetWinnerClock faults r i pk colname colVersion dbVersion siteId seq)
      (mergeSetWinnerClock noFaults r i pk colname colVersion dbVersion siteId seq) := by
  rw [mergeSetWinnerClock, mergeSetWinnerClock, noFaults_apply]
  cases faults (.siteId colname) with
  | none => exact stepVersioned_under _ i _ dbVersion _
  | some err => exact .of_error rfl

theorem mergeInsertCol_under (pk : Pk) (colName : String) (colValue : Value)
    (colVersion dbVersion : ℤ) (siteId : SiteId) (seq : ℤ) :
    Outcome.Under (mergeInsertCol faults r i pk colName colValue colVersion dbVersion siteId seq)
      (mergeInsertCol noFaults r i pk colName colValue colVersion dbVersion siteId seq) := by
  rw [mergeInsertCol, mergeInsertCol]
  cases tableColumnLookup (schema i) colName with
  | none => exact .of_error rfl
  | some col =>
    refine Outcome.Under.andThen ?_ fun r =>
      mergeSetWinnerClock_under r i pk colName colVersion dbVersion siteId seq
    intro hok
    rw [stepInsync_under _ i .colMerge _ hok]

theorem mergeDelete_under (pk : Pk) (colname : String) (cl dbVersion : ℤ) (siteId : SiteId)
    (seq : ℤ) :
    Outcome.Under (mergeDelete faults r i pk colname cl dbVersion siteId seq)
      (mergeDelete noFaults r i pk colname cl dbVersion siteId seq) :=
  (stepInsync_under r i .mergeDelete _).andThen fun r =>
    (mergeSetWinnerClock_under r i pk colname cl dbVersion siteId seq).andThen fun r =>
      stepStmt_under r i .deleteDrop _

theorem mergeSentinelOnlyInsert_under (pk : Pk) (cl dbVersion : ℤ) (siteId : SiteId) (seq : ℤ) :
    Outcome.Under (mergeSentinelOnlyInsert faults r i pk cl dbVersion siteId seq)
      (mergeSentinelOnlyInsert noFaults r i pk cl dbVersion siteId seq) :=
  (stepInsync_under r i .mergeSentinel _).andThen fun r =>
    (stepVersioned_under r i .zeroClock dbVersion _).andThen fun r =>
      mergeSetWinnerClock_under r i pk CLOUDSYNC_TOMBSTONE_VALUE cl dbVersion siteId seq

theorem mergeDidCidWin_of_ok {pk : Pk} {insertValue : Value} {colName : String} {colVersion : ℤ}
    {flag : Bool} (h : mergeDidCidWin faults r i pk insertValue colName colVersion = .ok flag) :
    mergeDidCidWin noFaults r i pk insertValue colName colVersion = .ok flag := by
  rw [mergeDidCidWin] at h ⊢
  rw [noFaults_apply]
  cases hv : faults .colVersion with
  | some err =>
    rw [hv] at h
    cases h
  | none =>
    rw [hv] at h
    cases hx : faults .colValue with
    | none => simpa only [hx, noFaults_apply] using h
    | some err =>
      rw [hx] at h
      revert h
      dsimp only
      split
      · exact id
      · split_ifs
        · exact id
        · exact id
        · split
          · exact id
          · intro h
            cases h

end

section
variable {n : ℕ} {schema : Fin n → TableContext} {faults : Faults} (r : Replica schema)
  (c : Change n)

theorem mergeColumn_under (needsResurrect rowExistsLocally : Bool) :
    Outcome.Under (mergeColumn faults r c needsResurrect rowExistsLocally)
      (mergeColumn noFaults r c needsResurrect rowExistsLocally) := by
  rw [mergeColumn, mergeColumn]
  cases h : mergeDidCidWin faults r c.tbl c.pk c.colValue c.name c.colVersion with
  | error err => exact .of_error rfl
  | ok flag =>
    rw [mergeDidCidWin_of_ok r c.tbl h]
    dsimp only
    split_ifs
    · exact (mergeInsertCol_under r c.tbl c.pk c.name c.colValue c.colVersion c.dbVersion c.siteId
        c.seq).describe _
    · exact .refl _

theorem cloudsyncMergeInsert_under :
    Outcome.Under (cloudsyncMergeInsert faults r c) (cloudsyncMergeInsert noFaults r c) := by
  rw [cloudsyncMergeInsert, cloudsyncMergeInsert, noFaults_apply]
  by_cases hgos : (schema c.tbl).algo = .crdtGos
  · rw [if_pos hgos, if_pos hgos]
    exact (mergeInsertCol_under r c.tbl c.pk c.name c.colValue c.colVersion c.dbVersion c.siteId
      c.seq).describe _
  rw [if_neg hgos, if_neg hgos]
  cases faults .localCl with
  | some err => exact .of_error rfl
  | none =>
    dsimp only
    split_ifs
    · exact .refl _
    · exact .refl _
    · exact .refl _
    · exact (mergeDelete_under r c.tbl c.pk c.name c.colVersion c.dbVersion c.siteId
        c.seq).describe _
    · exact .refl _
    · exact (mergeSentinelOnlyInsert_under r c.tbl c.pk c.colVersion c.dbVersion c.siteId
        c.seq).describe _
    · refine Outcome.Under.andThen ?_ fun r => mergeColumn_under r c _ _
      exact (mergeSentinelOnlyInsert_under r c.tbl c.pk c.cl c.dbVersion c.siteId c.seq).describe _
    · exact Outcome.Under.andThen (.refl _) fun r => mergeColumn_under r c _ _

end
end SqliteSync.Store
