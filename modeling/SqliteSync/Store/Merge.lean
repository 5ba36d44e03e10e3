import SqliteSync.Store.Replica

/-!
# Merging a remote change

`cloudsync_merge_insert` and the functions it is made of. Every statement they
run may fail, with the error text of SQLite; what earlier statements wrote then
stays written.
-/
namespace SqliteSync.Store
open Library Clock

/-- A row inserted into `cloudsync_changes`. -/
structure Change (n : ℕ) where
  tbl : Fin n
  pk : Pk
  colName : Option String
  colValue : Value
  colVersion : ℤ
  dbVersion : ℤ
  siteId : SiteId
  cl : ℤ
  seq : ℤ
deriving DecidableEq

/-- The statements of a merge, those run twice told apart by the column they mark. -/
inductive MergeStmt where
  | localCl
  | colVersion
  | colValue
  | colMerge
  | mergeDelete
  | mergeSentinel
  | zeroClock
  | siteId (colName : String)
  | winnerClock (colName : String)
  | deleteDrop
deriving DecidableEq

/-- Which statements fail, and with what error. -/
abbrev Faults := MergeStmt → Option String

def noFaults : Faults := fun _ => none

@[simp] theorem noFaults_apply (stmt : MergeStmt) : noFaults stmt = none := rfl

section
variable {n : ℕ} {schema : Fin n → TableContext} (faults : Faults) (r : Replica schema)
  (i : Fin n) (pk : Pk)

/-- One step of a statement that writes the table. -/
def stepStmt (stmt : MergeStmt) (f : Table (schema i) → Table (schema i)) :
    Outcome (Replica schema) :=
  match faults stmt with
  | some err => (.error err, r)
  | none => (.ok (), r.setTable i (f (r.table i)))

/-- The same between `SYNCBIT_SET` and `SYNCBIT_RESET`. -/
def stepInsync (stmt : MergeStmt) (f : Table (schema i) → Table (schema i)) :
    Outcome (Replica schema) :=
  let x := stepStmt faults (r.setInsync true) i stmt f
  (x.1, x.2.setInsync false)

/-- A statement one of whose arguments is `cloudsync_db_version_next(?)`. -/
def stepVersioned (stmt : MergeStmt) (dbVersion : ℤ)
    (f : ℤ → Table (schema i) → Table (schema i)) : Outcome (Replica schema) :=
  match faults stmt with
  | some err => (.error err, r)
  | none =>
    let next := r.dbVersionNext dbVersion
    (.ok (), next.2.setTable i (f next.1 (next.2.table i)))

def mergeSetWinnerClock (colname : String) (colVersion dbVersion : ℤ) (siteId : SiteId) (seq : ℤ) :
    Outcome (Replica schema) :=
  match faults (.siteId colname) with
  | some err => (.error err, r)
  | none =>
    let site := getsetSiteid r.siteIds siteId
    stepVersioned faults { r with siteIds := site.2 } i (.winnerClock colname) dbVersion
      (fun version t => t.metaWinnerClock pk colname colVersion version seq site.1)

def mergeInsertCol (colName : String) (colValue : Value) (colVersion dbVersion : ℤ)
    (siteId : SiteId) (seq : ℤ) : Outcome (Replica schema) :=
  match tableColumnLookup (schema i) colName with
  | none =>
    (.error "Unable to retrieve column merge precompiled statement in merge_insert_col.", r)
  | some col =>
    -- the trigger that forbids updates of a grow-only set is switched off around the upsert
    let gos := (schema i).algo == .crdtGos
    let r := if gos then r.setEnabled i false else r
    let x := stepInsync faults r i .colMerge (fun t => t.colMerge pk col colValue)
    let x : Outcome (Replica schema) := (x.1, if gos then x.2.setEnabled i true else x.2)
    x.andThen fun r => mergeSetWinnerClock faults r i pk colName colVersion dbVersion siteId seq

def mergeDelete (colname : String) (cl dbVersion : ℤ) (siteId : SiteId) (seq : ℤ) :
    Outcome (Replica schema) :=
  (stepInsync faults r i .mergeDelete (fun t => t.realMergeDelete pk)).andThen fun r =>
    (mergeSetWinnerClock faults r i pk colname cl dbVersion siteId seq).andThen fun r =>
      stepStmt faults r i .deleteDrop (fun t => t.metaMergeDeleteDrop pk)

def mergeZeroclockOnResurrect (dbVersion : ℤ) : Outcome (Replica schema) :=
  stepVersioned faults r i .zeroClock dbVersion (fun version t => t.metaZeroClock version pk)

/-- Whether the incoming column wins over what the row holds, or the error met on the way. -/
def mergeDidCidWin (insertValue : Value) (colName : String) (colVersion : ℤ) :
    Except String Bool :=
  match faults .colVersion with
  | some err => .error err
  | none =>
    match (r.table i).metaColVersion pk colName with
    | none => .ok true
    | some localVersion =>
      if colVersion > localVersion then .ok true
      else if colVersion < localVersion then .ok false
      else
        match tableColumnLookup (schema i) colName with
        | none =>
          .error "Unable to retrieve column value precompiled statement in merge_did_cid_win."
        | some col =>
          match faults .colValue with
          | some err => .error err
          | none =>
            .ok (decide (dbutilsValueCompare (some insertValue) ((r.table i).colValue pk col) > 0))

def mergeSentinelOnlyInsert (cl dbVersion : ℤ) (siteId : SiteId) (seq : ℤ) :
    Outcome (Replica schema) :=
  (stepInsync faults r i .mergeSentinel (fun t => t.realMergeSentinel pk)).andThen fun r =>
    (mergeZeroclockOnResurrect faults r i pk dbVersion).andThen fun r =>
      mergeSetWinnerClock faults r i pk CLOUDSYNC_TOMBSTONE_VALUE cl dbVersion siteId seq

end

section
variable {n : ℕ} {schema : Fin n → TableContext} (faults : Faults) (r : Replica schema)
  (c : Change n)

/-- `insert_name`. -/
def Change.name (c : Change n) : String := c.colName.getD CLOUDSYNC_TOMBSTONE_VALUE

def cloudsyncMergeInsertGos : Outcome (Replica schema) :=
  (mergeInsertCol faults r c.tbl c.pk c.name c.colValue c.colVersion c.dbVersion c.siteId
    c.seq).describe "Unable to perform GOS merge_insert_col: "

/-- The error `merge_get_local_cl` leaves when the stored length is negative. -/
def localClError (localCl : ℤ) : String := if localCl = -1 then "another row available" else ""

/-- The last part of a merge: the column is written if it wins, and it wins
without a comparison when the row is resurrected or new. -/
def mergeColumn (needsResurrect rowExistsLocally : Bool) : Outcome (Replica schema) :=
  match mergeDidCidWin faults r c.tbl c.pk c.colValue c.name c.colVersion with
  | .error err => (.error ("Unable to perform merge_did_cid_win: " ++ err), r)
  | .ok flag =>
    if needsResurrect || !rowExistsLocally || flag then
      (mergeInsertCol faults r c.tbl c.pk c.name c.colValue c.colVersion c.dbVersion c.siteId
        c.seq).describe "Unable to perform merge_insert_col: "
    else (.ok (), r)

def cloudsyncMergeInsert : Outcome (Replica schema) :=
  if (schema c.tbl).algo = .crdtGos then cloudsyncMergeInsertGos faults r c else
  match faults .localCl with
  | some err => (.error ("Unable to compute local causal length: " ++ err), r)
  | none =>
    let localCl := (r.table c.tbl).metaLocalCl c.pk
    if localCl < 0 then
      (.error ("Unable to compute local causal length: " ++ localClError localCl), r)
    else if c.cl < localCl then (.ok (), r)
    else if c.cl.tmod 2 = 0 then
      if localCl = c.cl then (.ok (), r)
      else (mergeDelete faults r c.tbl c.pk c.name c.colVersion c.dbVersion c.siteId
        c.seq).describe "Unable to perform merge_delete: "
    else if c.name = CLOUDSYNC_TOMBSTONE_VALUE then
      if localCl = c.cl then (.ok (), r)
      else (mergeSentinelOnlyInsert faults r c.tbl c.pk c.colVersion c.dbVersion c.siteId
        c.seq).describe "Unable to perform merge_sentinel_only_insert: "
    else
      let needsResurrect := decide (c.cl > localCl) && decide (c.cl.tmod 2 = 1)
      let rowExistsLocally := decide (localCl ≠ 0)
      let x : Outcome (Replica schema) :=
        if needsResurrect && (rowExistsLocally || decide (c.cl > 1)) then
          (mergeSentinelOnlyInsert faults r c.tbl c.pk c.cl c.dbVersion c.siteId
            c.seq).describe "Unable to perform merge_sentinel_only_insert: "
        else (.ok (), r)
      x.andThen fun r => mergeColumn faults r c needsResurrect rowExistsLocally

end
end SqliteSync.Store
