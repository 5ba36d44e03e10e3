import SqliteSync.Store.Replica

/-!
# Local statements

A local statement changes rows of the base table one at a time, and after each
row the trigger of the table records the change in the metadata. A statement
that meets a constraint, or whose trigger fails, is undone by SQLite, so only
the statements that succeed are followed. Delete triggers do not fire for the
rows an `OR REPLACE` removes, `recursive_triggers` being off.
-/
namespace SqliteSync.Store
open Library Clock

section
variable {n : ℕ} {schema : Fin n → TableContext} (r : Replica schema) (i : Fin n)

def localUpdateSentinel (pk : Pk) (dbVersion seq : ℤ) : Replica schema :=
  r.setTable i ((r.table i).metaSentinelUpdate dbVersion seq pk)

def localMarkInsertSentinelMeta (pk : Pk) (dbVersion seq : ℤ) : Replica schema :=
  r.setTable i ((r.table i).metaSentinelInsert pk dbVersion seq)

def localMarkInsertOrUpdateMetaImpl (pk : Pk) (colName : Option String)
    (colVersion dbVersion seq : ℤ) : Replica schema :=
  r.setTable i ((r.table i).metaRowInsertUpdate pk (colName.getD CLOUDSYNC_TOMBSTONE_VALUE)
    colVersion dbVersion seq)

def localMarkInsertOrUpdateMeta (pk : Pk) (colName : String) (dbVersion seq : ℤ) :
    Replica schema :=
  localMarkInsertOrUpdateMetaImpl r i pk (some colName) 1 dbVersion seq

def localMarkDeleteMeta (pk : Pk) (dbVersion seq : ℤ) : Replica schema :=
  localMarkInsertOrUpdateMetaImpl r i pk none 2 dbVersion seq

def localDropMeta (pk : Pk) : Replica schema := r.setTable i ((r.table i).metaRowDrop pk)

/-- The metadata of `pk2`, the old key, moves to `pk`. `cloudsync_seq()` is
registered as deterministic and has no argument, so it is evaluated once for the
statement, whatever the number of rows. -/
def localUpdateMoveMeta (pk pk2 : Pk) (dbVersion : ℤ) : Replica schema :=
  let seq := r.bumpSeq
  seq.2.setTable i ((seq.2.table i).metaUpdateMove pk dbVersion seq.1 pk2)

/-- The calls with `BUMP_SEQ(data)` as their last argument. -/
def withSeq (f : Replica schema → ℤ → Replica schema) : Replica schema :=
  f r.bumpSeq.2 r.bumpSeq.1

def markColumns (pk : Pk) (dbVersion : ℤ) (cols : List (Fin (schema i).ncols)) : Replica schema :=
  cols.foldl (fun r col => withSeq r fun r seq =>
    localMarkInsertOrUpdateMeta r i pk ((schema i).colName col) dbVersion seq) r

def cloudsyncInsert (pk : Pk) : Replica schema :=
  let next := r.dbVersionNext CLOUDSYNC_VALUE_NOTSET
  let dbVersion := next.1
  let r := next.2
  let r :=
    if (schema i).ncols = 0 then
      withSeq r fun r seq => localMarkInsertSentinelMeta r i pk dbVersion seq
    else if (r.table i).metaPkexists pk then
      withSeq r fun r seq => localUpdateSentinel r i pk dbVersion seq
    else r
  markColumns r i pk dbVersion (List.finRange (schema i).ncols)

/-- Whether any part of the primary key changed, as far as the comparison tells. -/
def prikeyChanged (pk oldpk : Pk) : Bool :=
  (pk.zip oldpk).any fun v => dbutilsValueCompare (some v.1) (some v.2) != 0

def changedColumns {table : TableContext} (row oldRow : Row table) : List (Fin table.ncols) :=
  (List.finRange table.ncols).filter fun col =>
    dbutilsValueCompare (some (row col)) (some (oldRow col)) != 0

def cloudsyncUpdate (pk oldpk : Pk) (row oldRow : Row (schema i)) : Replica schema :=
  let next := r.dbVersionNext CLOUDSYNC_VALUE_NOTSET
  let dbVersion := next.1
  let r := next.2
  let r :=
    if prikeyChanged pk oldpk then
      let r := withSeq r fun r seq => localMarkDeleteMeta r i oldpk dbVersion seq
      let r := localUpdateMoveMeta r i pk oldpk dbVersion
      withSeq r fun r seq => localMarkInsertSentinelMeta r i pk dbVersion seq
    else r
  markColumns r i pk dbVersion (changedColumns row oldRow)

def cloudsyncDelete (pk : Pk) : Replica schema :=
  let next := r.dbVersionNext CLOUDSYNC_VALUE_NOTSET
  let r := withSeq next.2 fun r seq => localMarkDeleteMeta r i pk next.1 seq
  localDropMeta r i pk

end

/-- What a local statement does to one row: `INSERT`, `UPDATE` of the row stored
under `oldpk`, `DELETE`; the first two may be `OR REPLACE`. -/
inductive RowChange (table : TableContext) where
  | insert (orReplace : Bool) (pk : Pk) (row : Row table)
  | update (orReplace : Bool) (oldpk pk : Pk) (row : Row table)
  | delete (pk : Pk)

section
variable {n : ℕ} {schema : Fin n → TableContext}

/-- One row of a local statement with its trigger; `none` when the statement
fails there, on the primary key or on what a grow-only set forbids. -/
def applyRowChange (r : Replica schema) (i : Fin n) : RowChange (schema i) → Option (Replica schema)
  | .insert orReplace pk row =>
    if (r.table i).base.get pk ≠ none ∧ orReplace = false then none
    else
      let written := r.setTable i ((r.table i).insertBase pk row)
      some (if written.cloudsyncIsSync i then written else cloudsyncInsert written i pk)
  | .update orReplace oldpk pk row =>
    match (r.table i).base.get oldpk with
    | none => none
    | some oldRow =>
      if (schema i).algo = .crdtGos ∧ r.enabled i = true then none
      else if pk ≠ oldpk ∧ (r.table i).base.get pk ≠ none ∧ orReplace = false then none
      else
        let written := r.setTable i ((r.table i).updateBase oldpk pk row)
        some (if (schema i).algo = .crdtGos ∨ written.cloudsyncIsSync i then written
          else cloudsyncUpdate written i pk oldpk row oldRow)
  | .delete pk =>
    match (r.table i).base.get pk with
    | none => none
    | some _ =>
      if (schema i).algo = .crdtGos ∧ r.enabled i = true then none
      else
        let written := r.setTable i ((r.table i).realMergeDelete pk)
        some (if (schema i).algo = .crdtGos ∨ written.cloudsyncIsSync i then written
          else cloudsyncDelete written i pk)

/-- What a local change that is not refused leads to. -/
inductive RowApplied (r : Replica schema) (i : Fin n) :
    RowChange (schema i) → Replica schema → Prop
  | insert (orReplace : Bool) (pk : Pk) (row : Row (schema i))
      (hfree : ¬ ((r.table i).base.get pk ≠ none ∧ orReplace = false)) :
      RowApplied r i (.insert orReplace pk row)
        (if r.cloudsyncIsSync i then r.setTable i ((r.table i).insertBase pk row)
        else cloudsyncInsert (r.setTable i ((r.table i).insertBase pk row)) i pk)
  | update (orReplace : Bool) (oldpk pk : Pk) (row oldRow : Row (schema i))
      (hold : (r.table i).base.get oldpk = some oldRow)
      (hfree : ¬ (pk ≠ oldpk ∧ (r.table i).base.get pk ≠ none ∧ orReplace = false)) :
      RowApplied r i (.update orReplace oldpk pk row)
        (if (schema i).algo = .crdtGos ∨ r.cloudsyncIsSync i then
          r.setTable i ((r.table i).updateBase oldpk pk row)
        else cloudsyncUpdate (r.setTable i ((r.table i).updateBase oldpk pk row)) i pk oldpk row
          oldRow)
  | delete (pk : Pk) (oldRow : Row (schema i)) (hold : (r.table i).base.get pk = some oldRow) :
      RowApplied r i (.delete pk)
        (if (schema i).algo = .crdtGos ∨ r.cloudsyncIsSync i then
          r.setTable i ((r.table i).realMergeDelete pk)
        else cloudsyncDelete (r.setTable i ((r.table i).realMergeDelete pk)) i pk)

theorem applyRowChange_applied {r r' : Replica schema} {i : Fin n} {c : RowChange (schema i)}
    (h : applyRowChange r i c = some r') : RowApplied r i c r' := by
  cases c with
  | insert orReplace pk row =>
    simp only [applyRowChange, Option.ite_none_left_eq_some, Option.some.injEq] at h
    rcases h with ⟨hfree, rfl⟩
    exact .insert orReplace pk row hfree
  | update orReplace oldpk pk row =>
    cases hold : (r.table i).base.get oldpk with
    | none => simp [applyRowChange, hold] at h
    | some oldRow =>
      simp only [applyRowChange, hold, Option.ite_none_left_eq_some, Option.some.injEq] at h
      rcases h with ⟨-, hfree, rfl⟩
      exact .update orReplace oldpk pk row oldRow hold hfree
  | delete pk =>
    cases hold : (r.table i).base.get pk with
    | none => simp [applyRowChange, hold] at h
    | some oldRow =>
      simp only [applyRowChange, hold, Option.ite_none_left_eq_some, Option.some.injEq] at h
      rcases h with ⟨-, rfl⟩
      exact .delete pk oldRow hold

/-- A local statement on one table, as the rows it changes in the order SQLite
changes them. -/
def applyStatement (r : Replica schema) (i : Fin n) (rows : List (RowChange (schema i))) :
    Option (Replica schema) :=
  rows.foldlM (fun r c => applyRowChange r i c) r

end
end SqliteSync.Store
