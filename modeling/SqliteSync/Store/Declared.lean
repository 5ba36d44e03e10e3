import SqliteSync.Store.Constraint
import SqliteSync.Store.Feed
import SqliteSync.Store.Local

/-!
# Tables as they are declared

To a base table two primary keys may be the same although they differ, by a
collation or as numbers, and by the affinity of a column it may store another
value than the one that is bound. The statements of a merge, those of users and
the feed are followed on such a table; what they write into the metadata stays
under the key that is bound.
-/
namespace SqliteSync.Store
open Library Clock

/-- The constraints of a table, what it stores of a primary key and of a value
that is bound, and when a stored key is the same as another one. A key with a
NULL is the same as none; primary keys are NOT NULL, and `accepts` refuses it. -/
structure Declaration (table : TableContext) extends Constraints table where
  storeKey : Pk → Pk
  store : Fin table.ncols → Value → Value
  same : Pk → Pk → Bool
  same_self : ∀ pk row, accepts pk row = true → same pk pk = true

namespace Declaration
variable {table : TableContext} (d : Declaration table) (base : Keyed Pk (Row table))

/-- Keys are compared by content, and keys and values are stored as bound. -/
def plain (cons : Constraints table) : Declaration table where
  toConstraints := cons
  storeKey := id
  store _ := id
  same pk pk' := pk == pk'
  same_self _ _ _ := beq_self_eq_true _

/-- The row that `WHERE pk = ?` selects. -/
def select (pk : Pk) : Option (Pk × Row table) :=
  base.rows.find? fun r => d.same r.1 (d.storeKey pk)

def conflict (pk : Pk) (row : Row table) : Option Pk :=
  (d.before.findSome? fun key => Constraints.holder base key pk row).or
    (((base.rows.find? fun r => d.same r.1 pk).map Prod.fst).or
      (d.after.findSome? fun key => Constraints.holder base key pk row))

def Inserts (pk : Pk) : Prop :=
  d.accepts (d.storeKey pk) table.dflt = true ∧ d.conflict base (d.storeKey pk) table.dflt = none

instance (pk : Pk) : Decidable (d.Inserts base pk) := inferInstanceAs (Decidable (_ ∧ _))

def fresh (col : Fin table.ncols) (value : Value) : Row table :=
  Function.update table.dflt col (d.store col value)

/-- `col_merge_stmt`. -/
def upsert (pk : Pk) (col : Fin table.ncols) (value : Value) :
    Except String (Keyed Pk (Row table)) :=
  if d.accepts (d.storeKey pk) (d.fresh col value) = false then .error "constraint failed"
  else
    match d.conflict base (d.storeKey pk) (d.fresh col value) with
    | none => .ok (base.replace (d.storeKey pk) (d.fresh col value))
    | some k =>
      match base.get k with
      | none => .ok base
      | some row =>
        if d.accepts k (Function.update row col (d.store col value)) = false ∨
            d.violates base k (Function.update row col (d.store col value)) = true then
          .error "constraint failed"
        else .ok (base.replace k (Function.update row col (d.store col value)))

/-- A stored row that an `OR REPLACE` removes to store another one. -/
def clashes (pk : Pk) (row : Row table) (k : Pk) (old : Row table) : Bool :=
  d.same k pk || (d.before ++ d.after).any fun key => (key pk row).isSome && key k old == key pk row

/-- A statement of a user stores a row, which it gives as it is to be stored. -/
def write (orReplace : Bool) (pk : Pk) (row : Row table) : Option (Keyed Pk (Row table)) :=
  if d.accepts pk row = false ∨
      (base.rows.any fun r => d.clashes pk row r.1 r.2) = true ∧ orReplace = false then none
  else some ((base.deleteWhere (d.clashes pk row)).replace pk row)

variable (t : Table table)

def colValue (pk : Pk) (col : Fin table.ncols) : Option Value :=
  (d.select t.base pk).map fun r => r.2 col

def realMergeDelete (pk : Pk) : Table table :=
  { t with base := t.base.deleteWhere fun k _ => d.same k (d.storeKey pk) }

def realMergeSentinel (pk : Pk) : Table table :=
  if d.Inserts t.base pk then { t with base := t.base.replace (d.storeKey pk) table.dflt } else t

def colMerge (pk : Pk) (col : Fin table.ncols) (value : Value) : Except String (Table table) :=
  (d.upsert t.base pk col value).map fun base => { t with base := base }

def cloudsyncColValue (colName : String) (pk : Pk) : Except String Value :=
  if colName = CLOUDSYNC_TOMBSTONE_VALUE then .ok .null
  else
    match tableColumnLookup table colName with
    | none => .error "Unable to retrieve column value precompiled statement in clousdsync_colvalue."
    | some col => .ok ((d.colValue t pk col).getD CLOUDSYNC_RLS_RESTRICTED_VALUE)

end Declaration

namespace Declared
variable {n : ℕ} {schema : Fin n → TableContext} (decl : (i : Fin n) → Declaration (schema i))

/-! ## Merges -/

section
variable (faults : Faults) (r : Replica schema) (i : Fin n) (pk : Pk)

/-- The upsert fails where a constraint is in its way, too. -/
def stepUpsert (col : Fin (schema i).ncols) (value : Value) : Outcome (Replica schema) :=
  match faults .colMerge with
  | some err => (.error err, r)
  | none =>
    match (decl i).colMerge (r.table i) pk col value with
    | .error err => (.error err, r)
    | .ok t => (.ok (), r.setTable i t)

def mergeInsertCol (colName : String) (colValue : Value) (colVersion dbVersion : ℤ)
    (siteId : SiteId) (seq : ℤ) : Outcome (Replica schema) :=
  match tableColumnLookup (schema i) colName with
  | none =>
    (.error "Unable to retrieve column merge precompiled statement in merge_insert_col.", r)
  | some col =>
    let gos := (schema i).algo == .crdtGos
    let r := if gos then r.setEnabled i false else r
    let x := stepUpsert decl faults (r.setInsync true) i pk col colValue
    let x : Outcome (Replica schema) := (x.1, x.2.setInsync false)
    let x : Outcome (Replica schema) := (x.1, if gos then x.2.setEnabled i true else x.2)
    x.andThen fun r => mergeSetWinnerClock faults r i pk colName colVersion dbVersion siteId seq

def mergeDelete (colname : String) (cl dbVersion : ℤ) (siteId : SiteId) (seq : ℤ) :
    Outcome (Replica schema) :=
  (stepInsync faults r i .mergeDelete (fun t => (decl i).realMergeDelete t pk)).andThen fun r =>
    (mergeSetWinnerClock faults r i pk colname cl dbVersion siteId seq).andThen fun r =>
      stepStmt faults r i .deleteDrop (fun t => t.metaMergeDeleteDrop pk)

def mergeDidCidWin (insertValue : Value) (colName : String) (colVersion : ℤ) :
    Except String Bool :=
  match faults .colVersion with
  | some err => .error err
  | none =>
    match (r.table i).metaColVersion pk colName with
    | none => .ok true
    | some localVersion =>
      if colVersion > localVersion then .ok true
      else if colVersion < localVersion then .ok false
      else
        match tableColumnLookup (schema i) colName with
        | none =>
          .error "Unable to retrieve column value precompiled statement in merge_did_cid_win."
        | some col =>
          match faults .colValue with
          | some err => .error err
          | none =>
            .ok (decide (dbutilsValueCompare (some insertValue)
              ((decl i).colValue (r.table i) pk col) > 0))

def mergeSentinelOnlyInsert (cl dbVersion : ℤ) (siteId : SiteId) (seq : ℤ) :
    Outcome (Replica schema) :=
  (stepInsync faults r i .mergeSentinel (fun t => (decl i).realMergeSentinel t pk)).andThen fun r =>
    (mergeZeroclockOnResurrect faults r i pk dbVersion).andThen fun r =>
      mergeSetWinnerClock faults r i pk CLOUDSYNC_TOMBSTONE_VALUE cl dbVersion siteId seq

end
section
variable (faults : Faults) (r : Replica schema) (c : Change n)

def mergeColumn (needsResurrect rowExistsLocally : Bool) : Outcome (Replica schema) :=
  match mergeDidCidWin decl faults r c.tbl c.pk c.colValue c.name c.colVersion with
  | .error err => (.error ("Unable to perform merge_did_cid_win: " ++ err), r)
  | .ok flag =>
    if needsResurrect || !rowExistsLocally || flag then
      (mergeInsertCol decl faults r c.tbl c.pk c.name c.colValue c.colVersion c.dbVersion c.siteId
        c.seq).describe "Unable to perform merge_insert_col: "
    else (.ok (), r)

def cloudsyncMergeInsert : Outcome (Replica schema) :=
  if (schema c.tbl).algo = .crdtGos then
    (mergeInsertCol decl faults r c.tbl c.pk c.name c.colValue c.colVersion c.dbVersion c.siteId
      c.seq).describe "Unable to perform GOS merge_insert_col: "
  else
  match faults .localCl with
  | some err => (.error ("Unable to compute local causal length: " ++ err), r)
  | none =>
    let localCl := (r.table c.tbl).metaLocalCl c.pk
    if localCl < 0 then
      (.error ("Unable to compute local causal length: " ++ localClError localCl), r)
    else if c.cl < localCl then (.ok (), r)
    else if c.cl.tmod 2 = 0 then
      if localCl = c.cl then (.ok (), r)
      else (mergeDelete decl faults r c.tbl c.pk c.name c.colVersion c.dbVersion c.siteId
        c.seq).describe "Unable to perform merge_delete: "
    else if c.name = CLOUDSYNC_TOMBSTONE_VALUE then
      if localCl = c.cl then (.ok (), r)
      else (mergeSentinelOnlyInsert decl faults r c.tbl c.pk c.colVersion c.dbVersion c.siteId
        c.seq).describe "Unable to perform merge_sentinel_only_insert: "
    else
      let needsResurrect := decide (c.cl > localCl) && decide (c.cl.tmod 2 = 1)
      let rowExistsLocally := decide (localCl ≠ 0)
      let x : Outcome (Replica schema) :=
        if needsResurrect && (rowExistsLocally || decide (c.cl > 1)) then
          (mergeSentinelOnlyInsert decl faults r c.tbl c.pk c.cl c.dbVersion c.siteId
            c.seq).describe "Unable to perform merge_sentinel_only_insert: "
        else (.ok (), r)
      x.andThen fun r => mergeColumn decl faults r c needsResurrect rowExistsLocally

end

/-! ## Local statements -/

section
variable (r : Replica schema) (i : Fin n)

/-- One row of a local statement with its trigger, which is given the key and the
values as the table has stored them. -/
def applyRowChange : RowChange (schema i) → Option (Replica schema)
  | .insert orReplace pk row =>
    ((decl i).write (r.table i).base orReplace pk row).map fun base =>
      let written := r.setTable i { r.table i with base := base }
      if written.cloudsyncIsSync i then written else cloudsyncInsert written i pk
  | .update orReplace oldpk pk row =>
    match (r.table i).base.get oldpk with
    | none => none
    | some oldRow =>
      if (schema i).algo = .crdtGos ∧ r.enabled i = true then none
      else
        ((decl i).write ((r.table i).base.deleteWhere fun k _ => k == oldpk) orReplace pk row).map
          fun base =>
            let written := r.setTable i { r.table i with base := base }
            if (schema i).algo = .crdtGos ∨ written.cloudsyncIsSync i then written
            else cloudsyncUpdate written i pk oldpk row oldRow
  | .delete pk => Store.applyRowChange r i (.delete pk)

def applyStatement (rows : List (RowChange (schema i))) : Option (Replica schema) :=
  rows.foldlM (fun r c => applyRowChange decl r i c) r

/-! ## The feed -/

def tableChanges : Except String (List (Change n)) :=
  ((r.table i).metadata.rows.mapM fun row =>
    ((decl i).cloudsyncColValue (r.table i) row.1.2 row.1.1).map
      (r.changeOf i row.1 row.2)).map
        (List.filter fun c => c.colValue ≠ CLOUDSYNC_RLS_RESTRICTED_VALUE)

def cloudsyncChanges : Except String (List (Change n)) :=
  ((List.finRange n).mapM (tableChanges decl r)).map List.flatten

end

/-! ## Tables that compare keys by content -/

section
variable {table : TableContext} (cons : Constraints table) (t : Table table) (pk : Pk)

theorem find_plain (base : Keyed Pk (Row table)) :
    (base.rows.find? fun r => (Declaration.plain cons).same r.1 pk) =
      (base.get pk).map fun row => (pk, row) := by
  apply Keyed.find?_key
  intro r _
  rw [Bool.eq_iff_iff, decide_eq_true_eq]
  exact beq_iff_eq

theorem conflict_plain (base : Keyed Pk (Row table)) (row : Row table) :
    (Declaration.plain cons).conflict base pk row = cons.conflict base pk row := by
  rw [Declaration.conflict, Constraints.conflict, find_plain]
  cases base.get pk <;> rfl

theorem colMerge_plain (col : Fin table.ncols) (value : Value) :
    (Declaration.plain cons).colMerge t pk col value =
      (cons.upsert t.base pk col value).map fun base => { t with base := base } := by
  rw [Declaration.colMerge, Declaration.upsert, Constraints.upsert, conflict_plain]
  rfl

theorem realMergeSentinel_plain : (Declaration.plain cons).realMergeSentinel t pk =
    { t with base := cons.insertOrIgnore t.base pk } := by
  rw [Declaration.realMergeSentinel, Constraints.insertOrIgnore]
  have hinserts : (Declaration.plain cons).Inserts t.base pk ↔ cons.Insertable t.base pk := by
    rw [Declaration.Inserts, Constraints.Insertable, conflict_plain]
    rfl
  by_cases h : cons.Insertable t.base pk
  · rw [if_pos h, if_pos (hinserts.mpr h)]
    rfl
  · rw [if_neg h, if_neg (mt hinserts.mp h)]

theorem colValue_plain (col : Fin table.ncols) :
    (Declaration.plain cons).colValue t pk col = t.colValue pk col := by
  rw [Declaration.colValue, Declaration.select, Table.colValue]
  change ((t.base.rows.find? fun r => (Declaration.plain cons).same r.1 pk).map _) = _
  rw [find_plain, Option.map_map]
  rfl

end

section
variable (cons : (i : Fin n) → Constraints (schema i)) (r : Replica schema) (c : Change n)

theorem mergeInsertCol_plain : mergeInsertCol (fun i => .plain (cons i)) noFaults r c.tbl c.pk
    c.name c.colValue c.colVersion c.dbVersion c.siteId c.seq =
      Constrained.mergeInsertCol cons r c.tbl c.pk c.name c.colValue c.colVersion c.dbVersion
        c.siteId c.seq := by
  rw [mergeInsertCol, Constrained.mergeInsertCol]
  cases tableColumnLookup (schema c.tbl) c.name with
  | none => rfl
  | some col =>
    simp only [stepUpsert, noFaults_apply, colMerge_plain]
    cases (cons c.tbl).upsert _ c.pk col c.colValue <;> rfl

theorem mergeSentinelOnlyInsert_plain (cl : ℤ) :
    mergeSentinelOnlyInsert (fun i => .plain (cons i)) noFaults r c.tbl c.pk cl c.dbVersion c.siteId
      c.seq = Constrained.mergeSentinelOnlyInsert cons r c.tbl c.pk cl c.dbVersion c.siteId
        c.seq := by
  have hstep : stepInsync noFaults r c.tbl .mergeSentinel
      (fun t => (Declaration.plain (cons c.tbl)).realMergeSentinel t c.pk) =
        (.ok (), (Constrained.setBase (r.setInsync true) c.tbl ((cons c.tbl).insertOrIgnore
          ((r.setInsync true).table c.tbl).base c.pk)).setInsync false) := by
    rw [stepInsync, stepStmt, noFaults_apply, realMergeSentinel_plain]
    rfl
  rw [mergeSentinelOnlyInsert, hstep, Outcome.andThen_ok, Constrained.mergeSentinelOnlyInsert]

theorem mergeDelete_plain (i : Fin n) (pk : Pk) (colname : String) (cl dbVersion : ℤ)
    (siteId : SiteId) (seq : ℤ) :
    mergeDelete (fun i => .plain (cons i)) noFaults r i pk colname cl dbVersion siteId seq =
      Store.mergeDelete noFaults r i pk colname cl dbVersion siteId seq := rfl

theorem mergeColumn_plain (needsResurrect rowExistsLocally : Bool) :
    mergeColumn (fun i => .plain (cons i)) noFaults r c needsResurrect rowExistsLocally =
      Constrained.mergeColumn cons r c needsResurrect rowExistsLocally := by
  have hwin : mergeDidCidWin (fun i => .plain (cons i)) noFaults r c.tbl c.pk c.colValue c.name
      c.colVersion = Store.mergeDidCidWin noFaults r c.tbl c.pk c.colValue c.name c.colVersion := by
    rw [mergeDidCidWin, Store.mergeDidCidWin]
    cases (r.table c.tbl).metaColVersion c.pk c.name with
    | none => rfl
    | some localVersion =>
      cases tableColumnLookup (schema c.tbl) c.name with
      | none => rfl
      | some col => simp only [colValue_plain, noFaults_apply]
  rw [mergeColumn, mergeInsertCol_plain, hwin]
  rfl

/-- A merge on a table that compares keys by content and stores what is bound is one
on a table with its constraints. -/
theorem cloudsyncMergeInsert_plain : cloudsyncMergeInsert (fun i => .plain (cons i)) noFaults r c =
    Constrained.cloudsyncMergeInsert cons r c := by
  rw [cloudsyncMergeInsert, Constrained.cloudsyncMergeInsert, mergeInsertCol_plain, noFaults_apply]
  simp only [mergeSentinelOnlyInsert_plain, mergeColumn_plain, mergeDelete_plain]

end
end Declared
end SqliteSync.Store
