import SqliteSync.Value
import SqliteSync.Library.Keyed

/-!
# Augmented tables and their prepared statements

A synchronised table is a base table and its `_cloudsync` metadata table, and
the statements `table_add_stmts` and `table_add_to_context_cb` prepare are
functions on the two. A primary key stands for its encoding, which is injective
on lists of values, and keys differ when their contents do. The base table has
no other constraint, and holds a value as it was bound; tables as they may be
declared, with collations, affinities and constraints, are those of `Declaration`.
-/
namespace SqliteSync.Store
open Library

def CLOUDSYNC_TOMBSTONE_VALUE : String := "__[RIP]__"

/-- `__[RLS]__`, as the bytes of a TEXT. -/
def CLOUDSYNC_RLS_RESTRICTED_VALUE : Value :=
  .text ⟨[0x5F, 0x5F, 0x5B, 0x52, 0x4C, 0x53, 0x5D, 0x5F, 0x5F], by decide⟩

def INT64_MAX : ℤ := 2 ^ 63 - 1

/-- `x + d` of SQL on 64-bit integers for a small positive `d`: past the range
the sum is a REAL, which reads back as the largest integer. -/
def sqlAdd (x d : ℤ) : ℤ := min (x + d) INT64_MAX

/-- A name as `strcasecmp` sees it. -/
def lowered (name : String) : List Char := name.toList.map Char.toLower

inductive TableAlgo where
  | none
  | crdtCls
  | crdtGos
  | crdtDws
  | crdtAws
deriving DecidableEq

/-- What `cloudsync_table_context` knows of a table, with the constant defaults
of its columns. Column names are stored lower-cased, and differ. -/
structure TableContext where
  algo : TableAlgo
  ncols : ℕ
  colName : Fin ncols → String
  dflt : Fin ncols → Value
  colName_lower : ∀ i, lowered (colName i) = (colName i).toList
  colName_injective : Function.Injective colName

/-- `table_column_lookup`, by position: the first column of the name, case ignored. -/
def tableColumnLookup (table : TableContext) (colName : String) : Option (Fin table.ncols) :=
  (List.finRange table.ncols).find? fun i => lowered (table.colName i) == lowered colName

@[simp] theorem tableColumnLookup_colName (table : TableContext) (i : Fin table.ncols) :
    tableColumnLookup table (table.colName i) = some i := by
  rw [tableColumnLookup]
  cases h : (List.finRange table.ncols).find? (fun j =>
      lowered (table.colName j) == lowered (table.colName i)) with
  | none => simpa using List.find?_eq_none.mp h i (List.mem_finRange i)
  | some j =>
    have hj : lowered (table.colName j) = lowered (table.colName i) := by
      simpa using List.find?_some h
    rw [table.colName_lower, table.colName_lower] at hj
    rw [table.colName_injective (String.toList_injective hj)]

theorem colName_ne_tombstone (table : TableContext) (i : Fin table.ncols) :
    table.colName i ≠ CLOUDSYNC_TOMBSTONE_VALUE := by
  intro h
  have hl := table.colName_lower i
  rw [h] at hl
  exact absurd hl (by decide)

/-- A primary key, standing for its encoding. -/
abbrev Pk := List Value

/-- A row of the metadata table, without its key. Site 0 is the local one. -/
structure MetaRow where
  colVersion : ℤ
  dbVersion : ℤ
  siteId : ℕ
  seq : ℤ
deriving DecidableEq, Repr

/-- The values of the columns outside the primary key. -/
abbrev Row (table : TableContext) := Fin table.ncols → Value

structure Table (table : TableContext) where
  base : Keyed Pk (Row table)
  metadata : Keyed (Pk × String) MetaRow

def sentinelBump (colVersion : ℤ) : ℤ :=
  if colVersion % 2 = 0 then sqlAdd colVersion 1 else sqlAdd colVersion 2

namespace Table
variable {table : TableContext}

def empty (table : TableContext) : Table table := ⟨Keyed.empty, Keyed.empty⟩

def metaPkexists (t : Table table) (pk : Pk) : Bool := t.metadata.existsWhere (fun k => k.1 == pk)

def metaSentinelUpdate (t : Table table) (dbVersion seq : ℤ) (pk : Pk) : Table table :=
  { t with
    metadata := t.metadata.updateWhere (fun k => k == (pk, CLOUDSYNC_TOMBSTONE_VALUE))
      (fun r => ⟨sentinelBump r.colVersion, dbVersion, 0, seq⟩) }

def metaSentinelInsert (t : Table table) (pk : Pk) (dbVersion seq : ℤ) : Table table :=
  { t with
    metadata := t.metadata.upsert (pk, CLOUDSYNC_TOMBSTONE_VALUE) ⟨1, dbVersion, 0, seq⟩
      (fun r => ⟨sentinelBump r.colVersion, dbVersion, 0, seq⟩) }

def metaRowInsertUpdate (t : Table table) (pk : Pk) (colName : String)
    (colVersion dbVersion seq : ℤ) : Table table :=
  { t with
    metadata := t.metadata.upsert (pk, colName) ⟨colVersion, dbVersion, 0, seq⟩
      (fun r => ⟨sqlAdd r.colVersion 1, dbVersion, 0, seq⟩) }

def isColumnOf (pk : Pk) (k : Pk × String) : Bool :=
  k.1 == pk && k.2 != CLOUDSYNC_TOMBSTONE_VALUE

def metaRowDrop (t : Table table) (pk : Pk) : Table table :=
  { t with metadata := t.metadata.deleteWhere (fun k _ => isColumnOf pk k) }

def metaUpdateMove (t : Table table) (pk : Pk) (dbVersion seq : ℤ) (oldpk : Pk) : Table table :=
  { t with
    metadata := t.metadata.moveWhere (isColumnOf oldpk) (fun k => (pk, k.2))
      (fun _ => ⟨1, dbVersion, 0, seq⟩) }

/-- `meta_local_cl_stmt`, a NULL read as 0. -/
def metaLocalCl (t : Table table) (pk : Pk) : ℤ :=
  match t.metadata.get (pk, CLOUDSYNC_TOMBSTONE_VALUE) with
  | some r => r.colVersion
  | none => if t.metaPkexists pk then 1 else 0

def metaWinnerClock (t : Table table) (pk : Pk) (colName : String) (colVersion dbVersion seq : ℤ)
    (siteId : ℕ) : Table table :=
  { t with metadata := t.metadata.replace (pk, colName) ⟨colVersion, dbVersion, siteId, seq⟩ }

def metaMergeDeleteDrop (t : Table table) (pk : Pk) : Table table := t.metaRowDrop pk

def metaZeroClock (t : Table table) (dbVersion : ℤ) (pk : Pk) : Table table :=
  { t with
    metadata := t.metadata.updateWhere (isColumnOf pk)
      (fun r => { r with colVersion := 0, dbVersion := dbVersion }) }

def metaColVersion (t : Table table) (pk : Pk) (colName : String) : Option ℤ :=
  (t.metadata.get (pk, colName)).map MetaRow.colVersion

/-- `col_value_stmt`. -/
def colValue (t : Table table) (pk : Pk) (col : Fin table.ncols) : Option Value :=
  (t.base.get pk).map (fun row => row col)

def realMergeDelete (t : Table table) (pk : Pk) : Table table :=
  { t with base := t.base.deleteWhere (fun k _ => k == pk) }

/-- `INSERT OR IGNORE` of the key alone, the other columns taking their defaults. -/
def realMergeSentinel (t : Table table) (pk : Pk) : Table table :=
  if (t.base.get pk).isSome then t else { t with base := t.base.replace pk table.dflt }

@[simp] theorem realMergeSentinel_metadata (t : Table table) (pk : Pk) :
    (t.realMergeSentinel pk).metadata = t.metadata := by
  rw [realMergeSentinel]
  split_ifs <;> rfl

/-- `col_merge_stmt`. -/
def colMerge (t : Table table) (pk : Pk) (col : Fin table.ncols) (value : Value) : Table table :=
  { t with
    base := t.base.upsert pk (Function.update table.dflt col value)
      (fun row => Function.update row col value) }

/-- `INSERT OR REPLACE` of a user. -/
def insertBase (t : Table table) (pk : Pk) (row : Row table) : Table table :=
  { t with base := t.base.replace pk row }

/-- `UPDATE OR REPLACE` of the row under `oldpk`. -/
def updateBase (t : Table table) (oldpk pk : Pk) (row : Row table) : Table table :=
  { t with base := (t.base.deleteWhere (fun k _ => k == oldpk)).replace pk row }

/-- The db versions stored in the metadata. -/
def dbVersions (t : Table table) : List ℤ := t.metadata.rows.map (fun r => r.2.dbVersion)

end Table
end SqliteSync.Store
