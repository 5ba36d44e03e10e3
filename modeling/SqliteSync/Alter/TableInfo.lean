import SqliteSync.Library.Like
import SqliteSync.Store.Table

/-!
# Table schemas

What `pragma_table_info` tells of a base table, the checks made on it before the
table is synchronised, and the lists of columns the generated statements are
built from.
-/
namespace SqliteSync.Alter
open Library Store

/-- A row of `pragma_table_info`. The place of the column in the PRIMARY KEY
counts from 1, and is 0 outside it. -/
structure ColumnInfo where
  name : String
  type : String
  notnull : Bool
  dfltValue : Option String
  pk : ℕ
deriving DecidableEq

/-- The rows of `pragma_table_info` in the order of the columns, `cid`. -/
structure TableInfo where
  columns : List ColumnInfo
  names_differ : (columns.map fun c => lowered c.name).Nodup

/-- A column name as `table_add_to_context_cb` stores it. -/
def lowerName (name : String) : String := String.ofList (lowered name)

namespace TableInfo
variable (info : TableInfo)

/-- The rows `WHERE pk>0`, as the table function delivers them: in the order of
the columns. An `ORDER BY pk` behind an aggregate sorts the one row of its
result, not what `group_concat` reads. -/
def pkColumns : List ColumnInfo := info.columns.filter fun c => 0 < c.pk

def npks : ℕ := info.pkColumns.length

/-- `SELECT name ... WHERE pk>0 ORDER BY pk`. -/
def pkNames : List String := (info.pkColumns.mergeSort fun a b => a.pk ≤ b.pk).map ColumnInfo.name

/-- The place in the PRIMARY KEY of each of its columns, in the order of the columns. -/
def positions : List ℕ := info.pkColumns.map ColumnInfo.pk

/-- The columns `WHERE pk=0 ORDER BY cid`. -/
def otherColumns : List ColumnInfo := info.columns.filter fun c => c.pk = 0

/-- `table->col_name`. -/
def colNames : List String := info.otherColumns.map fun c => lowerName c.name

/-- `SELECT name FROM pragma_table_info`. -/
def names : List String := info.columns.map ColumnInfo.name

/-- The checks of `dbutils_table_sanity_check` on the columns of a table. -/
def dbutilsTableSanityCheck (name : String) (skipIntPkCheck : Bool) : Except String Unit :=
  let count := info.npks
  let isInteger (c : ColumnInfo) : Bool := c.pk == 1 && like "%INT%".toList c.type.toList
  if 128 < count then
    .error "No more than 128 columns can be used to form a composite primary key"
  else if count = 0 then
    .error ("Rowid only tables are not supported, all primary keys must be explicitly set and " ++
      "declared as NOT NULL (table " ++ name ++ ")")
  else if skipIntPkCheck = false ∧ count = 1 ∧ count = info.columns.countP isInteger then
    .error ("Table " ++ name ++ " uses an single-column INTEGER primary key. For CRDT " ++
      "replication, primary keys must be globally unique. Consider using a TEXT primary key " ++
      "with UUIDs or ULID to avoid conflicts across nodes. If you understand the risk and still " ++
      "want to use this INTEGER primary key, set the third argument of the cloudsync_init " ++
      "function to 1 to skip this check.")
  else if count ≠ info.pkColumns.countP (fun c => c.notnull) then
    .error ("All primary keys must be explicitly declared as NOT NULL (table " ++ name ++ ")")
  else if 0 < info.otherColumns.countP (fun c => c.notnull && c.dfltValue.isNone) then
    .error ("All non-primary key columns declared as NOT NULL must have a DEFAULT value. (table " ++
      name ++ ")")
  else .ok ()

/-- An accepted table has a primary key whose encoding can count its values. -/
theorem npks_of_accepted {info : TableInfo} {name : String} {skipIntPkCheck : Bool}
    (h : info.dbutilsTableSanityCheck name skipIntPkCheck = .ok ()) :
    0 < info.npks ∧ info.npks ≤ 128 := by
  rw [dbutilsTableSanityCheck] at h
  by_cases hmany : 128 < info.npks
  · simp [hmany] at h
  · by_cases hnone : info.npks = 0
    · simp [hnone] at h
    · omega

theorem colNames_nodup : info.colNames.Nodup := by
  have hsub : (info.otherColumns.map fun c => lowered c.name).Sublist
      (info.columns.map fun c => lowered c.name) :=
    List.filter_sublist.map _
  have hnodup := (info.names_differ.sublist hsub).map
    (fun _ _ h => String.ofList_injective h : Function.Injective String.ofList)
  rwa [List.map_map] at hnodup

end TableInfo
end SqliteSync.Alter
