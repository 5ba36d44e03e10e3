import SqliteSync.Library.Like
import SqliteSync.Store.Feed

/-!
# The tables of a database

`cloudsync_changes` does not read the registered tables: it finds metadata
tables in `sqlite_master` by a pattern on their names, and the tables of the
user are matched like the others. The catalog is the replica with the names of
its tables and the tables it did not create.
-/
namespace SqliteSync.Store
open Library

/-- A table that is not the metadata of an augmented table: what a query on
metadata tables reads in it, where it has the columns the query names. -/
structure UserTable where
  name : String
  rows : Option (List ((Pk × String) × MetaRow))
  dbVersions : Option (List ℤ)
  dbVersions_of_rows : ∀ l, rows = some l → dbVersions = some (l.map fun r => r.2.dbVersion)

structure Catalog {n : ℕ} (schema : Fin n → TableContext) where
  replica : Replica schema
  tblName : Fin n → String
  others : List UserTable
  tblName_injective : Function.Injective fun i => lowered (tblName i)
  others_fresh : ∀ u ∈ others, ∀ i, lowered u.name ≠ lowered (tblName i ++ "_cloudsync")

/-- `LIKE '%_cloudsync'`. -/
def likeCloudsync (name : String) : Bool := like ('%' :: '_' :: "cloudsync".toList) name.toList

/-- `SUBSTR(tbl_name, 1, LENGTH(tbl_name) - 10)`. -/
def withoutSuffix (name : String) : String :=
  String.ofList (name.toList.take (name.toList.length - 10))

/-- A row of `cloudsync_changes`. -/
structure FeedRow where
  tbl : String
  pk : Pk
  colName : String
  colValue : Value
  colVersion : ℤ
  dbVersion : ℤ
  siteId : SiteId
  cl : ℤ
  seq : ℤ
deriving DecidableEq

/-- `COALESCE(t2.col_version, 1)` for each tombstone `t2` the `LEFT JOIN` finds. -/
def feedCls (rows : List ((Pk × String) × MetaRow)) (pk : Pk) : List ℤ :=
  match rows.filter fun r => r.1 = (pk, CLOUDSYNC_TOMBSTONE_VALUE) with
  | [] => [1]
  | t2 => t2.map fun r => r.2.colVersion

namespace Catalog
variable {n : ℕ} {schema : Fin n → TableContext} (c : Catalog schema)

def metaName (i : Fin n) : String := c.tblName i ++ "_cloudsync"

/-- `table_lookup`, by position. -/
def tableLookup (name : String) : Option (Fin n) :=
  (List.finRange n).find? fun i => lowered (c.tblName i) == lowered name

def cloudsyncColValue (tbl colName : String) (pk : Pk) : Except String Value :=
  match c.tableLookup tbl with
  | none => .error ("Unable to retrieve table name " ++ tbl ++ " in clousdsync_colvalue.")
  | some i => (c.replica.table i).cloudsyncColValue colName pk

def feedRow (tbl : String) (row : (Pk × String) × MetaRow) (value : Value) (cl : ℤ) : FeedRow where
  tbl := tbl
  pk := row.1.1
  colName := row.1.2
  colValue := value
  colVersion := row.2.colVersion
  dbVersion := row.2.dbVersion
  siteId := c.replica.siteOf row.2.siteId
  cl := cl
  seq := row.2.seq

/-- What one row of the table `name` joins to. -/
def rowChanges (name : String) (rows : List ((Pk × String) × MetaRow))
    (row : (Pk × String) × MetaRow) : Except String (List FeedRow) :=
  (c.cloudsyncColValue (withoutSuffix name) row.1.2 row.1.1).map fun value =>
    (feedCls rows row.1.1).map (c.feedRow (withoutSuffix name) row value)

/-- The `SELECT` of the table `name`. -/
def selectChanges (name : String) (rows : List ((Pk × String) × MetaRow)) :
    Except String (List FeedRow) :=
  (rows.mapM (c.rowChanges name rows)).map
    fun l => l.flatten.filter fun f => f.colValue ≠ CLOUDSYNC_RLS_RESTRICTED_VALUE

/-- `table_names`, with the rows of each table. -/
def feedTables : List (String × Option (List ((Pk × String) × MetaRow))) :=
  (((List.finRange n).map fun i => (c.metaName i, some (c.replica.table i).metadata.rows)) ++
    c.others.map fun u => (u.name, u.rows)).filter fun t => likeCloudsync t.1

def selectTable (t : String × Option (List ((Pk × String) × MetaRow))) :
    Except String (List FeedRow) :=
  match t.2 with
  | none => .error "no such column"
  | some rows => c.selectChanges t.1 rows

/-- `build_changes_sql`, run without a filter. The `UNION ALL` of no table is
NULL, and leaves an `ORDER BY` without a query. SQLite refuses a compound SELECT
of more than 500 terms; fewer tables are assumed. -/
def cloudsyncChanges : Except String (List FeedRow) :=
  if c.feedTables = [] then .error "near \"ORDER\": syntax error"
  else (c.feedTables.mapM c.selectTable).map List.flatten

/-- What a metadata row stands for: the value of its column where the row has a
base row, NULL where it is a tombstone. -/
def currentValue (i : Fin n) (k : Pk × String) : Option Value :=
  if k.2 = CLOUDSYNC_TOMBSTONE_VALUE then some .null
  else (tableColumnLookup (schema i) k.2).bind ((c.replica.table i).colValue k.1)

/-- The feed as it is meant to be: one row for each metadata row of an augmented
table that is a tombstone or has its base row. -/
def expectedTable (i : Fin n) : List FeedRow :=
  (c.replica.table i).metadata.rows.filterMap fun row =>
    (c.currentValue i row.1).map fun value =>
      c.feedRow (c.tblName i) row value ((c.replica.table i).metaLocalCl row.1.1)

def expectedFeed : List FeedRow := (List.finRange n).flatMap c.expectedTable

/-- A table of the user the feed can read and shows nothing of: it has the
columns, and its rows name columns of an augmented table in rows it does not
have, or whose value is the marker. -/
def Hides (u : UserTable) : Prop :=
  ∃ rows, u.rows = some rows ∧ ∀ row ∈ rows, ∃ i col, c.tableLookup (withoutSuffix u.name) = some i ∧
    row.1.2 ≠ CLOUDSYNC_TOMBSTONE_VALUE ∧ tableColumnLookup (schema i) row.1.2 = some col ∧
      ∀ v, (c.replica.table i).colValue row.1.1 col = some v → v = CLOUDSYNC_RLS_RESTRICTED_VALUE

/-- A metadata row the feed reads as it is: its name is known, and its value is not the marker. -/
def Shows (i : Fin n) (k : Pk × String) : Prop :=
  k.2 = CLOUDSYNC_TOMBSTONE_VALUE ∨ ∃ col, tableColumnLookup (schema i) k.2 = some col ∧
    (c.replica.table i).colValue k.1 col ≠ some CLOUDSYNC_RLS_RESTRICTED_VALUE

end Catalog
end SqliteSync.Store
