import SqliteSync.Library.CString
import SqliteSync.Library.Slots
import SqliteSync.Store.Table

/-!
# The tables of a context

A context points to the tables it has added from an array of slots. Removing a table
empties its slot and leaves the count of slots in use, adding one takes the first empty
slot, and the array grows by 128 slots before it is full.
-/
namespace SqliteSync.Config
open Library Store

def CLOUDSYNC_INIT_NTABLES : ℕ := 128

/-- The most bytes `sqlite3_realloc64` grants. -/
def SQLITE_MAX_ALLOCATION_SIZE : ℕ := 2147483391

/-- A platform, by the size of its pointers. -/
structure Platform where
  pointer : ℕ
  pointer_eq : pointer = 4 ∨ pointer = 8

/-- The next offset of a field of size `a`. -/
def alignUp (offset a : ℕ) : ℕ := (offset + a - 1) / a * a

namespace Platform
variable (p : Platform)

/-- The sizes of the fields of `cloudsync_table_context`: `algo`; `name` and the arrays of
the columns; `ncols`, `npks` and `enabled`; `pk_name` and the fifteen statements. -/
def tableFields : List ℕ :=
  4 :: List.replicate 5 p.pointer ++ [4, 4, 1] ++ List.replicate 16 p.pointer

/-- `sizeof(cloudsync_table_context)`. -/
def sizeofTable : ℕ :=
  alignUp (p.tableFields.foldl (fun offset size => alignUp offset size + size) 0) p.pointer

end Platform

/-- `cloudsync_table_context`, without its statements; `pkName` tells whether `pk_name`
is set. -/
structure RegisteredTable where
  algo : TableAlgo
  name : CString
  colName : List CString
  colId : List ℤ
  ncols : ℕ
  npks : ℤ
  enabled : Bool
  pkName : Bool
deriving DecidableEq

/-- What `sqlite3_exec` returns: `SQLITE_ABORT` is the failure of its callback. -/
inductive ExecResult where
  | ok
  | abort
  | error
deriving DecidableEq

/-- A call of `table_add_to_context`: its arguments, whether there is memory for more
slots and for the table, the two counts where their query can be built, whether the
statements are prepared and there is memory for the columns, and the columns that the
callback took with the result of their query. -/
structure AddInput where
  tableName : CString
  algo : TableAlgo
  realloc : Bool
  create : Bool
  npks : Option ℤ
  ncols : Option ℤ
  stmts : Bool
  arrays : Bool
  columns : List (CString × ℤ)
  exec : ExecResult

/-- `cloudsync_string_dup` in lower case. -/
def cloudsyncStringDup (str : CString) : CString := str.map toLowerByte

def tableCreate (name : CString) (algo : TableAlgo) : RegisteredTable where
  algo := algo
  name := cloudsyncStringDup name
  colName := []
  colId := []
  ncols := 0
  npks := 0
  enabled := true
  pkName := false

def tableAddToContextCb (table : RegisteredTable) (column : CString × ℤ) : RegisteredTable :=
  { table with
    colName := table.colName ++ [cloudsyncStringDup column.1]
    colId := table.colId ++ [column.2]
    ncols := table.ncols + 1 }

/-- The table that `table_add_to_context` sets up, where nothing fails. A table without a
primary key is none. -/
def AddInput.setup (inp : AddInput) : Option RegisteredTable := do
  guard inp.create
  let npks ← inp.npks
  guard (toInt32 npks ≠ -1)
  guard (toInt32 npks ≠ 0)
  let table := { tableCreate inp.tableName inp.algo with npks := toInt32 npks }
  let ncols ← inp.ncols
  guard (ncols ≠ -1)
  guard inp.stmts
  -- a table with only primary keys is legal
  if 0 < ncols then
    guard inp.arrays
    guard (inp.exec ≠ .abort)
    return inp.columns.foldl tableAddToContextCb table
  else
    return table

/-- The tables of `cloudsync_context`, in a block of `bytes` bytes. -/
structure ContextTables where
  tables : Slots RegisteredTable
  tablesCount : ℕ
  tablesAlloc : ℕ
  bytes : ℕ

def cloudsyncContextCreate (p : Platform) : ContextTables where
  tables := List.replicate CLOUDSYNC_INIT_NTABLES none
  tablesCount := 0
  tablesAlloc := CLOUDSYNC_INIT_NTABLES
  bytes := CLOUDSYNC_INIT_NTABLES * p.pointer

namespace ContextTables
variable (p : Platform) (r : ContextTables)

def tableLookup (tableName : CString) : Option RegisteredTable :=
  (r.tables.take r.tablesCount).findSome? fun slot =>
    slot.filter fun table => strcaseeq table.name tableName

/-- `table_remove`, with `none` for -1. -/
def tableRemove (tableName : CString) : Option ℕ × ContextTables :=
  match (r.tables.take r.tablesCount).findIdx? fun slot =>
      slot.any fun table => strcaseeq table.name tableName with
  | none => (none, r)
  | some i => (some i, { r with tables := r.tables.set i none })

/-- The loop of `cloudsync_terminate`. -/
def cloudsyncTerminate : ContextTables :=
  { r with
    tables := List.replicate r.tablesCount none ++ r.tables.drop r.tablesCount }

/-- The bytes that are asked for to add slots, a `size_t`. -/
def growBytes : ℕ :=
  (p.sizeofTable * r.tablesAlloc + CLOUDSYNC_INIT_NTABLES) % 2 ^ (8 * p.pointer)

/-- Is there any space available? If not the tables move to a new block. -/
def reserve (inp : AddInput) : Option ContextTables :=
  if r.tablesAlloc ≤ r.tablesCount + 1 then
    if inp.realloc ∧ 0 < r.growBytes p ∧ r.growBytes p ≤ SQLITE_MAX_ALLOCATION_SIZE then
      some { r with
        tables := r.tables ++ List.replicate CLOUDSYNC_INIT_NTABLES none
        tablesAlloc := r.tablesAlloc + CLOUDSYNC_INIT_NTABLES
        bytes := r.growBytes p }
    else none
  else some r

/-- The table goes to the first free slot. -/
def place (table : RegisteredTable) : ContextTables :=
  match (r.tables.take r.tablesAlloc).findIdx? Option.isNone with
  | none => r
  | some i =>
    { r with
      tables := r.tables.set i (some table)
      tablesCount := if (r.tablesCount : ℤ) - 1 < i then r.tablesCount + 1 else r.tablesCount }

/-- A table that is there already is not added again. -/
def tableAddToContext (inp : AddInput) : Bool × ContextTables :=
  match r.tableLookup inp.tableName with
  | some _ => (true, r)
  | none =>
    match r.reserve p inp with
    | none => (false, r)
    | some r =>
      match inp.setup with
      | none => (false, r)
      | some table => (true, r.place table)

end ContextTables

/-- A call on the tables of a context. -/
inductive TableCall where
  | add (inp : AddInput)
  | remove (name : CString)
  | terminate

/-- The result tells whether a table was added, or found to be removed. -/
def ContextTables.step (p : Platform) (r : ContextTables) : TableCall → Bool × ContextTables
  | .add inp => r.tableAddToContext p inp
  | .remove name => ((r.tableRemove name).1.isSome, (r.tableRemove name).2)
  | .terminate => (true, r.cloudsyncTerminate)

end SqliteSync.Config
