import SqliteSync.Library.Clause
import SqliteSync.Store.Catalog

/-!
# The index of the changes table

`cloudsync_changesvtab_best_index` turns the constraints that SQLite offers into
the end of a query, which `build_changes_sql` puts behind the changes of all tables.
-/
namespace SqliteSync.Vtab
open Library

def cloudsyncChangesColumns : List String :=
  ["tbl", "pk", "col_name", "col_value", "col_version", "db_version", "site_id", "cl", "seq"]

def colnameFromIndex (i : ℤ) : String := cloudsyncChangesColumns.getD i.toNat ""

def COL_DBVERSION_INDEX : ℤ := 5
def COL_SITEID_INDEX : ℤ := 6

def SQLITE_INDEX_CONSTRAINT_ISNOTNULL : ℕ := 70
def SQLITE_INDEX_CONSTRAINT_ISNULL : ℕ := 71

/-- `opname_from_value`, by the codes of SQLite. -/
def opnameFromValue : ℕ → Option String
  | 2 => some "="
  | 4 => some ">"
  | 8 => some "<="
  | 16 => some "<"
  | 32 => some ">="
  | 65 => some "LIKE"
  | 66 => some "GLOB"
  | 68 => some "!="
  | 69 => some "IS NOT"
  | 70 => some "IS NOT NULL"
  | 71 => some "IS NULL"
  | 72 => some "IS"
  | _ => none

/-- `colname_is_legal`; the columns are in lower case. -/
def colnameIsLegal (name : String) : Bool :=
  cloudsyncChangesColumns.any fun c => c.toList = name.toList.map Char.toLower

/-- A constraint of a query on the table of nine columns; column -1 is the rowid. It
is `binary` unless a COLLATE clause changes how it compares, which the code does not ask. -/
structure IndexConstraint where
  iColumn : ℤ
  op : ℕ
  usable : Bool
  binary : Bool
  lower : -1 ≤ iColumn
  upper : iColumn ≤ 8

structure IndexOrderBy where
  iColumn : ℤ
  desc : Bool
  lower : 0 ≤ iColumn
  upper : iColumn ≤ 8

/-- What SQLite reads back for a constraint. -/
structure ConstraintUsage where
  argvIndex : ℕ
  omitted : Bool
  deriving DecidableEq, Repr

/-- The buffer `s` of `slen` bytes, and `sindex`. -/
structure Buffer where
  text : List Char
  sindex : ℕ
  overrun : Bool
  deriving DecidableEq

/-- `sindex += snprintf(s+sindex, slen-sindex, ...)`. The text is cut where the buffer
ends, `sindex` counts all of it; once it is past the end `slen-sindex` wraps around
and the next call writes behind the buffer. -/
def Buffer.snprintf (slen : ℕ) (b : Buffer) (t : List Char) : Buffer where
  text := (b.text ++ t).take (slen - 1)
  sindex := b.sindex + t.length
  overrun := b.overrun || slen < b.sindex

structure BestIndex where
  buf : Buffer
  argIndex : ℕ
  idxnum : ℕ
  aConstraintUsage : List ConstraintUsage
  deriving DecidableEq

def constraintText (colname opname : String) (op : ℕ) : List Char :=
  if op = SQLITE_INDEX_CONSTRAINT_ISNULL ∨ op = SQLITE_INDEX_CONSTRAINT_ISNOTNULL then
    colname.toList ++ ' ' :: opname.toList
  else colname.toList ++ ' ' :: opname.toList ++ [' ', '?']

/-- One round of the loop over the constraints. -/
def checkConstraint (slen i : ℕ) (c : IndexConstraint) (x : BestIndex) : BestIndex :=
  -- analyze only usable constraints
  if !c.usable then { x with aConstraintUsage := x.aConstraintUsage ++ [⟨0, false⟩] }
  else
    let colname := if 0 < c.iColumn then colnameFromIndex c.iColumn else "rowid"
    match opnameFromValue c.op with
    | none => { x with aConstraintUsage := x.aConstraintUsage ++ [⟨0, false⟩] }
    | some opname =>
      let buf := if 0 < i then x.buf.snprintf slen " AND ".toList else x.buf
      let noValue :=
        c.op = SQLITE_INDEX_CONSTRAINT_ISNULL ∨ c.op = SQLITE_INDEX_CONSTRAINT_ISNOTNULL
      { buf := buf.snprintf slen (constraintText colname opname c.op)
        argIndex := if noValue then x.argIndex else x.argIndex + 1
        idxnum := if c.iColumn = COL_DBVERSION_INDEX then x.idxnum ||| 2
          else if c.iColumn = COL_SITEID_INDEX then x.idxnum ||| 4 else x.idxnum
        aConstraintUsage :=
          x.aConstraintUsage ++ [⟨if noValue then 0 else x.argIndex, true⟩] }

def checkConstraints (slen : ℕ) : ℕ → List IndexConstraint → BestIndex → BestIndex
  | _, [], x => x
  | i, c :: cs, x => checkConstraints slen (i + 1) cs (checkConstraint slen i c x)

/-- The loop over the ORDER BY terms. -/
def checkOrderBy (slen : ℕ) : ℕ → List IndexOrderBy → Buffer → Buffer
  | _, [], b => b
  | i, o :: os, b =>
    let b := if 0 < i then b.snprintf slen ", ".toList else b
    checkOrderBy slen (i + 1) os (b.snprintf slen
      ((colnameFromIndex o.iColumn).toList ++ ' ' :: (if o.desc then " DESC" else " ASC").toList))

structure IndexInfo where
  idxNum : ℕ
  idxStr : Buffer
  orderByConsumed : Bool
  aConstraintUsage : List ConstraintUsage
  deriving DecidableEq

def reserved (cs : List IndexConstraint) (os : List IndexOrderBy) : ℕ :=
  cs.length * (11 + 1 + 11 + 1 + 5) + (os.length * 11 + 1 + 5) + 512

/-- `cloudsync_changesvtab_best_index` with a buffer of `slen` bytes. -/
def bestIndexIn (slen : ℕ) (cs : List IndexConstraint) (os : List IndexOrderBy) : IndexInfo :=
  let start : Buffer := ⟨[], 0, false⟩
  -- is there a WHERE clause?
  let start := if 0 < cs.length then start.snprintf slen "WHERE ".toList else start
  let x := checkConstraints slen 0 cs ⟨start, 1, 0, []⟩
  -- is there an ORDER BY clause? if not use a default one
  let buf := if 0 < os.length then x.buf.snprintf slen " ORDER BY ".toList
    else x.buf.snprintf slen " ORDER BY db_version, seq ASC".toList
  { idxNum := x.idxnum
    idxStr := checkOrderBy slen 0 os buf
    orderByConsumed := os.all fun o => colnameIsLegal (colnameFromIndex o.iColumn)
    aConstraintUsage := x.aConstraintUsage }

def cloudsyncChangesvtabBestIndex (cs : List IndexConstraint) (os : List IndexOrderBy) :
    IndexInfo :=
  bestIndexIn (reserved cs os) cs os

/-- The index of a column of the changes query; a rowid is none of them. -/
def columnOf (w : Word) : Option ℤ :=
  (cloudsyncChangesColumns.findIdx? fun c => c.toList = w).map Int.ofNat

inductive Affinity where
  | blob
  | text
  | integer
  deriving DecidableEq

/-- The affinities that `cloudsync_changesvtab_connect` declares. -/
def declaredAffinity (i : ℤ) : Affinity :=
  if i < 0 then .integer
  else [Affinity.text, .blob, .text, .text, .integer, .integer, .blob, .integer, .integer].getD
    i.toNat .blob

/-- Those in the query of `build_changes_sql`: a literal (`tbl`), a call of a function
(`col_value`) and COALESCE (`cl`) have none. -/
def queryAffinity (i : ℤ) : Affinity :=
  [Affinity.blob, .blob, .text, .blob, .integer, .integer, .blob, .blob, .integer].getD
    i.toNat .blob

/-- How two values are compared. -/
structure Comparing where
  affinity : Affinity
  binary : Bool
  deriving DecidableEq

/-- How SQLite compares for a constraint, which it leaves to the table when it is omitted. -/
def IndexConstraint.comparing (c : IndexConstraint) : Comparing :=
  ⟨declaredAffinity c.iColumn, c.binary⟩

/-- How the query of `build_changes_sql` compares one of its columns. -/
def queryComparing (i : ℤ) : Comparing := ⟨queryAffinity i, true⟩

/-- What the operators mean. -/
structure Meaning (Value : Type) where
  compare : Comparing → SqlOp → Value → Option Value → Bool
  test : SqlOp → Value → Option Value → Bool

def Meaning.sat {Value : Type} (m : Meaning Value) (c : Comparing) (op : SqlOp) (l : Value)
    (r : Option Value) : Bool :=
  if op.compares then m.compare c op l r else m.test op l r

section Query

variable {Row Value : Type} (cell : Row → ℤ → Value) (m : Meaning Value) (null : Value)

/-- The statement of `build_changes_sql` on a database with these tables, run with the
bound arguments. It does not parse where no table is found, as the query is NULL then,
and where the text does not, or names no column. -/
def buildChangesSql (tables : List String) (feed : List Row) (idxs : List Char)
    (argv : List Value) : Option (List Row) :=
  if tables.any Store.likeCloudsync then
    (parseClause columnOf idxs).map fun clause =>
      feed.filter fun r =>
        satisfies cell (fun i => m.sat (queryComparing i)) null r clause.conditions argv
  else none

/-- The arguments of the filter: SQLite passes the values of the constraints that have
an `argvIndex`, in its order. -/
def argvOf (usage : List ConstraintUsage) (values : List Value) : List Value :=
  ((usage.zip values).filter fun x => 0 < x.1.argvIndex).map (·.2)

end Query

end SqliteSync.Vtab
