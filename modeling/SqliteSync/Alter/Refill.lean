import SqliteSync.Alter.TableInfo
import SqliteSync.Clock.Context
import SqliteSync.Codec.Decode
import SqliteSync.Library.Footprint
import SqliteSync.Store.Replica

/-!
# Refilling the metadata

`cloudsync_refill_metatable` compares the rows of the base table with the keys of
the metadata, which it takes apart by `cloudsync_pk_decode`, and creates what is
missing. Keys are bytes here. The primary key of a base row is the list of its
values in the order of the columns, which is how the generated statements list
them; a key is decoded by the places of the columns in the PRIMARY KEY.
-/
namespace SqliteSync.Alter
open Library Store Clock Codec

abbrev Key := List UInt8

/-- The base table, as far as its primary key goes, and its metadata, with the
context of the connection and the db versions the other tables store. The rows
come in the order in which SQLite scans them, and the counters of the metadata
are left unbounded. A primary key has no more columns than the sanity check lets
pass. -/
structure Tracked where
  data : Context
  dataVersion : ℤ
  others : List ℤ
  base : List (List Value)
  base_short : ∀ row ∈ base, row.length ≤ 128
  metadata : Keyed (Key × String) MetaRow

def nextLength (colVersion : ℤ) : ℤ := if colVersion % 2 = 0 then colVersion + 1 else colVersion + 2

namespace Tracked
variable (s : Tracked)

def view : DbView := ⟨s.dataVersion, s.others ++ s.metadata.rows.map fun r => r.2.dbVersion⟩

def dbVersionNext (mergingVersion : ℤ) : ℤ × Tracked :=
  let next := Clock.dbVersionNext s.view s.data mergingVersion
  (next.1, { s with data := next.2 })

def bumpSeq : ℤ × Tracked :=
  ((Clock.bumpSeq s.data).1, { s with data := (Clock.bumpSeq s.data).2 })

def withSeq (f : Tracked → ℤ → Tracked) : Tracked := f s.bumpSeq.2 s.bumpSeq.1

/-- `meta_pkexists_stmt`. -/
def metaPkexists (pk : Key) : Bool := s.metadata.existsWhere fun k => k.1 == pk

/-- `meta_local_cl_stmt`, a NULL read as 0. -/
def metaLocalCl (pk : Key) : ℤ :=
  match s.metadata.get (pk, CLOUDSYNC_TOMBSTONE_VALUE) with
  | some r => r.colVersion
  | none => if s.metaPkexists pk then 1 else 0

def localUpdateSentinel (pk : Key) (dbVersion seq : ℤ) : Tracked :=
  { s with
    metadata := s.metadata.updateWhere (fun k => k == (pk, CLOUDSYNC_TOMBSTONE_VALUE))
      (fun r => ⟨nextLength r.colVersion, dbVersion, 0, seq⟩) }

def localMarkInsertSentinelMeta (pk : Key) (dbVersion seq : ℤ) : Tracked :=
  { s with
    metadata := s.metadata.upsert (pk, CLOUDSYNC_TOMBSTONE_VALUE) ⟨1, dbVersion, 0, seq⟩
      (fun r => ⟨nextLength r.colVersion, dbVersion, 0, seq⟩) }

def localMarkInsertOrUpdateMeta (pk : Key) (colName : String) (dbVersion seq : ℤ) : Tracked :=
  { s with
    metadata := s.metadata.upsert (pk, colName) ⟨1, dbVersion, 0, seq⟩
      (fun r => ⟨r.colVersion + 1, dbVersion, 0, seq⟩) }

/-- The loop of `cloudsync_insert` over the columns. -/
def markColumns (pk : Key) (dbVersion : ℤ) (cols : List String) : Tracked :=
  cols.foldl (fun s col => s.withSeq fun s seq =>
    s.localMarkInsertOrUpdateMeta pk col dbVersion seq) s

def cloudsyncInsert (info : TableInfo) (argv : List Value) : Tracked :=
  let pk := pkEncodePrikey argv
  let next := s.dbVersionNext CLOUDSYNC_VALUE_NOTSET
  let dbVersion := next.1
  let s := next.2
  let s :=
    if info.colNames.length = 0 then
      s.withSeq fun s seq => s.localMarkInsertSentinelMeta pk dbVersion seq
    else if s.metaPkexists pk then
      s.withSeq fun s seq => s.localUpdateSentinel pk dbVersion seq
    else s
  s.markColumns pk dbVersion info.colNames

end Tracked

/-! ## Decoding and comparing keys -/

/-- The callback of `cloudsync_pk_decode`, which keeps the call at its index. -/
def cloudsyncPkDecodeSetResultCallback (index : ℕ) : Callback (Option CbArgs) :=
  fun result a => (true, if index ≠ a.index + 1 then result else some a)

/-- How SQLite compares the column at a place of the PRIMARY KEY, by its collation
and affinity, in `EXCEPT` and in the `ON` clause of a join; and what
`cloudsync_pk_decode` makes of bytes that are no key, when it reads past their end. -/
structure Engine where
  exceptSame : ℕ → Value → Value → Bool
  joinSame : ℕ → Value → Value → Bool
  stray : Key → ℕ → Value

namespace Engine
variable (eng : Engine)

/-- `cloudsync_pk_decode(pk, i)`, where `i` counts from 1; NULL past the last value. -/
def cloudsyncPkDecode (pk : Key) (i : ℕ) : Value :=
  match pkDecodePrikey pk (cloudsyncPkDecodeSetResultCallback i) none with
  | none => eng.stray pk i
  | some result =>
    match result.xdata with
    | none => .null
    | some a => (a.value pk).getD (eng.stray pk i)

/-- The values of a base row against a key decoded at the places of its columns. -/
def rowMatches (same : ℕ → Value → Value → Bool) (info : TableInfo) (pk : Key) (row : List Value) :
    Bool :=
  (info.positions.zip row).all fun p => same p.1 p.2 (eng.cloudsyncPkDecode pk p.1)

/-- `EXCEPT` finds the row among the keys of the metadata. -/
def known (info : TableInfo) (s : Tracked) (row : List Value) : Bool :=
  s.metadata.existsWhere fun k => eng.rowMatches eng.exceptSame info k.1 row

/-- The `LEFT JOIN` finds a metadata row of the column for the row. -/
def joined (info : TableInfo) (s : Tracked) (col : String) (row : List Value) : Bool :=
  s.metadata.existsWhere fun k => k.2 == col && eng.rowMatches eng.joinSame info k.1 row

end Engine

/-! ## The refill -/

/-- What `strlen` sees of an encoded key. -/
def cPrefix (pk : Key) : Key := pk.takeWhile fun b => b != 0

/-- How the statements of the refill go: the one with `EXCEPT` and the calls it
makes, the preparation of the one with `LEFT JOIN`, its run for each column, and
each call made in the loop over its rows. -/
structure RefillInput where
  insert : Bool
  prepare : Bool
  select : String → Bool
  mark : Key → String → Bool

/-- Every statement succeeds. -/
def RefillInput.sound : RefillInput := ⟨true, true, fun _ => true, fun _ _ => true⟩

section
variable (eng : Engine) (inp : RefillInput) (info : TableInfo)

/-- One row of the scan. The statement is stepped between the writes of its own
loop, and the metadata table is WITHOUT ROWID, for which SQLite builds no
automatic index: the join of a row reads what was written for the rows before it.
The key is taken as a C string, and the code of the call is overwritten by the
next step. -/
def fillRow (col : String) (dbVersion : ℤ) (s : Tracked) (row : List Value) : Tracked :=
  if eng.joined info s col row then s
  else
    let pk := cPrefix (pkEncodePrikey row)
    s.withSeq fun s seq =>
      if inp.mark pk col then s.localMarkInsertOrUpdateMeta pk col dbVersion seq else s

def fillColumn (dbVersion : ℤ) (s : Tracked) (col : String) : Tracked :=
  s.base.foldl (fillRow eng inp info col dbVersion) s

def fillColumns (dbVersion : ℤ) : List String → Tracked → Outcome Tracked
  | [], s => (.ok (), s)
  | col :: cols, s =>
    if inp.select col then fillColumns dbVersion cols (fillColumn eng inp info dbVersion s col)
    else (.error "cloudsync_refill_metatable error", s)

/-- `cloudsync_insert` of the rows that `EXCEPT` leaves. -/
def insertMissing (s : Tracked) : Tracked :=
  (s.base.filter fun row => !eng.known info s row).foldl (fun s row => s.cloudsyncInsert info row) s

def cloudsyncRefillMetatable (s : Tracked) : Outcome Tracked :=
  let next := s.dbVersionNext CLOUDSYNC_VALUE_NOTSET
  if inp.insert then
    let s := insertMissing eng info next.2
    if inp.prepare then fillColumns eng inp info next.1 info.colNames s
    else (.error "cloudsync_refill_metatable error", s)
  else (.error "cloudsync_refill_metatable error", next.2)

end
end SqliteSync.Alter
