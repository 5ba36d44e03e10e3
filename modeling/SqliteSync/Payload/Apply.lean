import SqliteSync.Codec.Bounds
import SqliteSync.Payload.Encode

/-!
# `cloudsync_payload_apply`

The receiver checks the header, unpacks the rows and walks them by accumulated
position: each row is decoded into the parameters of one INSERT, submitted to
the callback for approval and stepped. A single return code is kept over the
loop and read after it, when the download cursor is taken from the last row.
-/
namespace SqliteSync.Payload
open Codec Library

/- The parameters of the INSERT that the context keeps, by index. -/
@[match_pattern] abbrev CLOUDSYNC_PK_INDEX_TBL : ℕ := 0
@[match_pattern] abbrev CLOUDSYNC_PK_INDEX_PK : ℕ := 1
@[match_pattern] abbrev CLOUDSYNC_PK_INDEX_COLNAME : ℕ := 2
@[match_pattern] abbrev CLOUDSYNC_PK_INDEX_COLVERSION : ℕ := 4
@[match_pattern] abbrev CLOUDSYNC_PK_INDEX_DBVERSION : ℕ := 5
@[match_pattern] abbrev CLOUDSYNC_PK_INDEX_SITEID : ℕ := 6
@[match_pattern] abbrev CLOUDSYNC_PK_INDEX_CL : ℕ := 7
@[match_pattern] abbrev CLOUDSYNC_PK_INDEX_SEQ : ℕ := 8

/-- The number of parameters of `INSERT INTO cloudsync_changes(...) VALUES (?,...,?)`. -/
def insertParams : ℕ := 9

/-- `cloudsync_pk_decode_bind_context` without its statement; a pointer is a
position in the rows' buffer, with its length. -/
structure BindContext where
  tbl : Option (ℕ × ℤ) := none
  pk : Option (ℕ × ℤ) := none
  colName : Option (ℕ × ℤ) := none
  colVersion : ℤ := 0
  dbVersion : ℤ := 0
  siteId : Option (ℕ × ℤ) := none
  cl : ℤ := 0
  seq : ℤ := 0
deriving DecidableEq

/-- The `switch` of `cloudsync_pk_decode_bind_callback`. -/
def BindContext.set (ctx : BindContext) (a : CbArgs) : BindContext :=
  let slice := a.pval.map fun p => (p, a.ival)
  match a.index, a.type with
  | CLOUDSYNC_PK_INDEX_TBL, 3 => { ctx with tbl := slice }
  | CLOUDSYNC_PK_INDEX_PK, 4 => { ctx with pk := slice }
  | CLOUDSYNC_PK_INDEX_COLNAME, 3 => { ctx with colName := slice }
  | CLOUDSYNC_PK_INDEX_COLVERSION, 1 => { ctx with colVersion := a.ival }
  | CLOUDSYNC_PK_INDEX_DBVERSION, 1 => { ctx with dbVersion := a.ival }
  | CLOUDSYNC_PK_INDEX_SITEID, 4 => { ctx with siteId := slice }
  | CLOUDSYNC_PK_INDEX_CL, 1 => { ctx with cl := a.ival }
  | CLOUDSYNC_PK_INDEX_SEQ, 1 => { ctx with seq := a.ival }
  | _, _ => ctx

def cloudsyncPkDecodeBindCallback (limit off : ℕ) : Callback (Stmt × BindContext) := fun s a =>
  match pkDecodeBindCallback limit insertParams s.1 (a.shift off) with
  | (true, vm) => (true, (vm, s.2.set (a.shift off)))
  | (false, vm) => (false, (vm, s.2))

/-- Whether a call is accepted depends neither on the statement nor on the context. -/
theorem cloudsyncPkDecodeBindCallback_accepts (limit off : ℕ) (s : Stmt × BindContext) (a : CbArgs) :
    (cloudsyncPkDecodeBindCallback limit off s a).1 = bindAccepts limit insertParams a := by
  have h := pkDecodeBindCallback_fst limit insertParams s.1 (a.shift off)
  unfold cloudsyncPkDecodeBindCallback
  split
  case h_1 vm hvm => exact (congrArg Prod.fst hvm).symm.trans h
  case h_2 vm hvm => exact (congrArg Prod.fst hvm).symm.trans h

/-- What `sqlite3_step` can return for the INSERT: `SQLITE_DONE` or an error,
never `SQLITE_OK`. -/
abbrev StepCode := { rc : ℤ // rc ≠ 0 }

def SQLITE_OK : ℤ := 0
def SQLITE_DONE : StepCode := ⟨101, by decide⟩

/-- What the surroundings decide: the answers of the apply callback, where one is
installed, and the return codes of the steps, row by row. -/
structure Host where
  callback : Option (ℕ → Bool)
  step : ℕ → StepCode

/-- The approval of row `i`. -/
def Host.approved (host : Host) (i : ℕ) : Bool := (host.callback.map (· i)).getD true

/-- One round of the row loop: where the row starts, the calls its decoding made,
what the statement and the context hold after it. -/
structure RowRecord where
  off : ℕ
  calls : List CbArgs
  vm : Stmt
  ctx : BindContext

/-- What the row loop leaves: its rounds, the context and the return code. -/
structure LoopEnd where
  rows : List RowRecord
  ctx : BindContext
  rc : ℤ

/-- The row loop of `cloudsync_payload_apply` over `nrows` rows from row `i` on. -/
def payloadRows (host : Host) (limit : ℕ) (buffer : List UInt8) (ncols : ℕ) :
    ℕ → ℕ → ℕ → Stmt × BindContext → ℤ → Option LoopEnd
  | 0, _, _, s, rc => some ⟨[], s.2, rc⟩
  | nrows + 1, i, off, s, rc => do
    let r ← pkDecode (buffer.drop off) ncols 0 (logged (cloudsyncPkDecodeBindCallback limit off))
      ([], s)
    let rc := if host.approved i then (host.step i : ℤ) else rc
    -- `stmt_reset` clears the bindings, the context keeps its fields
    let rest ← payloadRows host limit buffer ncols nrows (i + 1) (off + r.seek)
      (fun _ => none, r.xdata.2.2) rc
    some { rest with rows := ⟨off, r.xdata.1, r.xdata.2.1, r.xdata.2.2⟩ :: rest.rows }

/-- An error set on the SQLite context: its message and its code, where set. -/
structure SqlError where
  message : Option String
  code : Option ℕ
deriving DecidableEq

/-- The receiving side: its machine, its library and its database. `schemaHash`
is `none` without a context, `knownHash` is `dbutils_check_schema_hash`, `errmsg`
is `sqlite3_errmsg`. -/
structure Receiver where
  e : Endian
  m : Allocator
  lz4 : Lz4
  limit : ℕ
  schemaHash : Option ℕ
  knownHash : ℕ → Bool
  prepareOk : Bool
  errmsg : String

/-- The rows' buffer: what follows the header, decompressed where the header
gives an expanded size. A negative return of LZ4 is never that size, since
SQLite allocates none so large. -/
def rowsBuffer (r : Receiver) (header : NetworkHeader) (buffer : List UInt8) :
    Except SqlError (List UInt8) :=
  if header.expandedSize ≠ 0 then
    if r.m.ok header.expandedSize then
      match r.lz4.decompress buffer (toInt32 header.expandedSize) with
      | .ok clone =>
        if clone.length = header.expandedSize then .ok clone else .error (failure clone.length)
      | .error rc => .error (failure rc)
    else .error ⟨none, some 7⟩
  else .ok buffer
where
  failure (rc : ℤ) : SqlError :=
    ⟨some ("Error on cloudsync_payload_apply: unable to decompress BLOB (" ++ toString rc ++ ")."),
      some 21⟩

/-- `cloudsync_payload_apply` up to its row loop: the header in host order and
the rows' buffer. -/
def openPayload (r : Receiver) (payload : List UInt8) :
    Except SqlError (NetworkHeader × List UInt8) :=
  let header := (NetworkHeader.load r.e payload).toHost r.e
  if r.schemaHash ≠ some header.schemaHash ∧ r.knownHash header.schemaHash = false then
    .error ⟨some ("Cannot apply the received payload because the schema hash is unknown " ++
      toString header.schemaHash ++ "."), some 20⟩
  else if header.signature ≠ CLOUDSYNC_PAYLOAD_SIGNATURE ∨ header.ncols = 0 then
    .error ⟨some "Error on cloudsync_payload_apply: invalid signature or column size.", some 21⟩
  else
    match rowsBuffer r header (payload.drop headerSize) with
    | .error err => .error err
    | .ok buffer =>
      if r.prepareOk then .ok (header, buffer)
      else .error ⟨some ("Error on cloudsync_payload_apply: error while compiling SQL statement (" ++
        r.errmsg ++ ")."), none⟩

/-- The stored `check_dbversion` and `check_seq`; `none` is a missing key. -/
structure CheckCursor where
  dbversion : Option ℤ
  seq : Option ℤ
deriving DecidableEq

/-- `dbutils_settings_get_int_value` of a stored number; a missing key reads as zero. -/
def settingsGetInt (value : Option ℤ) : ℤ := toInt32 (value.getD 0)

/-- The cursor update after the loop. -/
def CheckCursor.advance (cursor : CheckCursor) (ctx : BindContext) : CheckCursor :=
  if settingsGetInt cursor.dbversion ≤ ctx.dbVersion then
    { dbversion := some ctx.dbVersion
      seq := if ctx.seq ≠ settingsGetInt cursor.seq then some ctx.seq else cursor.seq }
  else cursor

/-- What `cloudsync_payload_apply` returns, the error it set on the context, the
cursor it leaves and the rounds of its loop. -/
structure ApplyResult where
  rc : ℤ
  error : Option SqlError
  cursor : CheckCursor
  rows : List RowRecord

/-- `cloudsync_payload_apply`; `none` is a read outside the payload. -/
def cloudsyncPayloadApply (r : Receiver) (host : Host) (cursor : CheckCursor)
    (payload : List UInt8) : Option ApplyResult :=
  match openPayload r payload with
  | .error err => some ⟨-1, some err, cursor, []⟩
  | .ok (header, buffer) => do
    let e ← payloadRows host r.limit buffer header.ncols header.nrows 0 0 (fun _ => none, {})
      SQLITE_OK
    let rc := if e.rc = SQLITE_DONE then SQLITE_OK else e.rc
    let cursor := if rc = SQLITE_OK then cursor.advance e.ctx else cursor
    if rc ≠ SQLITE_OK then some ⟨-1, some ⟨some r.errmsg, some 21⟩, cursor, e.rows⟩
    else some ⟨toInt32 header.nrows, none, cursor, e.rows⟩

/-- `cloudsync_payload_decode`, the SQL function. -/
def cloudsyncPayloadDecode (r : Receiver) (host : Host) (cursor : CheckCursor) (v : Value) :
    Option ApplyResult :=
  match v with
  | .blob b =>
    if b.data.length < headerSize then
      some ⟨-1, some ⟨some "Error on cloudsync_payload_decode: invalid input size.", some 21⟩, cursor, []⟩
    else cloudsyncPayloadApply r host cursor b.data
  | _ =>
    some ⟨-1, some ⟨some "Error on cloudsync_payload_decode: value must be a BLOB.", some 21⟩, cursor, []⟩

theorem openPayload_header {r : Receiver} {payload : List UInt8} {header : NetworkHeader}
    {buffer : List UInt8} (h : openPayload r payload = .ok (header, buffer)) :
    header = (NetworkHeader.load r.e payload).toHost r.e ∧
      rowsBuffer r header (payload.drop headerSize) = .ok buffer := by
  simp only [openPayload] at h
  split at h
  · cases h
  · split at h
    · cases h
    · split at h
      · cases h
      · split at h
        · cases h
          exact ⟨rfl, ‹_›⟩
        · cases h

theorem cloudsyncPayloadApply_rows {r : Receiver} {host : Host} (cursor : CheckCursor)
    {payload buffer : List UInt8} {header : NetworkHeader} {e : LoopEnd}
    (hopen : openPayload r payload = .ok (header, buffer))
    (hloop : payloadRows host r.limit buffer header.ncols header.nrows 0 0 (fun _ => none, {})
      SQLITE_OK = some e) :
    ∃ result, cloudsyncPayloadApply r host cursor payload = some result ∧ result.rows = e.rows := by
  rw [cloudsyncPayloadApply, hopen]
  simp only [hloop, Option.bind_eq_bind, Option.bind_some]
  split_ifs <;> exact ⟨_, rfl, rfl⟩

/-- A receiver that knows the schema hash zero, for concrete runs. -/
def plainReceiver : Receiver where
  e := .little
  m := ⟨fun _ => true, fun _ => 0⟩
  lz4 := literalLz4
  limit := 1000000000
  schemaHash := some 0
  knownHash := fun _ => false
  prepareOk := true
  errmsg := "constraint failed"

/-- The step of row `bad` fails with `SQLITE_ERROR`, as a merge does, the others succeed. -/
def failsAt (bad : ℕ) : Host :=
  ⟨none, fun i => if i = bad then ⟨1, Int.one_ne_zero⟩ else SQLITE_DONE⟩

end SqliteSync.Payload
