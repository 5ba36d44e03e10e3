import SqliteSync.Payload.Cursor
import SqliteSync.Payload.RoundTrip
import SqliteSync.Vtab.Update
import SqliteSync.Causal.Rounds

/-!
# A payload applied to a database

The row loop of `cloudsync_payload_apply`, with the database its INSERTs are for. What
a step returns is no longer assumed: a round decodes a row, and the row goes through
`cloudsync_changes` into a merge. Outside a transaction each INSERT is one, committed
when it succeeds and undone when it does not.
-/
namespace SqliteSync.Payload
open Library Codec Store Clock

/-- What an application meets: the answers of the apply callback, the statements that
fail in each row, whether it runs outside a transaction, and the codes of failed steps. -/
structure Applier where
  callback : Option (ℕ → Bool)
  faults : ℕ → Faults
  autocommit : Bool
  code : ℕ → StepCode

/-- No callback is installed, and nothing fails. -/
def Applier.sound (autocommit : Bool) : Applier :=
  ⟨none, fun _ => noFaults, autocommit, fun _ => ⟨1, by decide⟩⟩

namespace Applier
variable {n : ℕ} {schema : Fin n → TableContext} (a : Applier)

def approved (i : ℕ) : Bool := (a.callback.map (· i)).getD true

/-- The database after a statement: what a failed one wrote is undone outside a
transaction, and stays inside. -/
def endStatement (saved : Replica schema) (x : Outcome (Replica schema)) : Replica schema :=
  match x.1 with
  | .ok () => x.2.settle a.autocommit
  | .error _ =>
    if a.autocommit then
      { x.2 with
        data := cloudsyncRollbackHook x.2.data
        siteIds := saved.siteIds
        table := saved.table }
    else x.2

/-- The code of the step of row `i`, and the database after it. -/
def finish (i : ℕ) (y : Catalog schema) (x : Outcome (Replica schema)) : StepCode × Catalog schema :=
  (match x.1 with
    | .ok () => SQLITE_DONE
    | .error _ => a.code i, { y with replica := a.endStatement y.replica x })

/-- `sqlite3_step` of the INSERT with the values bound to it. -/
def insert (i : ℕ) (y : Catalog schema) (argv : List Value) : Option (StepCode × Catalog schema) :=
  (y.cloudsyncChangesvtabUpdate (a.faults i) (.null :: .null :: argv)).map fun x =>
    a.finish i y (x.1, x.2.replica)

/-- A round after its decoding: the INSERT is stepped if the row is approved. -/
def round (buffer : List UInt8) (i : ℕ) (vm : Stmt) (rc : ℤ) (y : Catalog schema) :
    Option (ℤ × Catalog schema) :=
  if a.approved i then do
    let argv ← (List.range insertParams).mapM fun k => boundValue buffer (vm k)
    (a.insert i y argv).map fun x => ((x.1 : ℤ), x.2)
  else some (rc, y)

/-- The row loop of `cloudsync_payload_apply` from row `i` on. -/
def applyRows (limit : ℕ) (buffer : List UInt8) (ncols : ℕ) :
    ℕ → ℕ → ℕ → Stmt × BindContext → ℤ → Catalog schema → Option (LoopEnd × Catalog schema)
  | 0, _, _, s, rc, y => some (⟨[], s.2, rc⟩, y)
  | nrows + 1, i, off, s, rc, y => do
    let r ← pkDecode (buffer.drop off) ncols 0 (logged (cloudsyncPkDecodeBindCallback limit off))
      ([], s)
    let (rc, y) ← a.round buffer i r.xdata.2.1 rc y
    let rest ← applyRows limit buffer ncols nrows (i + 1) (off + r.seek)
      (fun _ => none, r.xdata.2.2) rc y
    some ({ rest.1 with rows := ⟨off, r.xdata.1, r.xdata.2.1, r.xdata.2.2⟩ :: rest.1.rows }, rest.2)

/-- `cloudsync_payload_apply` on the database `y`. -/
def payloadApply (r : Receiver) (cursor : CheckCursor) (y : Catalog schema)
    (payload : List UInt8) : Option (ApplyResult × Catalog schema) :=
  match openPayload r payload with
  | .error err => some (⟨-1, some err, cursor, []⟩, y)
  | .ok (header, buffer) => do
    let (e, y) ← a.applyRows r.limit buffer header.ncols header.nrows 0 0 (fun _ => none, {})
      SQLITE_OK y
    let rc := if e.rc = SQLITE_DONE then SQLITE_OK else e.rc
    let cursor := if rc = SQLITE_OK then cursor.advance e.ctx else cursor
    if rc ≠ SQLITE_OK then some (⟨-1, some ⟨some r.errmsg, some 21⟩, cursor, e.rows⟩, y)
    else some (⟨toInt32 header.nrows, none, cursor, e.rows⟩, y)

/-! ## The database answers like a host -/

theorem round_code {buffer : List UInt8} {i : ℕ} {vm : Stmt} {rc : ℤ} {y : Catalog schema}
    {x : ℤ × Catalog schema} (h : a.round buffer i vm rc y = some x) :
    ∃ code : StepCode, x.1 = if a.approved i then (code : ℤ) else rc := by
  rw [round] at h
  split_ifs at h ⊢
  · rw [Option.bind_eq_bind, Option.bind_eq_some_iff] at h
    rcases h with ⟨argv, -, hx⟩
    rcases Option.map_eq_some_iff.mp hx with ⟨⟨code, y'⟩, -, rfl⟩
    exact ⟨code, rfl⟩
  · cases h
    exact ⟨SQLITE_DONE, rfl⟩

theorem exists_step {limit ncols : ℕ} {buffer : List UInt8} {nrows i off : ℕ}
    {s : Stmt × BindContext} {rc : ℤ} {y : Catalog schema} {x : LoopEnd × Catalog schema}
    (h : a.applyRows limit buffer ncols nrows i off s rc y = some x) :
    ∃ step : ℕ → StepCode, ∀ step', (∀ j, i ≤ j → step' j = step j) →
      payloadRows ⟨a.callback, step'⟩ limit buffer ncols nrows i off s rc = some x.1 := by
  induction nrows generalizing i off s rc y x with
  | zero =>
    cases h
    exact ⟨fun _ => SQLITE_DONE, fun step' _ => rfl⟩
  | succ nrows ih =>
    rw [applyRows] at h
    simp only [Option.bind_eq_bind, Option.bind_eq_some_iff] at h
    rcases h with ⟨r, hr, ⟨rc', y'⟩, hround, rest, hrest, hx⟩
    rcases a.round_code hround with ⟨code, hcode⟩
    rcases ih hrest with ⟨step, hstep⟩
    refine ⟨Function.update step i code, fun step' hagree => ?_⟩
    have hhere : step' i = code := by
      rw [hagree i le_rfl, Function.update_self]
    have hlater := hstep step' fun j hj => by
      rw [hagree j (by omega), Function.update_of_ne (by omega)]
    rw [payloadRows, hr]
    simp only [Option.bind_eq_bind, Option.bind_some, hhere]
    change rc' = if a.approved i then (code : ℤ) else rc at hcode
    rw [hcode] at hlater
    change (payloadRows ⟨a.callback, step'⟩ limit buffer ncols nrows (i + 1) (off + r.seek)
      (fun _ => none, r.xdata.2.2) (if a.approved i then (code : ℤ) else rc)).bind _ = _
    rw [hlater, Option.bind_some, ← Option.some.inj hx]

/-- An application on the database is one of `cloudsync_payload_apply`, for the
codes that the steps on the database return. -/
theorem cloudsyncPayloadApply_of_payloadApply {r : Receiver} {cursor : CheckCursor} {y : Catalog schema}
    {payload : List UInt8} {x : ApplyResult × Catalog schema}
    (h : a.payloadApply r cursor y payload = some x) :
    ∃ step, cloudsyncPayloadApply r ⟨a.callback, step⟩ cursor payload = some x.1 := by
  rw [payloadApply] at h
  cases hopen : openPayload r payload with
  | error err =>
    rw [hopen] at h
    cases h
    exact ⟨fun _ => SQLITE_DONE, by rw [cloudsyncPayloadApply, hopen]⟩
  | ok opened =>
    rcases opened with ⟨header, buffer⟩
    rw [hopen] at h
    simp only [Option.bind_eq_bind, Option.bind_eq_some_iff] at h
    rcases h with ⟨⟨e, y'⟩, he, hx⟩
    rcases a.exists_step he with ⟨step, hstep⟩
    refine ⟨step, ?_⟩
    rw [cloudsyncPayloadApply, hopen]
    simp only [Option.bind_eq_bind, hstep step fun _ _ => rfl, Option.bind_some]
    split_ifs at hx ⊢
    all_goals
      rw [← Option.some.inj hx]

/-! ## Rows of a feed arrive as changes -/

def mergeRow (i : ℕ) (y : Catalog schema) (f : FeedRow) : StepCode × Catalog schema :=
  a.finish i y (match y.tableLookup f.tbl with
    | none => (.error ("Unable to find table " ++ f.tbl ++ ","), y.replica)
    | some t => Store.cloudsyncMergeInsert (a.faults i) y.replica (f.change t))

/-- Rows of a feed, merged one by one from row `i` on: the last code, and the database. -/
def mergeRows : ℕ → ℤ × Catalog schema → List FeedRow → ℤ × Catalog schema
  | _, s, [] => s
  | i, s, f :: D =>
    mergeRows (i + 1) (if a.approved i then ((a.mergeRow i s.2 f).1, (a.mergeRow i s.2 f).2) else s) D

theorem insert_values {f : FeedRow} (hf : f.Plain) {argv : List Value} (h : f.values = some argv)
    (i : ℕ) (y : Catalog schema) : a.insert i y argv = some (a.mergeRow i y f) := by
  rcases values_tbl hf h with ⟨v, hv, htbl⟩
  rw [insert, Catalog.cloudsyncChangesvtabUpdate, Catalog.cloudsyncMergeInsert, hv]
  simp only [Option.bind_eq_bind, Option.bind_some, htbl, mergeRow]
  cases y.tableLookup f.tbl with
  | none => rfl
  | some t => simp only [changeOfValues_values hf h, Option.bind_some, Option.map_some]

theorem round_values {f : FeedRow} (hf : f.Plain) {argv : List Value} (h : f.values = some argv)
    {buffer : List UInt8} {row : RowRecord} (hrow : row.decoded buffer = argv.map some) (i : ℕ)
    (rc : ℤ) (y : Catalog schema) :
    a.round buffer i row.vm rc y =
      some (if a.approved i then (((a.mergeRow i y f).1 : ℤ), (a.mergeRow i y f).2) else (rc, y)) := by
  rw [round]
  split_ifs
  · have hbound : (List.range insertParams).mapM (fun k => boundValue buffer (row.vm k)) =
        some argv := mapM_eq_some_of_map hrow
    rw [hbound, Option.bind_eq_bind, Option.bind_some, a.insert_values hf h]
    rfl
  · rfl

/-- Nine values leave no parameter of the INSERT over. -/
theorem padded_values {f : FeedRow} {argv : List Value} (h : f.values = some argv) :
    argv.length = insertParams ∧ padded argv = argv.map some := by
  have hlength : argv.length = insertParams := length_of_mapM h
  refine ⟨hlength, ?_⟩
  rw [padded, hlength, Nat.sub_self, List.replicate_zero, List.append_nil]

theorem valueArgs_integerValue (i : ℕ) {z : ℤ} {v : Value} (h : integerValue z = some v) (pos : ℕ) :
    (valueArgs i pos v).type = 1 ∧ (valueArgs i pos v).ival = z := by
  rw [integerValue, Option.ite_none_right_eq_some, Option.some.injEq] at h
  rcases h with ⟨hz, rfl⟩
  exact ⟨rfl, toInt_ofInt_of_le hz.1 hz.2⟩

/-- Decoding a row leaves its db version and its sequence number in the context. -/
theorem context_row {limit : ℕ} {f : FeedRow} {argv : List Value} (h : f.values = some argv)
    (hlimit : (pkEncodeValues argv).length ≤ limit) (pre rest : List UInt8)
    (s : Stmt × BindContext) {ctx : BindContext}
    (hdec : pkDecode (pkEncodeValues argv ++ rest) argv.length 0
        (logged (cloudsyncPkDecodeBindCallback limit pre.length)) ([], s) =
      some ⟨argv.length, (pkEncodeValues argv).length,
        (valuesArgs 0 0 argv, (bindAll s.1 (valuesArgs 0 pre.length argv), ctx))⟩) :
    ctx.dbVersion = f.dbVersion ∧ ctx.seq = f.seq := by
  have hcalls := @pkDecode_row_calls limit (pre ++ (pkEncodeValues argv ++ rest)) argv.length
    pre.length s
  rw [List.drop_left, hdec, Option.map_some, eq_comm, Option.map_eq_some_iff] at hcalls
  rcases hcalls with ⟨⟨len, calls⟩, -, hcalls⟩
  rcases Prod.mk.inj hcalls with ⟨-, hcalls⟩
  rcases Prod.mk.inj hcalls with ⟨rfl, hreplay⟩
  have hctx := @replay_cursor limit pre.length s (valuesArgs 0 0 argv)
  have hacc := bindAccepts_valuesArgs argv 0 0 (by rw [(padded_values h).1, Nat.zero_add]) hlimit
  rw [hreplay] at hctx
  rw [hctx.1, hctx.2]
  rcases values_columns h with ⟨tbl, pk, colName, colVersion, dbVersion, siteId, cl, seq, rfl, -, -, -,
    -, hdb, -, -, hseq⟩
  have hdbArgs := valueArgs_integerValue CLOUDSYNC_PK_INDEX_DBVERSION hdb
  have hseqArgs := valueArgs_integerValue CLOUDSYNC_PK_INDEX_SEQ hseq
  simp only [valuesArgs, List.mem_cons, List.not_mem_nil, or_false, forall_eq_or_imp, forall_eq,
    Nat.zero_add, Nat.reduceAdd] at hacc
  simp [valuesArgs, valueArgs_index, hacc, hdbArgs, hseqArgs]

/-- The loop over what was encoded from rows of a feed merges these rows, and leaves the
last of them in the context. -/
theorem applyRows_encodedRows {limit : ℕ} (hl : limit < 2 ^ 31) {D : List FeedRow}
    (hD : ∀ f ∈ D, f.Plain) {rows : List (List Value)} (hrows : D.mapM FeedRow.values = some rows)
    (hlimit : (encodedRows rows).length ≤ limit) (pre : List UInt8) (i : ℕ) (ctx : BindContext)
    (rc : ℤ) (y : Catalog schema) :
    ∃ e : LoopEnd, a.applyRows limit (pre ++ encodedRows rows) insertParams rows.length i pre.length
        (fun _ => none, ctx) rc y = some (e, (a.mergeRows i (rc, y) D).2) ∧
      e.rc = (a.mergeRows i (rc, y) D).1 ∧
      e.ctx.dbVersion = (D.getLast?.map (·.dbVersion)).getD ctx.dbVersion ∧
      e.ctx.seq = (D.getLast?.map (·.seq)).getD ctx.seq := by
  induction D generalizing rows pre i ctx rc y with
  | nil =>
    cases hrows
    exact ⟨_, rfl, rfl, rfl, rfl⟩
  | cons f D ih =>
    have hf := hD f List.mem_cons_self
    rw [List.mapM_cons] at hrows
    simp only [Option.bind_eq_bind, Option.bind_eq_some_iff, Option.pure_def, Option.some.injEq]
      at hrows
    rcases hrows with ⟨argv, hargv, rest, hrest, rfl⟩
    rcases padded_values hargv with ⟨hlength, hpadded⟩
    have henc : encodedRows (argv :: rest) = pkEncodeValues argv ++ encodedRows rest := by
      simp [encodedRows]
    rw [henc, List.length_append] at hlimit
    rw [henc]
    rcases pkDecode_row pre.length argv hlength.le (encodedRows rest) (by omega) hl
      (fun _ => none, ctx) with ⟨ctx', hdec⟩
    have hctx := context_row hargv (by omega) pre (encodedRows rest) (fun _ => none, ctx) hdec
    have hdecoded := decoded_bindAll argv hlength.le pre (encodedRows rest) (fun _ => none)
      (fun _ _ => rfl) pre.length (valuesArgs 0 0 argv) ctx'
    have hround := a.round_values hf hargv (hdecoded.trans hpadded) i rc y
    rw [mergeRows]
    change a.round (pre ++ (pkEncodeValues argv ++ encodedRows rest)) i
      (bindAll (fun _ => none) (valuesArgs 0 pre.length argv)) rc y = _ at hround
    generalize (if a.approved i then (((a.mergeRow i y f).1 : ℤ), (a.mergeRow i y f).2)
      else (rc, y)) = x at hround ⊢
    rcases x with ⟨rc', y'⟩
    rcases ih (fun g hg => hD g (.tail f hg)) hrest (by omega) (pre ++ pkEncodeValues argv) (i + 1)
      ctx' rc' y' with ⟨e, hrun, hrc, hlast⟩
    refine ⟨{ e with rows := ⟨pre.length, valuesArgs 0 0 argv,
      bindAll (fun _ => none) (valuesArgs 0 pre.length argv), ctx'⟩ :: e.rows }, ?_, hrc, ?_⟩
    · rw [List.append_assoc, List.length_append] at hrun
      rw [List.length_cons, applyRows, List.drop_left, ← hlength, hdec]
      simp only [Option.bind_eq_bind, Option.bind_some, hround]
      rw [hlength, hrun]
      rfl
    · rw [hctx.1, hctx.2] at hlast
      rw [List.getLast?_cons]
      cases hD : D.getLast? with
      | none => simpa [hD] using hlast
      | some last => simpa [hD] using hlast

/-- Applying what was sent of a feed merges its rows. Unless the last step failed, their
number is returned, and the cursor advances by the last of them. -/
theorem payloadApply_sent {r : Receiver} {lz4 : Lz4} (hlz : lz4.Lawful) {hash : ℕ}
    (hr : r.Opens lz4 hash) (e : Endian) {D : List FeedRow} (hD : ∀ f ∈ D, f.Plain)
    {rows : List (List Value)} (hrows : D.mapM FeedRow.values = some rows) (hhash : hash < 2 ^ 64)
    (hlimit : r.limit < 2 ^ 31) (htotal : (encodedRows rows).length ≤ r.limit) {expandedSize : ℕ}
    {data : List UInt8} (hsent : Sent lz4 rows expandedSize data) (cursor : CheckCursor)
    (y : Catalog schema) :
    ∃ result, a.payloadApply r cursor y ((cloudsyncNetworkHeaderInit e expandedSize insertParams
        rows.length hash).store e ++ data) =
          some (result, (a.mergeRows 0 (SQLITE_OK, y) D).2) ∧
      ((a.mergeRows 0 (SQLITE_OK, y) D).1 = SQLITE_DONE → result.rc = D.length ∧
        result.error = none ∧ ∀ last ∈ D.getLast?,
          result.cursor = cursor.advance { dbVersion := last.dbVersion, seq := last.seq }) := by
  have hwidth : ∀ row ∈ rows, row.length = insertParams := by
    intro row hrow
    rcases mem_of_mapM_eq_some hrows row hrow with ⟨f, -, hf⟩
    exact (padded_values hf).1
  have hlength : rows.length ≤ (encodedRows rows).length :=
    length_le_encodedRows (by decide) rows hwidth
  have hopen := openPayload_sent hlz hr e (by decide : 0 < insertParams ∧ insertParams < 2 ^ 16) hhash
    (by omega) (by omega) hsent
  rcases a.applyRows_encodedRows hlimit hD hrows htotal [] 0 {} SQLITE_OK y with
    ⟨le, hrun, hrc, hversion, hseq⟩
  rw [List.nil_append] at hrun
  change a.applyRows r.limit (encodedRows rows) insertParams rows.length 0 0 _ _ _ = _ at hrun
  rw [payloadApply, hopen]
  simp only [Option.bind_eq_bind, hrun, Option.bind_some, hrc]
  by_cases hdone : (a.mergeRows 0 (SQLITE_OK, y) D).1 = SQLITE_DONE
  · rw [if_pos hdone, if_neg (not_not.mpr rfl)]
    refine ⟨_, rfl, fun _ => ⟨?_, rfl, fun last hlast => ?_⟩⟩
    · have hcount := length_of_mapM hrows
      rw [hcount]
      exact toInt32_of_lt (by omega) (by omega)
    · rw [Option.mem_def.mp hlast, Option.map_some, Option.getD_some] at hversion hseq
      rw [if_pos rfl, CheckCursor.advance, CheckCursor.advance, hversion, hseq]
  · rw [if_neg hdone]
    by_cases hok : (a.mergeRows 0 (SQLITE_OK, y) D).1 ≠ SQLITE_OK
    · rw [if_pos hok]
      exact ⟨_, rfl, fun h => absurd h hdone⟩
    · rw [if_neg hok]
      exact ⟨_, rfl, fun h => absurd h hdone⟩

end Applier
end SqliteSync.Payload
