import SqliteSync.Codec.RoundTrip
import SqliteSync.Payload.Apply

/-!
# A payload arrives

What `cloudsync_payload_encode` made of a list of rows is opened and walked by
`cloudsync_payload_apply`, and the parameters of the INSERT hold the rows again.
-/
namespace SqliteSync.Payload
open Codec Library

/-! ## Binding one row -/

theorem valueArgs_shift (off i pos : ℕ) (v : Value) :
    (valueArgs i pos v).shift off = valueArgs i (off + pos) v := by
  cases v <;> simp [valueArgs, CbArgs.shift, Nat.add_assoc]

theorem valuesArgs_shift (off i pos : ℕ) (argv : List Value) :
    (valuesArgs i pos argv).map (CbArgs.shift off) = valuesArgs i (off + pos) argv := by
  induction argv generalizing i pos with
  | nil => rfl
  | cons v vs ih => rw [valuesArgs, List.map_cons, ih, valueArgs_shift, valuesArgs, Nat.add_assoc]

theorem valueArgs_index (i pos : ℕ) (v : Value) : (valueArgs i pos v).index = i := by
  cases v <;> rfl

def bindAll (vm : Stmt) (calls : List CbArgs) : Stmt :=
  calls.foldl (fun vm a => Function.update vm a.index (some a)) vm

theorem bindAll_of_lt (argv : List Value) (i pos : ℕ) (vm : Stmt) (k : ℕ) (hk : k < i) :
    bindAll vm (valuesArgs i pos argv) k = vm k := by
  induction argv generalizing i pos vm with
  | nil => rfl
  | cons v vs ih =>
    rw [valuesArgs, bindAll, List.foldl_cons, ← bindAll, ih _ _ _ (by omega), valueArgs_index,
      Function.update_of_ne (by omega)]

/-- Every parameter holds its own call; those past the row keep what they held. -/
theorem bindAll_valuesArgs (argv : List Value) (i pos : ℕ) (vm : Stmt) (k : ℕ) :
    bindAll vm (valuesArgs i pos argv) (i + k) =
      if k < argv.length then (valuesArgs i pos argv)[k]? else vm (i + k) := by
  induction argv generalizing i pos vm k with
  | nil => rfl
  | cons v vs ih =>
    rw [valuesArgs, bindAll, List.foldl_cons, ← bindAll, valueArgs_index]
    cases k with
    | zero =>
      rw [bindAll_of_lt _ _ _ _ _ (by omega), Nat.add_zero, Function.update_self]
      rfl
    | succ k =>
      rw [show i + (k + 1) = i + 1 + k by omega, ih, Function.update_of_ne (by omega)]
      simp

theorem bindAccepts_valueArgs {limit nparams i : ℕ} (hi : i < nparams) (pos : ℕ) (v : Value)
    (hv : (pkEncodeValue v).length ≤ limit) : bindAccepts limit nparams (valueArgs i pos v) = true := by
  rw [pkEncodeValue_length] at hv
  rw [bindAccepts, valueArgs_index, Bool.and_eq_true]
  refine ⟨decide_eq_true hi, ?_⟩
  cases v with
  | text s =>
    have hs := s.short
    have hint : toInt32 s.data.length = s.data.length := toInt32_of_lt (by omega) (by omega)
    simp only [pkEncodeSizeValue] at hv
    exact decide_eq_true (hint ▸ by omega)
  | blob s =>
    have hs := s.short
    have hint : (BitVec.ofInt 64 (s.data.length : ℤ)).toNat = s.data.length := by
      rw [BitVec.toNat_ofInt]
      omega
    simp only [pkEncodeSizeValue] at hv
    exact decide_eq_true (hint ▸ by omega)
  | _ => rfl

theorem bindAccepts_valuesArgs {limit nparams : ℕ} (argv : List Value) (i pos : ℕ)
    (hi : i + argv.length ≤ nparams) (hv : (pkEncodeValues argv).length ≤ limit) :
    ∀ a ∈ valuesArgs i pos argv, bindAccepts limit nparams a = true := by
  induction argv generalizing i pos with
  | nil => simp [valuesArgs]
  | cons v vs ih =>
    rw [pkEncodeValues, List.length_append] at hv
    rw [List.length_cons] at hi
    intro a ha
    rcases List.mem_cons.mp ha with rfl | ha
    · exact bindAccepts_valueArgs (by omega) pos v (by omega)
    · exact ih _ _ (by omega) (by omega) a ha

theorem runCallback_bind (limit off : ℕ) (calls log : List CbArgs) (s : Stmt × BindContext)
    (h : ∀ a ∈ calls, bindAccepts limit insertParams a = true) :
    ∃ ctx, runCallback (logged (cloudsyncPkDecodeBindCallback limit off)) (log, s) calls =
      (true, (log ++ calls, (bindAll s.1 (calls.map (CbArgs.shift off)), ctx))) := by
  induction calls generalizing log s with
  | nil => exact ⟨s.2, by simp [runCallback, bindAll]⟩
  | cons a calls ih =>
    have ha : bindAccepts limit insertParams (a.shift off) = true := h a List.mem_cons_self
    have hstep : cloudsyncPkDecodeBindCallback limit off s a =
        (true, (Function.update s.1 a.index (some (a.shift off)), s.2.set (a.shift off))) := by
      rw [cloudsyncPkDecodeBindCallback, pkDecodeBindCallback, if_pos ha]
      rfl
    rcases ih (log ++ [a]) (Function.update s.1 a.index (some (a.shift off)), s.2.set (a.shift off))
      (fun b hb => h b (List.mem_cons_of_mem _ hb)) with ⟨ctx, hrun⟩
    refine ⟨ctx, ?_⟩
    simp only [runCallback, logged, hstep, hrun, List.append_assoc, List.singleton_append,
      List.map_cons]
    rfl

theorem boundValue_of_value {buffer : List UInt8} {a : CbArgs} {v : Value}
    (h : a.value buffer = some v) : boundValue buffer (some a) = some v := by
  rw [boundValue, if_neg, h]
  rintro ⟨ht, hnan⟩
  rw [CbArgs.value] at h
  simp only [ht] at h
  rw [dif_neg (by omega)] at h
  cases h

/-- The parameters of the INSERT after a round, as the values it inserts. -/
def RowRecord.decoded (buffer : List UInt8) (row : RowRecord) : List (Option Value) :=
  (List.range insertParams).map fun i => boundValue buffer (row.vm i)

/-- A row as the INSERT's parameters: those past the row are NULL. -/
def padded (row : List Value) : List (Option Value) :=
  (row ++ List.replicate (insertParams - row.length) Value.null).map some

theorem decoded_bindAll (row : List Value) (hrow : row.length ≤ insertParams)
    (pre post : List UInt8) (vm : Stmt) (hvm : ∀ k, row.length ≤ k → vm k = none) (off : ℕ)
    (calls : List CbArgs) (ctx : BindContext) :
    RowRecord.decoded (pre ++ (pkEncodeValues row ++ post))
      ⟨off, calls, bindAll vm (valuesArgs 0 pre.length row), ctx⟩ = padded row := by
  have hvals := values_valuesArgs row 0 pre post
  apply List.ext_getElem?
  intro k
  have hbind := bindAll_valuesArgs row 0 pre.length vm k
  rw [Nat.zero_add] at hbind
  rw [RowRecord.decoded, padded, List.getElem?_map, List.getElem?_map]
  by_cases hk : k < insertParams
  · rw [List.getElem?_range hk, Option.map_some]
    dsimp only
    rw [hbind]
    by_cases hkr : k < row.length
    · have hval := congrArg (·[k]?) hvals
      simp only [List.getElem?_map, List.getElem?_eq_getElem hkr, Option.map_some,
        Option.map_eq_some_iff] at hval
      rcases hval with ⟨a, ha, hav⟩
      rw [if_pos hkr, ha, boundValue_of_value hav, List.getElem?_append_left hkr,
        List.getElem?_eq_getElem hkr]
      rfl
    · rw [if_neg hkr, hvm k (not_lt.mp hkr), List.getElem?_append_right (not_lt.mp hkr),
        List.getElem?_replicate_of_lt (by omega)]
      rfl
  · rw [List.getElem?_eq_none (by simpa using hk), List.getElem?_eq_none]
    · rfl
    · rw [List.length_append, List.length_replicate]
      omega

/-! ## The row loop -/

/-- One round: the row at the loop's position is bound, and the position moves past it. -/
theorem pkDecode_row {limit : ℕ} (off : ℕ) (row : List Value) (hrow : row.length ≤ insertParams)
    (rest : List UInt8) (hlimit : (pkEncodeValues row).length ≤ limit) (hl : limit < 2 ^ 31)
    (s : Stmt × BindContext) :
    ∃ ctx, pkDecode (pkEncodeValues row ++ rest) row.length 0
        (logged (cloudsyncPkDecodeBindCallback limit off)) ([], s) =
      some ⟨row.length, (pkEncodeValues row).length,
        (valuesArgs 0 0 row, (bindAll s.1 (valuesArgs 0 off row), ctx))⟩ := by
  have hcount := length_le_pkEncodeValues row
  have hacc : ∀ a ∈ valuesArgs 0 0 row, bindAccepts limit insertParams a = true :=
    bindAccepts_valuesArgs row 0 0 (by omega) hlimit
  rcases runCallback_bind limit off (valuesArgs 0 0 row) [] s hacc with ⟨ctx, hrun⟩
  have hitems := pkDecodeItems_pkEncodeValues (logged (cloudsyncPkDecodeBindCallback limit off))
    row 0 [] rest ([], s) (by rw [List.length_nil]; omega)
  rw [List.length_nil, hrun, valuesArgs_shift, List.nil_append, List.nil_append, Nat.add_zero,
    Nat.zero_add] at hitems
  have hne : (row.length : ℤ) ≠ -1 := by omega
  refine ⟨ctx, ?_⟩
  rw [pkDecode, if_neg hne]
  simp only [Option.bind_eq_bind, Option.bind_some, sizeT_natCast row.length (by omega), hitems]

theorem payloadRows_encodedRows (host : Host) {limit ncols : ℕ} (hn : ncols ≤ insertParams)
    (hl : limit < 2 ^ 31) (rows : List (List Value)) (hwidth : ∀ row ∈ rows, row.length = ncols)
    (hlimit : (encodedRows rows).length ≤ limit) (pre : List UInt8) (i : ℕ)
    (s : Stmt × BindContext) (hs : ∀ k, ncols ≤ k → s.1 k = none) (rc : ℤ) :
    ∃ e, payloadRows host limit (pre ++ encodedRows rows) ncols rows.length i pre.length s rc = some e ∧
      e.rows.map (RowRecord.decoded (pre ++ encodedRows rows)) = rows.map padded := by
  induction rows generalizing pre i s rc with
  | nil => exact ⟨_, rfl, rfl⟩
  | cons row rows ih =>
    have hw := hwidth row List.mem_cons_self
    have henc : encodedRows (row :: rows) = pkEncodeValues row ++ encodedRows rows := by
      simp [encodedRows]
    rw [henc, List.length_append] at hlimit
    rw [henc]
    rcases pkDecode_row pre.length row (by omega) (encodedRows rows) (by omega) hl s with ⟨ctx, hdec⟩
    rcases ih (fun r hr => hwidth r (List.mem_cons_of_mem _ hr)) (by omega)
      (pre ++ pkEncodeValues row) (i + 1) (fun _ => none, ctx) (fun _ _ => rfl)
      (if host.approved i then (host.step i : ℤ) else rc) with ⟨e, hrun, hrows⟩
    rw [List.append_assoc, List.length_append] at hrun
    rw [List.append_assoc] at hrows
    refine ⟨{ e with rows := ⟨pre.length, valuesArgs 0 0 row,
      bindAll s.1 (valuesArgs 0 pre.length row), ctx⟩ :: e.rows }, ?_, ?_⟩
    · rw [List.length_cons, payloadRows, List.drop_left, ← hw, hdec]
      simp only [Option.bind_eq_bind, Option.bind_some]
      rw [hw, hrun]
      rfl
    · rw [List.map_cons, List.map_cons, hrows, decoded_bindAll row (by omega) pre (encodedRows rows)
        s.1 (fun k hk => hs k (by omega))]

/-! ## The whole way -/

/-- A receiver that can open the payloads of a sender with the schema `hash`. -/
structure Receiver.Opens (r : Receiver) (lz4 : Lz4) (hash : ℕ) : Prop where
  lz4 : r.lz4 = lz4
  alloc : ∀ n, r.m.ok n = true
  hash : r.schemaHash = some hash ∨ r.knownHash hash = true
  prepare : r.prepareOk = true

theorem openPayload_sent {r : Receiver} {lz4 : Lz4} (hlz : lz4.Lawful) {hash : ℕ}
    (hr : r.Opens lz4 hash) (e : Endian) {ncols expandedSize : ℕ} {rows : List (List Value)}
    {data : List UInt8} (hn : 0 < ncols ∧ ncols < 2 ^ 16) (hhash : hash < 2 ^ 64)
    (hrows : rows.length < 2 ^ 32) (hlen : (encodedRows rows).length < 2 ^ 31)
    (hsent : Sent lz4 rows expandedSize data) :
    openPayload r ((cloudsyncNetworkHeaderInit e expandedSize ncols rows.length hash).store e ++ data)
      = .ok (⟨CLOUDSYNC_PAYLOAD_SIGNATURE, CLOUDSYNC_PAYLOAD_VERSION, CLOUDSYNC_VERSION,
          expandedSize, ncols, rows.length, hash⟩, encodedRows rows) := by
  have hheader := toHost_load_store_init e r.e expandedSize ncols rows.length hash
    (lt_trans hsent.small (by norm_num)) hn.2 hrows hhash data
  have hdrop : ((cloudsyncNetworkHeaderInit e expandedSize ncols rows.length hash).store e ++ data).drop
      headerSize = data := by
    rw [← store_length_header e, List.drop_left]
  have hbuffer : rowsBuffer r ⟨CLOUDSYNC_PAYLOAD_SIGNATURE, CLOUDSYNC_PAYLOAD_VERSION,
      CLOUDSYNC_VERSION, expandedSize, ncols, rows.length, hash⟩ data = .ok (encodedRows rows) := by
    rw [rowsBuffer]
    by_cases hx : expandedSize = 0
    · simp [hx, hsent.raw hx]
    · rcases hsent.packed hx with ⟨hne, hsize, capacity, rfl⟩
      have hint : toInt32 ((encodedRows rows).length : ℤ) = (encodedRows rows).length :=
        toInt32_of_lt (by omega) (by omega)
      have hinv := hlz.decompress_compress (encodedRows rows) capacity hne hlen
      rw [hsize] at hx
      simp only [hsize, ne_eq, hx, not_false_eq_true, if_true, hr.alloc, hr.lz4, hint, hinv]
  have hknown : ¬ (r.schemaHash ≠ some hash ∧ r.knownHash hash = false) := by
    rintro ⟨h1, h2⟩
    rcases hr.hash with h | h
    · exact h1 h
    · rw [h] at h2
      cases h2
  have hok : ¬ (CLOUDSYNC_PAYLOAD_SIGNATURE ≠ CLOUDSYNC_PAYLOAD_SIGNATURE ∨ ncols = 0) := by
    rintro (h | h)
    · exact h rfl
    · omega
  simp only [openPayload, hheader, hdrop, if_neg hknown, if_neg hok, hbuffer, hr.prepare, if_true]

/-- The payload of rows of one to nine values, whose first row fits the first
allocation beside the header, is opened with the header it was given and walked
into the same rows, on any two machines, raw or compressed. -/
theorem cloudsyncPayloadApply_cloudsyncPayloadEncode (m : Allocator) (hm : ∀ n, m.ok n = true)
    (lz4 : Lz4) (hlz : lz4.Lawful) (e : Endian) (limit hash ncols : ℕ) (rows : List (List Value))
    (hrows : rows ≠ []) (hn : 0 < ncols ∧ ncols ≤ 9) (hwidth : ∀ row ∈ rows, row.length = ncols)
    (hfirst : ∀ row ∈ rows.head?, (pkEncodeValues row).length ≤ 512 * 1024 - 32)
    (hhash : hash < 2 ^ 64) (hlimit : limit < 2 ^ 31)
    (htotal : 32 + (encodedRows rows).length ≤ limit) :
    ∃ blob, cloudsyncPayloadEncode m lz4 e limit hash rows = some (.blob blob) ∧
      ∀ (r : Receiver) (host : Host) (cursor : CheckCursor), r.Opens lz4 hash → r.limit = limit →
        ∃ header buffer result, openPayload r blob = .ok (header, buffer) ∧
          header.signature = CLOUDSYNC_PAYLOAD_SIGNATURE ∧ header.ncols = ncols ∧
          header.nrows = rows.length ∧ header.schemaHash = hash ∧
          cloudsyncPayloadApply r host cursor blob = some result ∧
          result.rows.map (RowRecord.decoded buffer) = rows.map padded := by
  have hlen := length_le_encodedRows hn.1 rows hwidth
  rcases cloudsyncPayloadEncode_eq m hm lz4 e limit hash ncols rows hrows ⟨hn.1, by omega⟩ hwidth
    (fun row hrow => by have := hfirst row hrow; rw [headerSize, CLOUDSYNC_PAYLOAD_MINBUF_SIZE]; omega)
    hlimit htotal with ⟨x, data, hsent, henc⟩
  refine ⟨_, henc, fun r host cursor hr hrl => ?_⟩
  have hopen := openPayload_sent hlz hr e ⟨hn.1, by omega⟩ hhash (by omega) (by omega) hsent
  rcases payloadRows_encodedRows host hn.2 hlimit rows hwidth (by omega) [] 0 (fun _ => none, {})
    (fun _ _ => rfl) SQLITE_OK with ⟨le, hrun, hdec⟩
  rw [List.nil_append] at hdec
  rw [List.nil_append, ← hrl] at hrun
  rcases cloudsyncPayloadApply_rows cursor hopen hrun with ⟨result, happly, hresult⟩
  refine ⟨_, _, result, hopen, rfl, rfl, rfl, rfl, happly, ?_⟩
  rw [hresult, hdec]

/-- The receiver of the concrete runs opens what a sender of its schema sends. -/
theorem plainReceiver_opens : plainReceiver.Opens literalLz4 0 :=
  ⟨rfl, fun _ => rfl, .inl rfl, rfl⟩

def mixedRows : List (List Value) :=
  [[.integer 1, .null], [.integer (-300), .text ⟨[0x61, 0x62], by decide⟩]]

theorem cloudsyncPayloadApply_cloudsyncPayloadEncode_pair :
    ∃ blob, cloudsyncPayloadEncode ⟨fun _ => true, fun _ => 0⟩ literalLz4 .big 1000000000 0
        mixedRows = some (.blob blob) ∧
      ∃ header buffer result, openPayload plainReceiver blob = .ok (header, buffer) ∧
        header.nrows = 2 ∧
        cloudsyncPayloadApply plainReceiver (failsAt 2) ⟨none, none⟩ blob = some result ∧
        result.rows.map (RowRecord.decoded buffer) = mixedRows.map padded := by
  rcases cloudsyncPayloadApply_cloudsyncPayloadEncode ⟨fun _ => true, fun _ => 0⟩ (fun _ => rfl)
    literalLz4 literalLz4_lawful .big 1000000000 0 2 mixedRows (by simp [mixedRows]) (by omega)
    (by simp [mixedRows]) (by decide) (by omega) (by omega) (by decide) with ⟨blob, henc, hall⟩
  rcases hall plainReceiver (failsAt 2) ⟨none, none⟩ plainReceiver_opens rfl with
    ⟨header, buffer, result, hopen, -, -, hn, -, happly, hrows⟩
  exact ⟨blob, henc, header, buffer, result, hopen, hn, happly, hrows⟩

/-- Two rows of ten integers, one more than the INSERT has parameters. -/
def tenColumns : List (List Value) :=
  [List.replicate 10 (.integer 1), List.replicate 10 (.integer 2)]

/-- Each round stops at the tenth value and goes back to the first row. -/
theorem tenColumns_not_decoded :
    ∃ blob, cloudsyncPayloadEncode ⟨fun _ => true, fun _ => 0⟩ literalLz4 .little 1000000000 0
        tenColumns = some (.blob blob) ∧
      ∃ header buffer result, openPayload plainReceiver blob = .ok (header, buffer) ∧
        cloudsyncPayloadApply plainReceiver (failsAt 2) ⟨none, none⟩ blob = some result ∧
        result.rows.map (RowRecord.decoded buffer) =
          List.replicate 2 (List.replicate 9 (some (.integer 1))) ∧
        result.rows.map (RowRecord.decoded buffer) ≠ tenColumns.map padded := by
  rcases cloudsyncPayloadEncode_eq ⟨fun _ => true, fun _ => 0⟩ (fun _ => rfl) literalLz4 .little
    1000000000 0 10 tenColumns (by decide) (by omega) (by decide) (by decide) (by omega) (by decide) with
    ⟨x, data, hsent, henc⟩
  have hopen := openPayload_sent literalLz4_lawful plainReceiver_opens .little
    (by omega : 0 < 10 ∧ 10 < 2 ^ 16) (by omega) (by decide) (by decide) hsent
  have hrun : (payloadRows (failsAt 2) 1000000000 (encodedRows tenColumns) 10 2 0 0
      (fun _ => none, {}) SQLITE_OK).map (fun e => e.rows.map (RowRecord.decoded (encodedRows tenColumns)))
      = some (List.replicate 2 (List.replicate 9 (some (.integer 1)))) := by decide
  rcases Option.map_eq_some_iff.mp hrun with ⟨e, hloop, hdec⟩
  rcases cloudsyncPayloadApply_rows ⟨none, none⟩ hopen hloop with ⟨result, happly, hrows⟩
  rw [← hrows] at hdec
  refine ⟨_, henc, _, _, result, hopen, happly, hdec, ?_⟩
  rw [hdec]
  decide

end SqliteSync.Payload
