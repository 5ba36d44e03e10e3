import SqliteSync.Payload.Apply

/-!
# Which payloads the row loop stays inside

`rowsCheck` walks the rows as the loop does, with the check on items that the
decoder does not make. A refused row leaves the position where it was, so the
same bytes are read again for every row that is left.
-/
namespace SqliteSync.Payload
open Codec Library

/-- Every row from position `off` on lies in the buffer. -/
def rowsCheck (limit : ℕ) (buffer : List UInt8) (ncols : ℕ) : ℕ → ℕ → Bool
  | 0, _ => true
  | nrows + 1, off =>
    match decodeCheck (buffer.drop off) (bindStop limit insertParams) ncols 0 with
    | none => false
    | some .refused => true
    | some (.done seek) => rowsCheck limit buffer ncols nrows (off + seek)

/-- A loop that read inside the buffer and handed out only slices of it. -/
def SafeRows (buffer : List UInt8) (run : Option LoopEnd) : Prop :=
  ∃ e, run = some e ∧ ∀ row ∈ e.rows, ∀ a ∈ row.calls, a.InBounds (buffer.drop row.off)

section
variable (host : Host) (limit : ℕ) {buffer : List UInt8} 

theorem cloudsyncPkDecodeBindCallback_fst (hb : buffer.length < 2 ^ 31) (off : ℕ) (s : Stmt × BindContext) (a : CbArgs)
    (ha : a.InBounds (buffer.drop off)) :
    (cloudsyncPkDecodeBindCallback limit off s a).1 = !bindStop limit insertParams a.index a.content := by
  have hlen : (buffer.drop off).length < 2 ^ 31 := by
    rw [List.length_drop]
    omega
  rw [cloudsyncPkDecodeBindCallback_accepts, bindAccepts_eq hlen limit insertParams ha]

theorem safeRows_cons (rest : Option LoopEnd) (row : RowRecord)
    (hrow : ∀ a ∈ row.calls, a.InBounds (buffer.drop row.off)) :
    SafeRows buffer (rest.bind fun e => some { e with rows := row :: e.rows }) ↔
      SafeRows buffer rest := by
  cases rest with
  | none => simp [SafeRows]
  | some e =>
    simp only [SafeRows, Option.bind_some, Option.some.injEq, exists_eq_left', List.mem_cons,
      forall_eq_or_imp]
    exact and_iff_right hrow

theorem rowsCheck_of_refused {ncols off : ℕ}
    (h : decodeCheck (buffer.drop off) (bindStop limit insertParams) ncols 0 = some .refused)
    (nrows : ℕ) : rowsCheck limit buffer ncols nrows off = true := by
  cases nrows with
  | zero => rfl
  | succ nrows => rw [rowsCheck, h]

/-- The row loop is safe exactly where the check passes. -/
theorem payloadRows_safe_iff (hb : buffer.length < 2 ^ 31) (ncols nrows i off : ℕ) (s : Stmt × BindContext) (rc : ℤ) :
    SafeRows buffer (payloadRows host limit buffer ncols nrows i off s rc) ↔
      rowsCheck limit buffer ncols nrows off = true := by
  induction nrows generalizing i off s rc with
  | zero => simp [payloadRows, rowsCheck, SafeRows]
  | succ nrows ih =>
    have hcb := fun s a => cloudsyncPkDecodeBindCallback_fst limit hb off s a
    rw [payloadRows]
    cases hc : decodeCheck (buffer.drop off) (bindStop limit insertParams) ncols 0 with
    | none =>
      have hbad := pkDecode_unsafe (bindStop limit insertParams)
        (fun x a ha hst => by rw [hcb x a ha, hst]; rfl) ncols 0 s hc
      rw [rowsCheck, hc]
      refine iff_of_false ?_ (by simp)
      rintro ⟨e, he, hrows⟩
      simp only [Option.bind_eq_bind, Option.bind_eq_some_iff, Option.some.injEq] at he
      rcases he with ⟨r, hr, rest, -, rfl⟩
      exact hbad ⟨r, hr, hrows _ List.mem_cons_self⟩
    | some e =>
      rcases pkDecode_seek (bindStop limit insertParams) hcb ncols 0 s e hc with
        ⟨r, hr, hcalls, hseek⟩
      rw [hr, Option.bind_eq_bind, Option.bind_some]
      refine (safeRows_cons _ ⟨off, r.xdata.1, r.xdata.2.1, r.xdata.2.2⟩ hcalls).trans ?_
      rw [ih, hseek]
      cases e with
      | done seek => simp only [rowsCheck, hc, DecodeEnd.seek]
      | refused =>
        rw [DecodeEnd.seek, Nat.add_zero, rowsCheck_of_refused limit hc, rowsCheck_of_refused limit hc]

end

/-- An application that stayed inside the rows' buffer and handed out only slices
of it. -/
def SafeApply (recv : Receiver) (payload : List UInt8) (run : Option ApplyResult) : Prop :=
  ∃ r, run = some r ∧ ∀ header buffer, openPayload recv payload = .ok (header, buffer) →
    ∀ row ∈ r.rows, ∀ a ∈ row.calls, a.InBounds (buffer.drop row.off)

theorem rowsBuffer_length {r : Receiver} (hlz : r.lz4.Lawful) {header : NetworkHeader}
    {bytes buffer : List UInt8} (hb : bytes.length < 2 ^ 31)
    (h : rowsBuffer r header bytes = .ok buffer) : buffer.length < 2 ^ 31 := by
  unfold rowsBuffer at h
  split at h
  · split at h
    · split at h
      · split at h
        · cases h
          have hlen := hlz.decompress_length _ _ _ ‹_›
          have hint := toInt32_lt header.expandedSize
          omega
        · cases h
      · cases h
    · cases h
  · cases h
    exact hb

/-- What follows the loop neither reads the buffer nor touches its rounds. -/
theorem safeApply_bind_iff {recv : Receiver} {payload buffer : List UInt8} {header : NetworkHeader}
    (hopen : openPayload recv payload = .ok (header, buffer)) (run : Option LoopEnd)
    {after : LoopEnd → Option ApplyResult}
    (hafter : ∀ e, ∃ r, after e = some r ∧ r.rows = e.rows) :
    SafeApply recv payload (run.bind after) ↔ SafeRows buffer run := by
  cases run with
  | none => simp [SafeApply, SafeRows]
  | some e =>
    rcases hafter e with ⟨r, hr, hrows⟩
    simp only [SafeApply, SafeRows, Option.bind_some, hr, Option.some.injEq, exists_eq_left', hopen,
      Except.ok.injEq, Prod.mk.injEq, and_imp, ← hrows]
    exact ⟨fun h => h header buffer rfl rfl, fun h _ _ _ hb => hb ▸ h⟩

/-- An application is safe exactly where the payload is turned away before its
rows or the check on the rows passes. -/
theorem cloudsyncPayloadApply_safe_iff (recv : Receiver) (hlz : recv.lz4.Lawful) (host : Host)
    (cursor : CheckCursor) (payload : Bytes) :
    SafeApply recv payload.data (cloudsyncPayloadApply recv host cursor payload.data) ↔
      ∀ header buffer, openPayload recv payload.data = .ok (header, buffer) →
        rowsCheck recv.limit buffer header.ncols header.nrows 0 = true := by
  rw [cloudsyncPayloadApply]
  cases hopen : openPayload recv payload.data with
  | error err => exact iff_of_true ⟨_, rfl, fun h b hb => by simp [hopen] at hb⟩ (by simp)
  | ok p =>
    obtain ⟨header, buffer⟩ := p
    have hb : buffer.length < 2 ^ 31 :=
      rowsBuffer_length hlz (by rw [List.length_drop]; have := payload.short; omega)
        (openPayload_header hopen).2
    simp only [Option.bind_eq_bind]
    rw [safeApply_bind_iff hopen]
    · rw [payloadRows_safe_iff host recv.limit hb]
      constructor
      · intro h header' buffer' he
        cases he
        exact h
      · exact fun h => h header buffer rfl
    · intro e
      split_ifs <;> exact ⟨_, rfl, rfl⟩

/-- Decoding stays inside its buffer exactly where the buffer holds what is asked
of it: for `pk_decode` under any callback, every item; for a payload that is not
turned away, every row; for a key bound to a statement, every item up to the
first one the statement refuses. -/
theorem decoding_safe_iff (recv : Receiver) (hlz : recv.lz4.Lawful) :
    (∀ (buffer : List UInt8) (count : ℤ) (seek : ℕ),
      (∀ (σ : Type) (cb : Callback σ) (xdata : σ),
        Safe buffer (pkDecode buffer count seek (logged cb) ([], xdata))) ↔
      (decodeCheck buffer (fun _ _ => false) count seek).isSome) ∧
    (∀ (host : Host) (cursor : CheckCursor) (payload : Bytes), headerSize ≤ payload.data.length →
      (SafeApply recv payload.data (cloudsyncPayloadDecode recv host cursor (.blob payload)) ↔
      ∀ header buffer, openPayload recv payload.data = .ok (header, buffer) →
        rowsCheck recv.limit buffer header.ncols header.nrows 0 = true)) ∧
    ∀ (pk : Bytes) (limit nparams : ℕ) (vm : Stmt),
      Safe pk.data (pkDecodePrikey pk.data (logged (pkDecodeBindCallback limit nparams)) ([], vm)) ↔
      (decodeCheck pk.data (bindStop limit nparams) (-1) 0).isSome := by
  refine ⟨pkDecode_safe_iff, fun host cursor payload hlen => ?_, fun pk limit nparams vm => ?_⟩
  · rw [cloudsyncPayloadDecode, if_neg (not_lt.mpr hlen)]
    exact cloudsyncPayloadApply_safe_iff recv hlz host cursor payload
  · rw [safe_pkDecodePrikey_iff]
    exact pkDecode_bind_safe_iff pk.short limit nparams (-1) 0 vm

/-- A header for one row of one column, and no row after it. -/
def rowMissing : Bytes :=
  ⟨[0x43, 0x4C, 0x53, 0x59, 1, 0, 8, 12, 0, 0, 0, 0, 0, 1, 0, 0, 0, 1, 0, 0, 0, 0, 0, 0, 0, 0,
    0, 0, 0, 0, 0, 0], by decide⟩

/-- A count with no item behind it, a payload that ends before its row and a key
that ends after its count are each read past the end. -/
theorem decoding_reads_past_end :
    ¬ Safe [] (pkDecode [] 1 0 (logged fun x _ => (true, x)) ([], ())) ∧
    ¬ SafeApply plainReceiver rowMissing.data
      (cloudsyncPayloadDecode plainReceiver (failsAt 1) ⟨none, none⟩ (.blob rowMissing)) ∧
    ¬ Safe [1] (pkDecodePrikey [1] (logged (pkDecodeBindCallback 1000000000 1)) ([], fun _ => none)) := by
  refine ⟨?_, ?_, ?_⟩
  · rintro ⟨r, hr, -⟩
    cases hr
  · have hnone : (cloudsyncPayloadDecode plainReceiver (failsAt 1) ⟨none, none⟩
        (.blob rowMissing)).isSome = false := by decide
    rintro ⟨r, hr, -⟩
    rw [hr] at hnone
    cases hnone
  · rintro ⟨r, hr, -⟩
    cases hr

/-- The same header followed by its row, read by a receiver that knows its schema. -/
theorem decoding_safe_plainReceiver :
    SafeApply plainReceiver (rowMissing.data ++ [5])
      (cloudsyncPayloadDecode plainReceiver (failsAt 1) ⟨none, none⟩
        (.blob ⟨rowMissing.data ++ [5], by decide⟩)) := by
  refine ((decoding_safe_iff plainReceiver literalLz4_lawful).2.1 (failsAt 1) ⟨none, none⟩
    ⟨rowMissing.data ++ [5], by decide⟩ (by decide)).mpr fun header buffer h => ?_
  have hopen : openPayload plainReceiver (rowMissing.data ++ [5]) =
      .ok (⟨CLOUDSYNC_PAYLOAD_SIGNATURE, 1, (0, 8, 12), 0, 1, 1, 0⟩, [5]) := by decide
  rw [hopen] at h
  cases h
  decide

end SqliteSync.Payload
