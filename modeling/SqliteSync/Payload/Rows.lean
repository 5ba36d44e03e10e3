import SqliteSync.Payload.Apply

/-!
# The rows of a payload, apart from what becomes of them

Whether a value is accepted does not depend on the statement or on the context, so
the calls that decoding a payload makes are read off its bytes alone. The row loop is
these calls, replayed row by row.
-/
namespace SqliteSync.Payload
open Codec Library

/-- The calls that decoding makes where `accepts` decides on each: all of them up to
the first that is refused. -/
def decodeCalls (buffer : List UInt8) (accepts : CbArgs → Bool) :
    ℕ → ℕ → ℕ → Option (DecodeEnd × List CbArgs)
  | 0, _, bseek => some (.done bseek, [])
  | count + 1, i, bseek => do
    let (args, bseek) ← pkDecodeValue buffer i bseek
    if accepts args then
      (decodeCalls buffer accepts count (i + 1) bseek).map fun r => (r.1, args :: r.2)
    else some (.refused, [args])

/-- A callback whose answer does not depend on its data is called as decoding calls it. -/
theorem pkDecodeItems_logged {σ : Type} {buffer : List UInt8} {cb : Callback σ}
    {accepts : CbArgs → Bool} (hcb : ∀ x a, (cb x a).1 = accepts a) (count i bseek : ℕ)
    (log : List CbArgs) (x : σ) :
    pkDecodeItems buffer (logged cb) count i bseek (log, x) =
      (decodeCalls buffer accepts count i bseek).map fun r =>
        (r.1, (log ++ r.2, r.2.foldl (fun x a => (cb x a).2) x)) := by
  induction count generalizing i bseek log x with
  | zero => simp [pkDecodeItems, decodeCalls]
  | succ count ih =>
    rw [pkDecodeItems, decodeCalls]
    cases hv : pkDecodeValue buffer i bseek with
    | none => rfl
    | some r =>
      obtain ⟨a, next⟩ := r
      simp only [Option.bind_eq_bind, Option.bind_some, logged, hcb]
      cases accepts a with
      | false => simp
      | true =>
        have hrest := ih (i + 1) next (log ++ [a]) (cb x a).2
        simp [hrest, Function.comp_def]

/-- A call has the index it was made for, and bytes where its type has some. -/
theorem pkDecodeValue_call {buffer : List UInt8} {i bseek next : ℕ} {a : CbArgs}
    (h : pkDecodeValue buffer i bseek = some (a, next)) :
    a.index = i ∧ (a.type = 3 ∨ a.type = 4 → a.pval.isSome) := by
  simp only [pkDecodeValue, Option.bind_eq_bind, Option.bind_eq_some_iff] at h
  rcases h with ⟨⟨type_byte, pos⟩, -, h⟩
  unfold pkDecodeSwitch at h
  split at h
  all_goals
    simp only [Option.bind_eq_bind, Option.bind_eq_some_iff, Option.some.injEq, Prod.mk.injEq,
      Prod.exists] at h
    grind

theorem decodeCalls_pval {buffer : List UInt8} {accepts : CbArgs → Bool} {count i bseek : ℕ}
    {r : DecodeEnd × List CbArgs} (h : decodeCalls buffer accepts count i bseek = some r) :
    ∀ a ∈ r.2, a.type = 3 ∨ a.type = 4 → a.pval.isSome := by
  induction count generalizing i bseek r with
  | zero =>
    rw [decodeCalls, Option.some.injEq] at h
    subst h
    simp
  | succ count ih =>
    rw [decodeCalls] at h
    simp only [Option.bind_eq_bind, Option.bind_eq_some_iff] at h
    rcases h with ⟨⟨a, next⟩, ha, h⟩
    have hfirst := (pkDecodeValue_call ha).2
    split at h
    · rw [Option.map_eq_some_iff] at h
      rcases h with ⟨r', hr', rfl⟩
      intro b hb
      rcases List.mem_cons.mp hb with rfl | hb
      · exact hfirst
      · exact ih hr' b hb
    · rw [Option.some.injEq] at h
      subst h
      intro b hb
      rw [List.mem_singleton.mp hb]
      exact hfirst

theorem decodeCalls_index {buffer : List UInt8} {accepts : CbArgs → Bool} {count i bseek : ℕ}
    {r : DecodeEnd × List CbArgs} (h : decodeCalls buffer accepts count i bseek = some r) :
    r.2.map (·.index) = List.range' i r.2.length := by
  induction count generalizing i bseek r with
  | zero =>
    rw [decodeCalls, Option.some.injEq] at h
    subst h
    rfl
  | succ count ih =>
    rw [decodeCalls] at h
    simp only [Option.bind_eq_bind, Option.bind_eq_some_iff] at h
    rcases h with ⟨⟨a, next⟩, ha, h⟩
    have hindex := (pkDecodeValue_call ha).1
    split at h
    · rw [Option.map_eq_some_iff] at h
      rcases h with ⟨r', hr', rfl⟩
      simp [ih hr', hindex, List.range'_succ]
    · rw [Option.some.injEq] at h
      subst h
      simp [hindex]

theorem cloudsyncPkDecodeBindCallback_snd (limit off : ℕ) (s : Stmt × BindContext) (a : CbArgs) :
    (cloudsyncPkDecodeBindCallback limit off s a).2 =
      ((pkDecodeBindCallback limit insertParams s.1 (a.shift off)).2,
        if bindAccepts limit insertParams a then s.2.set (a.shift off) else s.2) := by
  rw [← cloudsyncPkDecodeBindCallback_accepts limit off s]
  unfold cloudsyncPkDecodeBindCallback
  rcases pkDecodeBindCallback limit insertParams s.1 (a.shift off) with ⟨accepted, vm⟩
  cases accepted <;> rfl

section Loop

variable (limit : ℕ) (buffer : List UInt8) (ncols : ℕ)

/-- The calls of the row that starts at `off`, and how far its decoding goes: nowhere
when a value is refused. -/
def rowCalls (off : ℕ) : Option (ℕ × List CbArgs) :=
  (decodeCalls (buffer.drop off) (bindAccepts limit insertParams) (sizeT ncols) 0 0).map fun r =>
    (match r.1 with
      | .done bseek => bseek
      | .refused => 0, r.2)

/-- The rows of the rows' buffer: where each starts, and its calls. -/
def payloadCalls : ℕ → ℕ → Option (List (ℕ × List CbArgs))
  | 0, _ => some []
  | nrows + 1, off => do
    let r ← rowCalls limit buffer ncols off
    let rest ← payloadCalls nrows (off + r.1)
    some ((off, r.2) :: rest)

def replay (off : ℕ) (s : Stmt × BindContext) (calls : List CbArgs) : Stmt × BindContext :=
  calls.foldl (fun x a => (cloudsyncPkDecodeBindCallback limit off x a).2) s

/-- The rounds of the row loop. -/
def records : BindContext → List (ℕ × List CbArgs) → List RowRecord
  | _, [] => []
  | ctx, (off, calls) :: rows =>
    let s := replay limit off (fun _ => none, ctx) calls
    ⟨off, calls, s.1, s.2⟩ :: records s.2 rows

def contextAfter (ctx : BindContext) (rows : List (ℕ × List CbArgs)) : BindContext :=
  rows.foldl (fun ctx row => (replay limit row.1 (fun _ => none, ctx) row.2).2) ctx

variable {limit buffer ncols}

theorem pkDecode_row_calls (off : ℕ) (s : Stmt × BindContext) :
    (pkDecode (buffer.drop off) ncols 0 (logged (cloudsyncPkDecodeBindCallback limit off))
        ([], s)).map (fun r => (r.seek, r.xdata)) =
      (rowCalls limit buffer ncols off).map fun r => (r.1, (r.2, replay limit off s r.2)) := by
  have hne : ¬ (ncols : ℤ) = -1 := by omega
  rw [pkDecode, if_neg hne, rowCalls]
  simp only [Option.bind_eq_bind, Option.bind_some,
    pkDecodeItems_logged (cloudsyncPkDecodeBindCallback_accepts limit off), List.nil_append]
  cases decodeCalls (buffer.drop off) (bindAccepts limit insertParams) (sizeT ncols) 0 0 with
  | none => rfl
  | some r =>
    obtain ⟨e, calls⟩ := r
    cases e <;> rfl

theorem payloadRows_calls (host : Host) (nrows i off : ℕ) (ctx : BindContext) (rc : ℤ) :
    (payloadRows host limit buffer ncols nrows i off (fun _ => none, ctx) rc).map
        (fun e => (e.rows, e.ctx)) =
      (payloadCalls limit buffer ncols nrows off).map fun rows =>
        (records limit ctx rows, contextAfter limit ctx rows) := by
  induction nrows generalizing i off ctx rc with
  | zero => rfl
  | succ nrows ih =>
    have hrow := @pkDecode_row_calls limit buffer ncols off (fun _ => none, ctx)
    rw [payloadRows, payloadCalls]
    cases hcalls : rowCalls limit buffer ncols off with
    | none =>
      rw [hcalls, Option.map_none, Option.map_eq_none_iff] at hrow
      rw [hrow]
      rfl
    | some r =>
      rw [hcalls, Option.map_some, Option.map_eq_some_iff] at hrow
      rcases hrow with ⟨d, hd, hrow⟩
      rw [Prod.mk.injEq] at hrow
      rw [hd]
      simp only [Option.bind_eq_bind, Option.bind_some, hrow.1, hrow.2]
      have hrest := ih (i + 1) (off + r.1)
        (replay limit off (fun _ => none, ctx) r.2).2 (if host.approved i then (host.step i : ℤ) else rc)
      cases hp : payloadCalls limit buffer ncols nrows (off + r.1) with
      | none =>
        rw [hp, Option.map_none, Option.map_eq_none_iff] at hrest
        rw [hrest]
        rfl
      | some rows =>
        rw [hp, Option.map_some, Option.map_eq_some_iff] at hrest
        rcases hrest with ⟨e, he, hrest⟩
        rw [Prod.mk.injEq] at hrest
        rw [he]
        simp [records, contextAfter, hrest.1, hrest.2]

theorem rowCalls_spec {off : ℕ} {r : ℕ × List CbArgs}
    (h : rowCalls limit buffer ncols off = some r) :
    (r.2.map (·.index)).Nodup ∧ ∀ a ∈ r.2, a.type = 3 ∨ a.type = 4 → a.pval.isSome := by
  rw [rowCalls, Option.map_eq_some_iff] at h
  rcases h with ⟨d, hd, rfl⟩
  refine ⟨?_, decodeCalls_pval hd⟩
  dsimp only
  rw [decodeCalls_index hd]
  exact List.nodup_range'

theorem payloadCalls_spec {nrows off : ℕ} {rows : List (ℕ × List CbArgs)}
    (h : payloadCalls limit buffer ncols nrows off = some rows) :
    ∀ row ∈ rows, (row.2.map (·.index)).Nodup ∧
      ∀ a ∈ row.2, a.type = 3 ∨ a.type = 4 → a.pval.isSome := by
  induction nrows generalizing off rows with
  | zero =>
    rw [payloadCalls, Option.some.injEq] at h
    subst h
    simp
  | succ nrows ih =>
    rw [payloadCalls] at h
    simp only [Option.bind_eq_bind, Option.bind_eq_some_iff, Option.some.injEq] at h
    rcases h with ⟨r, hr, rest, hrest, rfl⟩
    have hfirst := rowCalls_spec hr
    rw [List.forall_mem_cons]
    exact ⟨hfirst, ih hrest⟩

theorem records_calls (ctx : BindContext) (rows : List (ℕ × List CbArgs)) :
    (records limit ctx rows).map (·.calls) = rows.map (·.2) := by
  induction rows generalizing ctx with
  | nil => rfl
  | cons row rows ih => simp [records, ih]

theorem mem_records {ctx : BindContext} {rows : List (ℕ × List CbArgs)} {x : RowRecord}
    (h : x ∈ records limit ctx rows) : ∃ row ∈ rows, ∃ ctx', x.calls = row.2 ∧
      (x.vm, x.ctx) = replay limit row.1 (fun _ => none, ctx') row.2 := by
  induction rows generalizing ctx with
  | nil => simp [records] at h
  | cons row rows ih =>
    rw [records] at h
    rcases List.mem_cons.mp h with rfl | h
    · exact ⟨row, List.mem_cons_self, ctx, rfl, rfl⟩
    · rcases ih h with ⟨row', hrow', ctx', hx⟩
      exact ⟨row', .tail _ hrow', ctx', hx⟩

end Loop

theorem cloudsyncPayloadApply_records {r : Receiver} {host : Host} {cursor : CheckCursor}
    {payload buffer : List UInt8} {header : NetworkHeader} {result : ApplyResult}
    (hopen : openPayload r payload = .ok (header, buffer))
    (h : cloudsyncPayloadApply r host cursor payload = some result) :
    ∃ rows, payloadCalls r.limit buffer header.ncols header.nrows 0 = some rows ∧
      result.rows = records r.limit {} rows := by
  have hcalls := @payloadRows_calls r.limit buffer header.ncols host header.nrows 0 0 {} SQLITE_OK
  cases hloop : payloadRows host r.limit buffer header.ncols header.nrows 0 0 (fun _ => none, {})
      SQLITE_OK with
  | none => simp [cloudsyncPayloadApply, hopen, hloop] at h
  | some e =>
    rcases cloudsyncPayloadApply_rows cursor hopen hloop with ⟨result', hresult, hrows⟩
    rw [h, Option.some.injEq] at hresult
    rw [hloop, Option.map_some, eq_comm, Option.map_eq_some_iff] at hcalls
    rcases hcalls with ⟨rows, hrows', heq⟩
    refine ⟨rows, hrows', ?_⟩
    rw [hresult, hrows, ← (Prod.mk.inj heq).1]

theorem cloudsyncPayloadApply_isSome {r : Receiver} (host : Host) (cursor : CheckCursor)
    {payload buffer : List UInt8} {header : NetworkHeader} {rows : List (ℕ × List CbArgs)}
    (hopen : openPayload r payload = .ok (header, buffer))
    (hrows : payloadCalls r.limit buffer header.ncols header.nrows 0 = some rows) :
    ∃ result, cloudsyncPayloadApply r host cursor payload = some result := by
  have hcalls := @payloadRows_calls r.limit buffer header.ncols host header.nrows 0 0 {} SQLITE_OK
  rw [hrows, Option.map_some, Option.map_eq_some_iff] at hcalls
  rcases hcalls with ⟨e, hloop, -⟩
  rcases cloudsyncPayloadApply_rows cursor hopen hloop with ⟨result, hresult, -⟩
  exact ⟨result, hresult⟩

end SqliteSync.Payload
