import SqliteSync.Library.Run
import SqliteSync.Payload.Outcome
import SqliteSync.Payload.Rows

/-!
# The download cursor over a run

`check_dbversion` and `check_seq` are taken from the last row of whatever payload
was applied. Between them they go back where that row has the stored database
version and a lower sequence number.
-/
namespace SqliteSync.Payload
open Codec Library

/-- The stored pair, in the lexicographic order; a missing key counts as zero. -/
def CheckCursor.pair (c : CheckCursor) : ℤ ×ₗ ℤ := toLex (c.dbversion.getD 0, c.seq.getD 0)

/-- The last INTEGER that the rows hold in the column `k`, or zero. -/
def lastInteger (limit k : ℕ) (rows : List (ℕ × List CbArgs)) : ℤ :=
  (rows.flatMap (·.2)).foldl
    (fun v a => if bindAccepts limit insertParams a = true ∧ a.index = k ∧ a.type = 1 then a.ival else v)
    0

def LastSucceeds (host : Host) (nrows : ℕ) : Prop :=
  ∀ k < nrows, host.approved k = true →
    (∀ j < nrows, k < j → host.approved j = false) → host.step k = SQLITE_DONE

instance (host : Host) (nrows : ℕ) : Decidable (LastSucceeds host nrows) :=
  inferInstanceAs (Decidable (∀ k < nrows, _ → _ → _))

/-- A payload that arrives, with what receives it and what becomes of its rows. -/
structure Download where
  recv : Receiver
  host : Host
  payload : List UInt8

/-- The number of rows of the payload and their calls, where it can be opened. -/
def Download.rows (e : Download) : Option (ℕ × List (ℕ × List CbArgs)) :=
  match openPayload e.recv e.payload with
  | .error _ => none
  | .ok (header, buffer) =>
    (payloadCalls e.recv.limit buffer header.ncols header.nrows 0).map fun rows => (header.nrows, rows)

/-- An application as a step on the cursor. -/
def applyDownload (c : CheckCursor) (e : Download) : Option CheckCursor :=
  (cloudsyncPayloadApply e.recv e.host c e.payload).map (·.cursor)

/-- Where the application succeeds and the last database version of the payload is not
below the stored one as an `int`, it is not below the stored one, and where it is the
same the last sequence number is not below the stored one or is its `int`. -/
def Forward (c : CheckCursor) (e : Download) : Prop :=
  ∀ x ∈ e.rows, LastSucceeds e.host x.1 →
    settingsGetInt c.dbversion ≤ lastInteger e.recv.limit CLOUDSYNC_PK_INDEX_DBVERSION x.2 →
      c.dbversion.getD 0 ≤ lastInteger e.recv.limit CLOUDSYNC_PK_INDEX_DBVERSION x.2 ∧
        (c.dbversion.getD 0 = lastInteger e.recv.limit CLOUDSYNC_PK_INDEX_DBVERSION x.2 →
          c.seq.getD 0 ≤ lastInteger e.recv.limit CLOUDSYNC_PK_INDEX_SEQ x.2 ∨
            lastInteger e.recv.limit CLOUDSYNC_PK_INDEX_SEQ x.2 = settingsGetInt c.seq)

instance (c : CheckCursor) (e : Download) : Decidable (Forward c e) :=
  inferInstanceAs (Decidable (∀ x ∈ e.rows, _))

section Context

variable {limit : ℕ}

theorem BindContext.set_dbVersion (ctx : BindContext) (a : CbArgs) :
    (ctx.set a).dbVersion =
      if a.index = CLOUDSYNC_PK_INDEX_DBVERSION ∧ a.type = 1 then a.ival else ctx.dbVersion := by
  unfold BindContext.set
  split <;> simp_all

theorem BindContext.set_seq (ctx : BindContext) (a : CbArgs) :
    (ctx.set a).seq = if a.index = CLOUDSYNC_PK_INDEX_SEQ ∧ a.type = 1 then a.ival else ctx.seq := by
  unfold BindContext.set
  split <;> simp_all

theorem replay_cursor (off : ℕ) (s : Stmt × BindContext) (calls : List CbArgs) :
    (replay limit off s calls).2.dbVersion = calls.foldl (fun v a =>
        if bindAccepts limit insertParams a = true ∧ a.index = CLOUDSYNC_PK_INDEX_DBVERSION ∧ a.type = 1
        then a.ival else v) s.2.dbVersion ∧
      (replay limit off s calls).2.seq = calls.foldl (fun v a =>
        if bindAccepts limit insertParams a = true ∧ a.index = CLOUDSYNC_PK_INDEX_SEQ ∧ a.type = 1
        then a.ival else v) s.2.seq := by
  induction calls generalizing s with
  | nil => exact ⟨rfl, rfl⟩
  | cons a calls ih =>
    have hrest := ih (cloudsyncPkDecodeBindCallback limit off s a).2
    rw [cloudsyncPkDecodeBindCallback_snd] at hrest
    simp only [replay, List.foldl_cons] at hrest ⊢
    rw [cloudsyncPkDecodeBindCallback_snd]
    cases haccepts : bindAccepts limit insertParams a with
    | false => simpa [haccepts] using hrest
    | true => simpa [haccepts, BindContext.set_dbVersion, BindContext.set_seq, CbArgs.shift] using hrest

theorem contextAfter_cursor (ctx : BindContext) (rows : List (ℕ × List CbArgs)) :
    (contextAfter limit ctx rows).dbVersion = (rows.flatMap (·.2)).foldl (fun v a =>
        if bindAccepts limit insertParams a = true ∧ a.index = CLOUDSYNC_PK_INDEX_DBVERSION ∧ a.type = 1
        then a.ival else v) ctx.dbVersion ∧
      (contextAfter limit ctx rows).seq = (rows.flatMap (·.2)).foldl (fun v a =>
        if bindAccepts limit insertParams a = true ∧ a.index = CLOUDSYNC_PK_INDEX_SEQ ∧ a.type = 1
        then a.ival else v) ctx.seq := by
  induction rows generalizing ctx with
  | nil => exact ⟨rfl, rfl⟩
  | cons row rows ih =>
    have hrow := @replay_cursor limit row.1 (fun _ => none, ctx) row.2
    have hrest := ih (replay limit row.1 (fun _ => none, ctx) row.2).2
    rw [hrow.1, hrow.2] at hrest
    simp only [contextAfter, List.foldl_cons] at hrest ⊢
    rw [List.flatMap_cons, List.foldl_append, List.foldl_append]
    exact hrest

end Context

theorem payloadRows_ok_iff {host : Host} {limit ncols nrows : ℕ} {buffer : List UInt8}
    {s : Stmt × BindContext} {e : LoopEnd}
    (h : payloadRows host limit buffer ncols nrows 0 0 s SQLITE_OK = some e) :
    (e.rc = SQLITE_DONE ∨ e.rc = SQLITE_OK) ↔ LastSucceeds host nrows := by
  rcases payloadRows_rc host h with ⟨k, -, hkn, happ, hrc, hafter⟩ | ⟨hrc, hnone⟩
  · have hlast : ∀ j < nrows, k < j → host.approved j = false :=
      fun j hj hkj => hafter j hkj (by omega)
    constructor
    · intro hok l hl happl hlastl
      have hlk : l = k := by
        rcases Nat.lt_trichotomy l k with hlt | heq | hgt
        · rw [hlastl k (by omega) hlt] at happ
          cases happ
        · exact heq
        · rw [hlast l hl hgt] at happl
          cases happl
      subst hlk
      rcases hok with hok | hok
      · exact Subtype.ext (hrc.symm.trans hok)
      · exact absurd (hrc.symm.trans hok) (host.step l).property
    · intro hall
      left
      rw [hrc, hall k (by omega) happ hlast]
  · constructor
    · intro _ k hk happ _
      have hk' := hnone k (Nat.zero_le k) (by omega)
      rw [hk'] at happ
      cases happ
    · intro _
      exact Or.inr hrc

theorem applyDownload_eq {c c' : CheckCursor} {e : Download} (h : applyDownload c e = some c') :
    (∀ x ∈ e.rows, LastSucceeds e.host x.1 →
      c' = c.advance (contextAfter e.recv.limit {} x.2)) ∧
      ((∀ x ∈ e.rows, ¬ LastSucceeds e.host x.1) → c' = c) := by
  rw [applyDownload, Option.map_eq_some_iff] at h
  rcases h with ⟨result, hresult, rfl⟩
  rw [Download.rows]
  rw [cloudsyncPayloadApply] at hresult
  cases hopen : openPayload e.recv e.payload with
  | error err =>
    rw [hopen, Option.some.injEq] at hresult
    rw [← hresult]
    simp
  | ok p =>
    obtain ⟨header, buffer⟩ := p
    simp only [hopen, Option.bind_eq_bind, Option.bind_eq_some_iff] at hresult
    rcases hresult with ⟨loop, hloop, hresult⟩
    have hcalls := @payloadRows_calls e.recv.limit buffer header.ncols e.host header.nrows 0 0 {}
      SQLITE_OK
    rw [hloop, Option.map_some, eq_comm, Option.map_eq_some_iff] at hcalls
    rcases hcalls with ⟨rows, hrows, heq⟩
    have hctx := (Prod.mk.inj heq).2
    have hok := payloadRows_ok_iff hloop
    have hrc : (if loop.rc = SQLITE_DONE then SQLITE_OK else loop.rc) = SQLITE_OK ↔
        LastSucceeds e.host header.nrows := by
      rw [← hok]
      by_cases hdone : loop.rc = SQLITE_DONE
      · simp [hdone]
      · simp [hdone]
    simp only [hrows, Option.map_some, Option.mem_def, Option.some.injEq, forall_eq']
    by_cases hlast : LastSucceeds e.host header.nrows
    · have hcode := hrc.mpr hlast
      simp only [hcode, ne_eq, not_true_eq_false, if_true, if_false, Option.some.injEq] at hresult
      rw [← hresult]
      refine ⟨fun _ => ?_, fun hnot => absurd hlast hnot⟩
      dsimp only
      rw [hctx]
    · have hcode := mt hrc.mp hlast
      simp only [hcode, ne_eq, not_false_eq_true, if_true, if_false, Option.some.injEq] at hresult
      rw [← hresult]
      exact ⟨fun h => absurd h hlast, fun _ => rfl⟩

/-- One application leaves the cursor at or after where it was exactly when the payload
goes forward from it. -/
theorem applyDownload_le_iff {c c' : CheckCursor} {e : Download} (h : applyDownload c e = some c') :
    c.pair ≤ c'.pair ↔ Forward c e := by
  rcases applyDownload_eq h with ⟨hadvance, hkeep⟩
  cases hrows : e.rows with
  | none =>
    have hc : c' = c := hkeep (by simp [hrows])
    simp [hc, Forward, hrows]
  | some x =>
    rw [hrows] at hadvance hkeep
    simp only [Option.mem_def, Option.some.injEq, forall_eq'] at hadvance hkeep
    simp only [Forward, hrows, Option.mem_def, Option.some.injEq, forall_eq']
    by_cases hlast : LastSucceeds e.host x.1
    · have hcursor := @contextAfter_cursor e.recv.limit {} x.2
      change _ = lastInteger e.recv.limit CLOUDSYNC_PK_INDEX_DBVERSION x.2 ∧
        _ = lastInteger e.recv.limit CLOUDSYNC_PK_INDEX_SEQ x.2 at hcursor
      rw [hadvance hlast, CheckCursor.advance, hcursor.1, hcursor.2]
      simp only [hlast, forall_const]
      split_ifs with hle hseq
      · simp only [CheckCursor.pair, Prod.Lex.toLex_le_toLex, Option.getD_some, hle, forall_const,
          hseq, or_false]
        omega
      · simp only [CheckCursor.pair, Prod.Lex.toLex_le_toLex, Option.getD_some, hle, forall_const]
        omega
      · simp [hle]
    · simp [hkeep hlast, hlast]

/-- In a run whose payloads all go forward from the cursor they find, the cursor never
goes back. -/
theorem checkCursor_le_of_forward {c₀ c : CheckCursor}
    (h : Reachable applyDownload (· = c₀) Forward c) : c₀.pair ≤ c.pair := by
  apply h.invariant (I := fun c => c₀.pair ≤ c.pair)
  · intro c hc
    rw [hc]
  · intro c e c' hc hforward hstep
    exact hc.trans ((applyDownload_le_iff hstep).mpr hforward)

/-- One row of nine columns with this database version and this sequence number. -/
def oneChange (dbVersion seq : UInt8) : List UInt8 :=
  [0x43, 0x4C, 0x53, 0x59, 1, 0, 8, 12, 0, 0, 0, 0, 0, 9, 0, 0, 0, 1, 0, 0, 0, 0, 0, 0, 0, 0,
    0, 0, 0, 0, 0, 0, 5, 5, 5, 5, 5, 9, dbVersion, 5, 5, 9, seq]

/-- A run of one payload and then a later one. -/
theorem checkCursor_le_two :
    (⟨some 5, some 3⟩ : CheckCursor).pair ≤ (⟨some 6, some 0⟩ : CheckCursor).pair :=
  checkCursor_le_of_forward <|
    .next (.next (.start rfl) ⟨plainReceiver, failsAt 9, oneChange 5 9⟩ (by decide)
      (show applyDownload ⟨some 5, some 3⟩ _ = some ⟨some 5, some 9⟩ by decide))
      ⟨plainReceiver, failsAt 9, oneChange 6 0⟩ (by decide) (by decide)

/-- An older part of the same database version arrives again. -/
theorem checkCursor_goes_back :
    ∃ c, Reachable applyDownload (· = ⟨none, none⟩) (fun _ _ => True) c ∧
      ∃ e c', applyDownload c e = some c' ∧ c'.pair < c.pair :=
  ⟨⟨some 5, some 9⟩,
    .next (.start rfl) ⟨plainReceiver, failsAt 9, oneChange 5 9⟩ trivial (by decide),
    ⟨plainReceiver, failsAt 9, oneChange 5 3⟩, ⟨some 5, some 3⟩, by decide, by decide⟩

end SqliteSync.Payload
