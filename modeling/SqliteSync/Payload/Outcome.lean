import SqliteSync.Payload.Apply

/-!
# What the outcome of `cloudsync_payload_apply` says about its rows

The return code read after the row loop is that of the last approved row, so an
earlier failure shows only when no later approved row succeeds.
-/
namespace SqliteSync.Payload
open Codec Library

section
variable (host : Host)

/-- Row `i` was approved and its step did not return `SQLITE_DONE`. -/
def RowFails (i : ℕ) : Prop := host.approved i = true ∧ host.step i ≠ SQLITE_DONE

/-- No row from `i` on fails, or the last approved one does. -/
def LastFailureShows (i n : ℕ) : Prop :=
  (∀ k, i ≤ k → k < n → ¬ RowFails host k) ∨
    ∃ k, i ≤ k ∧ k < n ∧ RowFails host k ∧ ∀ j, k < j → j < n → host.approved j = false

theorem payloadRows_rc {limit : ℕ} {buffer : List UInt8} {ncols nrows i off : ℕ}
    {s : Stmt × BindContext} {rc : ℤ} {e : LoopEnd}
    (h : payloadRows host limit buffer ncols nrows i off s rc = some e) :
    (∃ k, i ≤ k ∧ k < i + nrows ∧ host.approved k = true ∧ e.rc = host.step k ∧
      ∀ j, k < j → j < i + nrows → host.approved j = false) ∨
    (e.rc = rc ∧ ∀ k, i ≤ k → k < i + nrows → host.approved k = false) := by
  induction nrows generalizing i off s rc e with
  | zero =>
    rw [payloadRows, Option.some.injEq] at h
    subst h
    exact .inr ⟨rfl, fun k hk hk' => by omega⟩
  | succ nrows ih =>
    rw [payloadRows] at h
    simp only [Option.bind_eq_bind, Option.bind_eq_some_iff, Option.some.injEq] at h
    rcases h with ⟨r, -, rest, hrest, rfl⟩
    rcases ih hrest with ⟨k, hik, hkn, hk⟩ | ⟨hrc, hnone⟩
    · exact .inl ⟨k, by omega, by omega, hk.1, hk.2.1, fun j hj hjn => hk.2.2 j hj (by omega)⟩
    · cases hi : host.approved i with
      | true =>
        rw [hi, if_pos rfl] at hrc
        exact .inl ⟨i, le_rfl, by omega, hi, hrc, fun j hj hjn => hnone j hj (by omega)⟩
      | false =>
        rw [hi] at hrc
        refine .inr ⟨hrc, fun k hk hkn => ?_⟩
        rcases Nat.eq_or_lt_of_le hk with rfl | hlt
        · exact hi
        · exact hnone k hlt (by omega)

/-- What an application promises of its approved rows: success, or a cursor that
moved, means that every one was applied, and a failed one is reported with the
cursor left alone. -/
def LosesNothing (nrows : ℕ) (cursor : CheckCursor) (r : ApplyResult) : Prop :=
  (0 ≤ r.rc ∨ r.cursor ≠ cursor → ∀ i < nrows, ¬ RowFails host i) ∧
    ((∃ i < nrows, RowFails host i) → r.error.isSome ∧ r.rc = -1 ∧ r.cursor = cursor)

theorem losesNothing_of_error {nrows : ℕ} {cursor : CheckCursor} {r : ApplyResult} (hrc : r.rc = -1)
    (he : r.error.isSome) (hc : r.cursor = cursor) : LosesNothing host nrows cursor r :=
  ⟨fun h => by rcases h with h | h <;> [omega; exact absurd hc h], fun _ => ⟨he, hrc, hc⟩⟩

/-- After a run whose code was read as success, no approved row failed exactly
when the last approved row's failure would have shown. -/
theorem lastFailureShows_of_ok {limit : ℕ} {buffer : List UInt8} {ncols nrows : ℕ}
    {s : Stmt × BindContext} {e : LoopEnd}
    (h : payloadRows host limit buffer ncols nrows 0 0 s SQLITE_OK = some e)
    (hok : e.rc = SQLITE_DONE ∨ e.rc = SQLITE_OK) :
    LastFailureShows host 0 nrows ↔ ∀ k < nrows, ¬ RowFails host k := by
  constructor
  · rintro (hall | ⟨k, -, hkn, hfail, hlast⟩)
    · exact fun k hk => hall k (Nat.zero_le k) hk
    · rcases payloadRows_rc host h with ⟨l, -, hln, hl, hrc, hafter⟩ | ⟨-, hnone⟩
      · have hkl : k = l := by
          rcases Nat.lt_trichotomy k l with hlt | heq | hgt
          · rw [hlast l hlt (by omega)] at hl
            cases hl
          · exact heq
          · have hk := hafter k hgt (by omega)
            rw [hfail.1] at hk
            cases hk
        subst hkl
        rcases hok with hok | hok
        · exact absurd (Subtype.ext (hrc.symm.trans hok)) hfail.2
        · exact absurd (hrc.symm.trans hok) (host.step k).property
      · have hk := hnone k (Nat.zero_le k) (by omega)
        rw [hfail.1] at hk
        cases hk
  · exact fun hall => .inl fun k _ hk => hall k hk

/-- After a run whose code was read as an error, the last approved row failed. -/
theorem lastFailureShows_of_error {limit : ℕ} {buffer : List UInt8} {ncols nrows : ℕ}
    {s : Stmt × BindContext} {e : LoopEnd}
    (h : payloadRows host limit buffer ncols nrows 0 0 s SQLITE_OK = some e)
    (herr : ¬ (e.rc = SQLITE_DONE ∨ e.rc = SQLITE_OK)) : LastFailureShows host 0 nrows := by
  rcases payloadRows_rc host h with ⟨k, hk, hkn, happ, hrc, hafter⟩ | ⟨hrc, -⟩
  · refine .inr ⟨k, hk, by omega, ⟨happ, fun hd => herr (.inl ?_)⟩, fun j hj hjn => hafter j hj (by omega)⟩
    rw [hrc, hd]
  · exact absurd (.inr hrc) herr

/-- The promise is kept exactly when the payload is turned away before its rows,
or no approved row fails, or the last approved row fails. -/
theorem cloudsyncPayloadApply_losesNothing_iff (recv : Receiver) (cursor : CheckCursor)
    (payload : List UInt8) (r : ApplyResult)
    (h : cloudsyncPayloadApply recv host cursor payload = some r) :
    LosesNothing host ((NetworkHeader.load recv.e payload).toHost recv.e).nrows cursor r ↔
      ((openPayload recv payload).isOk = true → LastFailureShows host 0
        ((NetworkHeader.load recv.e payload).toHost recv.e).nrows) := by
  rw [cloudsyncPayloadApply] at h
  cases hopen : openPayload recv payload with
  | error err =>
    simp only [hopen, Option.some.injEq] at h
    subst h
    exact iff_of_true (losesNothing_of_error host rfl rfl rfl) (fun h => by cases h)
  | ok p =>
    obtain ⟨header, buffer⟩ := p
    rw [← (openPayload_header hopen).1]
    simp only [hopen, Option.bind_eq_bind, Option.bind_eq_some_iff] at h
    rcases h with ⟨e, hloop, hr⟩
    by_cases hok : e.rc = SQLITE_DONE ∨ e.rc = SQLITE_OK
    · have hrc : (if e.rc = SQLITE_DONE then SQLITE_OK else e.rc) = SQLITE_OK := by
        rcases hok with hok | hok <;> simp [hok]
      simp only [hrc, ne_eq, not_true_eq_false, if_false, Option.some.injEq] at hr
      subst hr
      rw [lastFailureShows_of_ok host hloop hok]
      constructor
      · intro hpromise _ k hk hfail
        have herr := (hpromise.2 ⟨k, hk, hfail⟩).1
        cases herr
      · intro hall
        have hall' := hall rfl
        refine ⟨fun _ => hall', ?_⟩
        rintro ⟨k, hk, hfail⟩
        exact absurd hfail (hall' k hk)
    · have hrc : (if e.rc = SQLITE_DONE then SQLITE_OK else e.rc) ≠ SQLITE_OK := by
        split_ifs with hd
        · exact absurd (.inl hd) hok
        · exact fun ho => hok (.inr ho)
      simp only [hrc, ne_eq, not_false_eq_true, if_true, if_false, Option.some.injEq] at hr
      subst hr
      exact iff_of_true (losesNothing_of_error host rfl rfl rfl)
        (fun _ => lastFailureShows_of_error host hloop hok)

end

/-- The change of column `v` of table `t` with the key 1, at db version 5. -/
def changeRow (seq : UInt8) : List UInt8 :=
  [0x0B, 1, 0x74, 0x0C, 3, 1, 9, 1, 0x0B, 1, 0x76, 9, 10, 9, 1, 9, 5, 0x0C, 16] ++
    List.replicate 16 2 ++ [9, 1, 9, seq]

def twoRows : List UInt8 :=
  [0x43, 0x4C, 0x53, 0x59, 1, 0, 8, 12, 0, 0, 0, 0, 0, 9, 0, 0, 0, 2, 0, 0, 0, 0, 0, 0, 0, 0,
    0, 0, 0, 0, 0, 0] ++ changeRow 0 ++ changeRow 1

/-- The first of two rows fails and the application still succeeds and moves the cursor. -/
theorem cloudsyncPayloadApply_loses_first :
    ¬ ∀ (recv : Receiver) (host : Host) (cursor : CheckCursor) (payload : List UInt8)
      (r : ApplyResult), cloudsyncPayloadApply recv host cursor payload = some r →
      LosesNothing host ((NetworkHeader.load recv.e payload).toHost recv.e).nrows cursor r := by
  intro h
  have hrun : (cloudsyncPayloadApply plainReceiver (failsAt 0) ⟨none, none⟩ twoRows).map
      (fun r => (r.rc, r.cursor)) = some (2, ⟨some 5, some 1⟩) := by
    decide
  rcases Option.map_eq_some_iff.mp hrun with ⟨r, hr, hrc⟩
  have hpos : 0 ≤ r.rc := by
    rw [(Prod.mk.inj hrc).1]
    decide
  exact (h plainReceiver (failsAt 0) ⟨none, none⟩ twoRows r hr).1 (.inl hpos) 0 (by decide)
    ⟨by decide, by decide⟩

/-- With the failure in the last row the promise is kept. -/
theorem cloudsyncPayloadApply_keeps_last :
    ∃ r, cloudsyncPayloadApply plainReceiver (failsAt 1) ⟨none, none⟩ twoRows = some r ∧
      LosesNothing (failsAt 1) 2 ⟨none, none⟩ r := by
  have hsome : (cloudsyncPayloadApply plainReceiver (failsAt 1) ⟨none, none⟩ twoRows).isSome = true := by
    decide
  rcases Option.isSome_iff_exists.mp hsome with ⟨r, hr⟩
  refine ⟨r, hr, (cloudsyncPayloadApply_losesNothing_iff (failsAt 1) plainReceiver _ twoRows r hr).mpr
    fun _ => .inr ⟨1, by decide, by decide, ⟨by decide, by decide⟩, fun j hj hjn => ?_⟩⟩
  have hn : ((NetworkHeader.load plainReceiver.e twoRows).toHost plainReceiver.e).nrows = 2 := by
    decide
  omega

end SqliteSync.Payload
