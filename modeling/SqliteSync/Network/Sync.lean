import SqliteSync.Network.StoredCursor
import SqliteSync.Network.Transport

/-!
# Checks that are tried again

A check asks the server where the changes above the stored cursor are, and downloads what
is there. A sync checks until a check brings rows, and tells what the last one came to.
-/
namespace SqliteSync.Network
open Library Store Payload

/-- What a check meets: the surroundings of an application, the memory, and what the
library makes of the two requests by their URLs. -/
structure Try where
  applier : Applier
  alloc : Allocator
  check : CString → Curl
  download : CString → Curl

section
variable {n : ℕ} {schema : Fin n → TableContext} (r : Receiver) (endpoint : CString)

/-- `cloudsync_network_check_internal` in an initialised context; `none` is an access
outside what was received. -/
def cloudsyncNetworkCheckInternal (x : Try) (cursor : CheckCursor) (y : Catalog schema) :
    Option (ℤ × SqlResult × CheckCursor × Catalog schema) :=
  let dbVersion := settingsGetInt cursor.dbversion
  if dbVersion < 0 then some (-1, .error (ascii "Unable to retrieve db_version."), cursor, y)
  else
    let seq := settingsGetInt cursor.seq
    if seq < 0 then some (-1, .error (ascii "Unable to retrieve seq."), cursor, y)
    else do
      let result ← networkReceiveBuffer x.alloc true (x.check (checkEndpoint endpoint dbVersion seq))
      if result.code = .CLOUDSYNC_NETWORK_BUFFER then
        networkDownloadChanges x.applier x.alloc r cursor y
          (x.download (stringAt (result.buffer.getD [])))
      else (networkSetSqliteResult result).map fun x => (x.1, x.2, cursor, y)

/-- The loop of `cloudsync_network_sync` from try `i` on, with so many tries left. -/
def syncTries (tries : ℕ → Try) :
    ℕ → ℕ → ℤ × SqlResult × CheckCursor × Catalog schema →
      Option (ℤ × SqlResult × CheckCursor × Catalog schema)
  | 0, _, z => some z
  | left + 1, i, (_, _, cursor, y) => do
    let z ← cloudsyncNetworkCheckInternal r endpoint (tries i) cursor y
    if z.1 > 0 then some z else syncTries tries left (i + 1) z

/-- `cloudsync_network_sync` once its changes are sent; how long it sleeps is not followed. -/
def cloudsyncNetworkSync (maxRetries : ℤ) (tries : ℕ → Try) (cursor : CheckCursor)
    (y : Catalog schema) : Option (ℤ × SqlResult × CheckCursor × Catalog schema) :=
  (syncTries r endpoint tries maxRetries.toNat 0 (0, .int 0, cursor, y)).map fun z =>
    (z.1, if z.1 ≥ 0 then .int z.1 else z.2.1, z.2.2)

end

/-! ## A check gets through, or nothing happens -/

/-- The request is answered with a body. -/
structure Curl.Answers (c : Curl) : Prop where
  complete : c.Complete
  status : c.responseCode < 400
  body : c.body ≠ []

def Curl.Ends (c : Curl) : Prop :=
  c.Complete → ¬ c.responseCode < 400 → c.body ≠ [] → 0 ∈ c.body

namespace Try
variable (x : Try) (endpoint : CString) (cursor : CheckCursor)

def asked : Curl :=
  x.check (checkEndpoint endpoint (settingsGetInt cursor.dbversion) (settingsGetInt cursor.seq))

def found : Curl := x.download (stringAt (x.asked endpoint cursor).body)

/-- The cursor can be read, and both requests are answered. -/
structure GetsThrough : Prop where
  dbVersion : 0 ≤ settingsGetInt cursor.dbversion
  seq : 0 ≤ settingsGetInt cursor.seq
  asked : (x.asked endpoint cursor).Answers
  found : (x.found endpoint cursor).Answers

end Try

theorem networkReceiveBuffer_answers_iff {c : Curl} {m : Allocator} (hm : ∀ k ≤ c.room, m.ok k = true)
    {zeroTerminated : Bool} {result : NetworkResult}
    (h : networkReceiveBuffer m zeroTerminated c = some result) :
    result.code = .CLOUDSYNC_NETWORK_BUFFER ↔ c.Answers := by
  rcases networkReceiveBuffer_body c m zeroTerminated with ⟨result', hresult, hbody, hall⟩
  rw [h, Option.some_inj] at hresult
  subst hresult
  constructor
  · intro hcode
    rcases hbody hcode with ⟨hcomplete, hstatus, hne, -⟩
    exact ⟨hcomplete, hstatus, hne⟩
  · intro hc
    exact hall hm hc.complete hc.status hc.body

theorem networkSetSqliteResult_nonpos {result : NetworkResult}
    (hcode : result.code ≠ .CLOUDSYNC_NETWORK_BUFFER) {x : ℤ × SqlResult}
    (h : networkSetSqliteResult result = some x) : x.1 ≤ 0 := by
  rw [networkSetSqliteResult] at h
  split at h
  · cases h
    exact le_rfl
  · cases h
    norm_num
  · rcases Option.map_eq_some_iff.mp h with ⟨text, -, rfl⟩
    norm_num
  · rename_i hbuffer
    exact absurd hbuffer hcode
section
variable {n : ℕ} {schema : Fin n → TableContext} {r : Receiver} {endpoint : CString}
  {cursor : CheckCursor} {y : Catalog schema}

/-- A download that is not answered changes nothing. -/
theorem networkDownloadChanges_unanswered {a : Applier} {m : Allocator} {c : Curl}
    (hc : ¬ c.Answers) (hends : c.Ends) :
    ∃ rc text, rc ≤ 0 ∧ networkDownloadChanges a m r cursor y c = some (rc, text, cursor, y) := by
  rcases networkReceiveBuffer_body c m false with ⟨result, hresult, hbody, -⟩
  have hcode : result.code ≠ .CLOUDSYNC_NETWORK_BUFFER := by
    intro hcode
    rcases hbody hcode with ⟨hcomplete, hstatus, hne, -⟩
    exact hc ⟨hcomplete, hstatus, hne⟩
  have hsafe : networkSetSqliteResult result ≠ none := by
    rcases networkReceiveBuffer_cases c m false with
      ⟨result', hresult', ⟨hcomplete, b, hholds, hzero, hcases⟩ | ⟨herror, hbuffer, -⟩⟩
    · rw [hresult, Option.some_inj] at hresult'
      subst hresult'
      by_cases hstatus : c.responseCode < 400
      · rw [if_pos hstatus] at hcases
        rw [hcases] at hcode ⊢
        split_ifs at hcode ⊢
        · exact absurd rfl hcode
        · exact Option.some_ne_none _
      · rw [if_neg hstatus] at hcases
        rw [hcases, networkSetSqliteResult_ne_none_iff rfl]
        intro memory hmemory
        cases hb : b.buffer with
        | none =>
          rw [hb] at hmemory
          exact nul_mem_errorCopy memory hmemory
        | some old =>
          have hne := hholds.allocated hzero (by rw [hb]; rfl)
          have hnul := hends hcomplete hstatus hne
          rw [← hholds.bytes, NetworkBuffer.memory, hb, Option.getD_some] at hnul
          rw [hb] at hmemory
          cases hmemory
          exact List.mem_of_mem_take hnul
    · rw [hresult, Option.some_inj] at hresult'
      subst hresult'
      rw [networkSetSqliteResult_ne_none_iff herror]
      intro memory hmemory
      rcases hbuffer with hnone | hcopy
      · rw [hnone] at hmemory
        cases hmemory
      · exact nul_mem_errorCopy memory (hcopy ▸ hmemory)
  rcases Option.ne_none_iff_exists'.mp hsafe with ⟨x, hx⟩
  refine ⟨x.1, x.2, networkSetSqliteResult_nonpos hcode hx, ?_⟩
  rw [networkDownloadChanges, hresult, Option.bind_eq_bind, Option.bind_some, if_neg hcode, hx]
  rfl

theorem stringAt_received {c : Curl} {m : Allocator} {result : NetworkResult}
    (h : networkReceiveBuffer m true c = some result)
    (hcode : result.code = .CLOUDSYNC_NETWORK_BUFFER) :
    stringAt (result.buffer.getD []) = stringAt c.body := by
  rcases networkReceiveBuffer_cases c m true with
    ⟨result', hresult, ⟨-, b, hholds, hzero, hcases⟩ | ⟨herror, -, -⟩⟩
  · rw [h, Option.some_inj] at hresult
    subst hresult
    by_cases hstatus : c.responseCode < 400
    · rw [if_pos hstatus] at hcases
      rw [hcases] at hcode ⊢
      have hsome : b.buffer.isSome ∧ b.bused ≠ 0 := by
        by_contra hempty
        rw [if_neg hempty] at hcode
        cases hcode
      have hnul := hholds.terminated hzero hsome.1
      rw [NetworkBuffer.memory] at hnul
      rw [← List.take_append_drop b.bused (b.buffer.getD []), List.drop_eq_getElem_cons
        (List.getElem?_eq_some_iff.mp hnul).1, (List.getElem?_eq_some_iff.mp hnul).2,
        stringAt_append_nul, hholds.buffer.2]
    · rw [if_neg hstatus] at hcases
      rw [hcases] at hcode
      cases hcode
  · rw [h, Option.some_inj] at hresult
    subst hresult
    rw [herror] at hcode
    cases hcode

theorem cloudsyncNetworkCheckInternal_of_getsThrough {x : Try} (h : x.GetsThrough endpoint cursor)
    (hm : ∀ k, x.alloc.ok k = true) (hsize : headerSize ≤ (x.found endpoint cursor).body.length)
    (hint : (x.found endpoint cursor).body.length < 2 ^ 31) :
    cloudsyncNetworkCheckInternal r endpoint x cursor y =
      (x.applier.payloadApply r cursor y (x.found endpoint cursor).body).map fun z =>
        (z.1.rc, .applied z.1, z.1.cursor, z.2) := by
  rcases networkReceiveBuffer_body (x.asked endpoint cursor) x.alloc true with ⟨result, hresult, -⟩
  have hcode := (networkReceiveBuffer_answers_iff (fun k _ => hm k) hresult).mpr h.asked
  have hurl := stringAt_received hresult hcode
  rw [Try.asked] at hresult hurl
  rw [cloudsyncNetworkCheckInternal, if_neg h.dbVersion.not_gt, if_neg h.seq.not_gt, hresult,
    Option.bind_eq_bind, Option.bind_some, if_pos hcode, hurl]
  exact networkDownloadChanges_eq x.applier r cursor y h.found.complete h.found.status hsize hint
    fun k _ => hm k

theorem cloudsyncNetworkCheckInternal_of_not_getsThrough {x : Try}
    (h : ¬ x.GetsThrough endpoint cursor) (hm : ∀ k, x.alloc.ok k = true)
    (hends : (x.found endpoint cursor).Ends) :
    ∃ rc text, rc ≤ 0 ∧
      cloudsyncNetworkCheckInternal r endpoint x cursor y = some (rc, text, cursor, y) := by
  rw [cloudsyncNetworkCheckInternal]
  by_cases hdbVersion : settingsGetInt cursor.dbversion < 0
  · rw [if_pos hdbVersion]
    exact ⟨-1, _, by norm_num, rfl⟩
  · rw [if_neg hdbVersion]
    by_cases hseq : settingsGetInt cursor.seq < 0
    · rw [if_pos hseq]
      exact ⟨-1, _, by norm_num, rfl⟩
    · rw [if_neg hseq, ← Try.asked]
      rcases networkReceiveBuffer_body (x.asked endpoint cursor) x.alloc true with
        ⟨result, hresult, -⟩
      rw [hresult, Option.bind_eq_bind, Option.bind_some]
      by_cases hcode : result.code = .CLOUDSYNC_NETWORK_BUFFER
      · have hasked := (networkReceiveBuffer_answers_iff (fun k _ => hm k) hresult).mp hcode
        rw [if_pos hcode, stringAt_received hresult hcode]
        apply networkDownloadChanges_unanswered _ hends
        intro hfound
        exact h ⟨not_lt.mp hdbVersion, not_lt.mp hseq, hasked, hfound⟩
      · rw [if_neg hcode]
        rcases Option.ne_none_iff_exists'.mp (networkSetSqliteResult_ne_none hresult) with ⟨z, hz⟩
        rw [hz]
        exact ⟨z.1, z.2, networkSetSqliteResult_nonpos hcode hz, rfl⟩

/-- From this state some of the tries bring rows, as `P` has it, and the others change
nothing. -/
structure Outcomes (r : Receiver) (endpoint : CString) (tries : ℕ → Try) (cursor : CheckCursor)
    (y : Catalog schema) (brings : ℕ → Prop) (P : ℤ → CheckCursor → Catalog schema → Prop) :
    Prop where
  rows : ∀ i, brings i → ∃ rc text cursor' y', 0 < rc ∧ P rc cursor' y' ∧
    cloudsyncNetworkCheckInternal r endpoint (tries i) cursor y = some (rc, text, cursor', y')
  none : ∀ i, ¬ brings i → ∃ rc text, rc ≤ 0 ∧
    cloudsyncNetworkCheckInternal r endpoint (tries i) cursor y = some (rc, text, cursor, y)

section
variable {tries : ℕ → Try} {brings : ℕ → Prop} {P : ℤ → CheckCursor → Catalog schema → Prop}

/-- What the first check that brings rows leaves is left; where none does, nothing is. -/
theorem syncTries_cases (h : Outcomes r endpoint tries cursor y brings P) (left i : ℕ) {rc : ℤ}
    (hrc : rc ≤ 0) (text : SqlResult) :
    ∃ rc' text' cursor' y',
      syncTries r endpoint tries left i (rc, text, cursor, y) = some (rc', text', cursor', y') ∧
        ((∃ j, i ≤ j ∧ j < i + left ∧ brings j) ∧ 0 < rc' ∧ P rc' cursor' y' ∨
          (¬ ∃ j, i ≤ j ∧ j < i + left ∧ brings j) ∧ rc' ≤ 0 ∧ cursor' = cursor ∧ y' = y) := by
  induction left generalizing i rc text with
  | zero =>
    refine ⟨rc, text, cursor, y, rfl, .inr ⟨?_, hrc, rfl, rfl⟩⟩
    rintro ⟨j, hle, hlt, -⟩
    omega
  | succ left ih =>
    rw [syncTries]
    by_cases hi : brings i
    · rcases h.rows i hi with ⟨rc', text', cursor', y', hpos, hP, hz⟩
      rw [hz, Option.bind_eq_bind, Option.bind_some, if_pos hpos]
      exact ⟨rc', text', cursor', y', rfl, .inl ⟨⟨i, le_rfl, by omega, hi⟩, hpos, hP⟩⟩
    · rcases h.none i hi with ⟨rc', text', hrc', hz⟩
      rw [hz, Option.bind_eq_bind, Option.bind_some, if_neg hrc'.not_gt]
      -- the first try brings nothing, so one that does is a later one
      have hlater : (∃ j, i ≤ j ∧ j < i + (left + 1) ∧ brings j) ↔
          ∃ j, i + 1 ≤ j ∧ j < i + 1 + left ∧ brings j := by
        constructor
        · rintro ⟨j, hle, hlt, hj⟩
          have hne : j ≠ i := fun he => hi (he ▸ hj)
          exact ⟨j, by omega, by omega, hj⟩
        · rintro ⟨j, hle, hlt, hj⟩
          exact ⟨j, by omega, by omega, hj⟩
      rw [hlater]
      exact ih (i + 1) hrc' text'

theorem cloudsyncNetworkSync_cases (h : Outcomes r endpoint tries cursor y brings P)
    (maxRetries : ℤ) :
    ∃ rc text cursor' y',
      cloudsyncNetworkSync r endpoint maxRetries tries cursor y = some (rc, text, cursor', y') ∧
        ((∃ i : ℕ, i < maxRetries ∧ brings i) ∧ 0 < rc ∧ P rc cursor' y' ∨
          (¬ ∃ i : ℕ, i < maxRetries ∧ brings i) ∧ rc ≤ 0 ∧ cursor' = cursor ∧ y' = y) := by
  have hfirst : (∃ i : ℕ, i < maxRetries ∧ brings i) ↔
      ∃ j, 0 ≤ j ∧ j < 0 + maxRetries.toNat ∧ brings j := by
    constructor
    · rintro ⟨i, hlt, hi⟩
      exact ⟨i, by omega, by omega, hi⟩
    · rintro ⟨i, -, hlt, hi⟩
      exact ⟨i, by omega, hi⟩
  rcases syncTries_cases h maxRetries.toNat 0 le_rfl (.int 0) with
    ⟨rc, text, cursor', y', hrun, hcases⟩
  rw [cloudsyncNetworkSync, hrun, hfirst]
  exact ⟨rc, _, cursor', y', rfl, hcases⟩

end

end
end SqliteSync.Network
