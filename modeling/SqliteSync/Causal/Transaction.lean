import SqliteSync.Library.Run
import SqliteSync.Causal.Restamped

/-!
# Transactions of one connection

A connection writes rows and merges changes in a transaction, which it commits
or rolls back. The hooks of the two keep the version clock in step with what is
stored, so a transaction stamps what it writes with versions above those stored
before it, and the sequence numbers start over.
-/
namespace SqliteSync.Store
open Library Clock

variable {n : ℕ} {schema : Fin n → TableContext}

/-- A replica with its open transaction: what a rollback goes back to, and
whether the transaction has merged a change. -/
structure Transaction (schema : Fin n → TableContext) where
  live : Replica schema
  saved : Replica schema
  merged : Bool

def Replica.Current (r : Replica schema) : Prop :=
  r.data.dbVersion ≠ CLOUDSYNC_VALUE_NOTSET ∧ r.dataVersion = r.data.dataVersion

/-- No metadata row at the version of the next local write has one of the
sequence numbers the write is going to take. -/
def Replica.NumbersUnused (r : Replica schema) (i : Fin n) (c : RowChange (schema i)) : Prop :=
  ∀ q m, r.metaAt q = some m → m.dbVersion = (r.dbVersionNext CLOUDSYNC_VALUE_NOTSET).1 →
    m.seq < r.data.seq ∨ r.data.seq + r.numbers i c ≤ m.seq

theorem Replica.pending_le_next (r : Replica schema) (mv : ℤ) :
    r.data.pendingDbVersion ≤ (r.dbVersionNext mv).1 := by
  have hle := pendingDbVersion_le_nextVersion r.checked mv
  rwa [Replica.checked, dbVersionCheckUptodate_pendingDbVersion] at hle

namespace Transaction

inductive Event (schema : Fin n → TableContext) where
  | write (i : Fin n) (c : RowChange (schema i))
  | merge (c : Change n)
  | commit
  | rollback

/-- An empty database, and no transaction yet. -/
def opened (schema : Fin n → TableContext) (site : SiteId) : Transaction schema :=
  ⟨Replica.empty schema site, Replica.empty schema site, false⟩

def step (s : Transaction schema) : Event schema → Option (Transaction schema)
  | .write i c => (applyRowChange s.live i c).map fun r => { s with live := r }
  | .merge c => some { s with live := (cloudsyncMergeInsert noFaults s.live c).2, merged := true }
  | .commit =>
    let r := { s.live with data := cloudsyncCommitHook s.live.data }
    some ⟨r, r, false⟩
  | .rollback =>
    let r := { s.live with
      data := cloudsyncRollbackHook s.live.data
      siteIds := s.saved.siteIds
      table := s.saved.table }
    some ⟨r, s.saved, false⟩

/-- The steps whose stamps are apart from what is stored: a key that changes
takes one column at most with it, a local write after a merge takes numbers that
the transaction has not stored, and a merge stamps nothing twice. -/
def Allowed (s : Transaction schema) : Event schema → Prop
  | .write i c => s.live.Records i c → HasSuccessor s.live.checked ∧ s.live.MovesOne i c ∧
      (s.merged = true → s.live.NumbersUnused i c)
  | .merge c => HasSuccessor s.live.checked ∧ s.live.MergesApart c
  | .commit | .rollback => True

/-- What the transactions keep true of the stamps and of the clock. -/
structure Sound (s : Transaction schema) : Prop where
  distinct : Distinct MetaRow.stamp s.live.metaAt
  savedDistinct : Distinct MetaRow.stamp s.saved.metaAt
  nonneg : ∀ q m, s.live.metaAt q = some m → 0 ≤ m.dbVersion
  savedNonneg : ∀ q m, s.saved.metaAt q = some m → 0 ≤ m.dbVersion
  stale : ¬ s.live.Current → s.live.metaAt = s.saved.metaAt ∧
    (s.live.dataVersion = s.live.data.dataVersion →
      s.live.data.pendingDbVersion = CLOUDSYNC_VALUE_NOTSET)
  version : s.live.Current → 0 ≤ s.live.data.dbVersion
  pending : s.live.Current → s.live.data.pendingDbVersion = CLOUDSYNC_VALUE_NOTSET ∨
    s.live.data.dbVersion < s.live.data.pendingDbVersion
  saved_le : s.live.Current → ∀ q m, s.saved.metaAt q = some m → m.dbVersion ≤ s.live.data.dbVersion
  live_le : s.live.Current → ∀ q m, s.live.metaAt q = some m →
    m.dbVersion ≤ s.live.data.dbVersion ∨ m.dbVersion ≤ s.live.data.pendingDbVersion ∧
      (s.merged = false → m.dbVersion = s.live.data.pendingDbVersion → m.seq < s.live.data.seq)

theorem sound_opened (site : SiteId) : (opened schema site).Sound := by
  have hcached : (opened schema site).live.dataVersion ≠ (opened schema site).live.data.dataVersion :=
    Int.zero_ne_one.symm
  have hcurrent : ¬ (opened schema site).live.Current := fun h => hcached h.2
  refine ⟨.empty _, .empty _, ?_, ?_, fun _ => ⟨rfl, fun h => absurd h hcached⟩,
    fun h => absurd h hcurrent, fun h => absurd h hcurrent, fun h => absurd h hcurrent,
    fun h => absurd h hcurrent⟩
  · rintro q m ⟨⟩
  · rintro q m ⟨⟩

theorem mem_stored {r : Replica schema} {v : ℤ} :
    v ∈ r.view.stored ↔ ∃ q m, r.metaAt q = some m ∧ m.dbVersion = v := by
  simp only [Replica.view, Table.dbVersions, List.mem_flatMap, List.mem_finRange, true_and,
    List.mem_map]
  constructor
  · rintro ⟨i, ⟨k, m⟩, hm, hv⟩
    exact ⟨(i, k), m, (Keyed.get_eq_some_iff _ _ _).mpr hm, hv⟩
  · rintro ⟨⟨i, k⟩, m, hm, hv⟩
    exact ⟨i, (k, m), (Keyed.get_eq_some_iff _ _ _).mp hm, hv⟩

section
variable {s : Transaction schema}

theorem Sound.checked (hs : s.Sound) : 0 ≤ s.live.checked.dbVersion ∧
    (∀ q m, s.saved.metaAt q = some m → m.dbVersion ≤ s.live.checked.dbVersion) ∧
    ∀ q m, s.live.metaAt q = some m → m.dbVersion ≤ s.live.checked.dbVersion ∨
      m.dbVersion ≤ s.live.data.pendingDbVersion ∧
        (s.merged = false → m.dbVersion = s.live.data.pendingDbVersion →
          m.seq < s.live.data.seq) := by
  by_cases hcurrent : s.live.Current
  · have hcheck : s.live.checked = s.live.data := if_pos hcurrent
    rw [hcheck]
    exact ⟨hs.version hcurrent, hs.saved_le hcurrent, hs.live_le hcurrent⟩
  · have hcheck : s.live.checked.dbVersion = s.live.view.maxDbVersion :=
      congrArg Context.dbVersion (if_neg hcurrent)
    have hlive : ∀ q m, s.live.metaAt q = some m → m.dbVersion ≤ s.live.view.maxDbVersion :=
      fun q m hm => le_maxDbVersion s.live.view (mem_stored.mpr ⟨q, m, hm, rfl⟩)
    rw [hcheck]
    refine ⟨?_, ?_, fun q m hm => .inl (hlive q m hm)⟩
    · by_cases hempty : s.live.view.stored = []
      · rw [DbView.maxDbVersion, hempty]
        exact le_rfl
      · rcases mem_stored.mp (maxDbVersion_mem s.live.view hempty) with ⟨q, m, hm, hv⟩
        exact hv ▸ hs.nonneg q m hm
    · rw [← (hs.stale hcurrent).1]
      exact hlive

/-- A step that makes no request and writes no metadata. -/
theorem Sound.of_unasked (hs : s.Sound) {r : Replica schema} {merged : Bool}
    (hmeta : r.metaAt = s.live.metaAt) (hdb : r.data.dbVersion = s.live.data.dbVersion)
    (hpending : r.data.pendingDbVersion = s.live.data.pendingDbVersion)
    (hcached : r.data.dataVersion = s.live.data.dataVersion) (hseq : r.data.seq = s.live.data.seq)
    (hdv : r.dataVersion = s.live.dataVersion) (hmerged : merged = false → s.merged = false) :
    Sound ⟨r, s.saved, merged⟩ := by
  have hcurrent : r.Current ↔ s.live.Current := by
    rw [Replica.Current, Replica.Current, hdb, hcached, hdv]
  constructor
  · exact hmeta ▸ hs.distinct
  · exact hs.savedDistinct
  · exact hmeta ▸ hs.nonneg
  · exact hs.savedNonneg
  · rw [hcurrent, hmeta, hdv, hcached, hpending]
    exact hs.stale
  · rw [hcurrent, hdb]
    exact hs.version
  · rw [hcurrent, hdb, hpending]
    exact hs.pending
  · rw [hcurrent, hdb]
    exact hs.saved_le
  · rw [hcurrent, hmeta, hdb, hpending, hseq]
    intro hc q m hm
    exact (hs.live_le hc q m hm).imp_right fun h => ⟨h.1, fun hno => h.2 (hmerged hno)⟩

theorem Sound.of_asked (hs : s.Sound) {r : Replica schema} {merged : Bool} {mv : ℤ}
    (hsucc : HasSuccessor s.live.checked) (hdistinct : Distinct MetaRow.stamp r.metaAt)
    (hrows : ∀ q m, r.metaAt q = some m →
      m.dbVersion = (s.live.dbVersionNext mv).1 ∨ s.live.metaAt q = some m)
    (hdb : r.data.dbVersion = s.live.checked.dbVersion)
    (hpending : r.data.pendingDbVersion = (s.live.dbVersionNext mv).1)
    (hcached : r.data.dataVersion = s.live.dataVersion) (hdv : r.dataVersion = s.live.dataVersion)
    (hseq : merged = false → ∀ q m, r.metaAt q = some m →
      m.dbVersion = (s.live.dbVersionNext mv).1 → m.seq < r.data.seq) :
    Sound ⟨r, s.saved, merged⟩ := by
  rcases hs.checked with ⟨hzero, hsaved, hlive⟩
  have hlt : s.live.checked.dbVersion < (s.live.dbVersionNext mv).1 :=
    lt_nextVersion s.live.checked mv hsucc
  have hle := s.live.pending_le_next mv
  have hcurrent : r.Current := by
    refine ⟨?_, hdv.trans hcached.symm⟩
    rw [hdb, CLOUDSYNC_VALUE_NOTSET]
    omega
  constructor
  · exact hdistinct
  · exact hs.savedDistinct
  · intro q m hm
    rcases hrows q m hm with hv | hold
    · omega
    · exact hs.nonneg q m hold
  · exact hs.savedNonneg
  · exact fun hstale => absurd hcurrent hstale
  · exact fun _ => hdb ▸ hzero
  · exact fun _ => .inr (by rw [hdb, hpending]; exact hlt)
  · exact fun _ => hdb ▸ hsaved
  · intro _ q m hm
    rw [hdb, hpending]
    refine .inr ⟨?_, fun hno hv => hseq hno q m hm hv⟩
    rcases hrows q m hm with hv | hold
    · exact hv.le
    · rcases hlive q m hold with hbelow | hbelow
      · omega
      · exact hbelow.1.trans hle

theorem Sound.write (hs : s.Sound) {i : Fin n} {c : RowChange (schema i)} {r : Replica schema}
    (hallowed : s.Allowed (.write i c)) (h : applyRowChange s.live i c = some r) :
    Sound ⟨r, s.saved, s.merged⟩ := by
  by_cases hon : s.live.Records i c
  · rcases hallowed hon with ⟨hsucc, hone, hunused⟩
    -- rows at the version of the write are of this transaction, so their numbers are taken
    have hlocal : s.merged = false → ∀ q m, s.live.metaAt q = some m →
        m.dbVersion = (s.live.dbVersionNext CLOUDSYNC_VALUE_NOTSET).1 →
          m.seq < s.live.data.seq := by
      intro hno q m hm hv
      have hlt : s.live.checked.dbVersion < (s.live.dbVersionNext CLOUDSYNC_VALUE_NOTSET).1 :=
        lt_nextVersion s.live.checked CLOUDSYNC_VALUE_NOTSET hsucc
      have hle := s.live.pending_le_next CLOUDSYNC_VALUE_NOTSET
      rcases hs.checked.2.2 q m hm with hbelow | ⟨hbelow, hseq⟩
      · omega
      · exact hseq hno (by omega)
    have hrecorded : ∀ limit, s.live.data.seq + s.live.numbers i c ≤ limit →
        (s.merged = true → limit = s.live.data.seq + s.live.numbers i c) →
          Recorded (s.live.dbVersionNext CLOUDSYNC_VALUE_NOTSET).2 r
            (s.live.dbVersionNext CLOUDSYNC_VALUE_NOTSET).1 limit := by
      intro limit hlimit heq
      refine ((applyRowChange_recorded h hs.distinct (fun _ => hone) (fun _ => ?_)
        hlimit).resolve_left fun hoff => hoff.1 hon).2
      cases hmerged : s.merged with
      | true =>
        rw [heq hmerged]
        exact hunused hmerged
      | false => exact fun q m hm hv => .inl (hlocal hmerged q m hm hv)
    have hrec := hrecorded _ le_rfl fun _ => rfl
    have hdata := hrec.data
    refine hs.of_asked hsucc hrec.distinct hrec.rows ?_ ?_ ?_ hrec.dataVersion ?_
    · rw [hdata]
      rfl
    · rw [hdata]
      rfl
    · rw [hdata]
      exact dbVersionCheckUptodate_dataVersion s.live.view s.live.data
    · intro hno q m hm hv
      have hfree := (hrecorded (max (s.live.data.seq + s.live.numbers i c) (m.seq + 1))
        (le_max_left _ _) (by simp [hno])).free q m hm hv
      omega
  · have hoff := (applyRowChange_recorded h hs.distinct (fun hyes => absurd hyes hon)
      (fun hyes => absurd hyes hon) le_rfl).resolve_right fun hyes => hon hyes.1
    rcases hoff with ⟨_, hmeta, hdata, hdv⟩
    exact hs.of_unasked hmeta (by rw [hdata]) (by rw [hdata]) (by rw [hdata]) (by rw [hdata]) hdv id

theorem Sound.merge (hs : s.Sound) {c : Change n} (hallowed : s.Allowed (.merge c)) :
    Sound ⟨(cloudsyncMergeInsert noFaults s.live c).2, s.saved, true⟩ := by
  have hset : s.live.checked.dbVersion ≠ CLOUDSYNC_VALUE_NOTSET := by
    have hzero := hs.checked.1
    rw [CLOUDSYNC_VALUE_NOTSET]
    omega
  have h := cloudsyncMergeInsert_restamped hset hs.distinct hallowed.2
  rcases h.merging.clock with hu | ha
  · exact hs.of_unasked hu.metaAt hu.dbVersion hu.pending hu.cached h.merging.seq
      h.merging.dataVersion (by simp)
  · exact hs.of_asked hallowed.1 h.distinct h.rows ha.dbVersion ha.pending ha.cached
      h.merging.dataVersion (by simp)

theorem Sound.commit (hs : s.Sound) {r : Replica schema}
    (hr : r = { s.live with data := cloudsyncCommitHook s.live.data }) : Sound ⟨r, r, false⟩ := by
  have hmeta : r.metaAt = s.live.metaAt := by rw [hr]; rfl
  have hpending : r.data.pendingDbVersion = CLOUDSYNC_VALUE_NOTSET := by rw [hr]; rfl
  have hdb : r.data.dbVersion = s.live.data.pendingDbVersion := by rw [hr]; rfl
  have hcached : r.data.dataVersion = s.live.data.dataVersion := by rw [hr]; rfl
  have hdv : r.dataVersion = s.live.dataVersion := by rw [hr]
  -- a version that is set was pending in this transaction
  have hlive : r.Current → s.live.Current ∧ s.live.data.dbVersion < s.live.data.pendingDbVersion := by
    rintro ⟨hset, hlook⟩
    rw [hdb] at hset
    rw [hdv, hcached] at hlook
    have hcurrent : s.live.Current := by
      by_contra hstale
      exact hset ((hs.stale hstale).2 hlook)
    exact ⟨hcurrent, (hs.pending hcurrent).resolve_left hset⟩
  have hle : r.Current → ∀ q m, r.metaAt q = some m → m.dbVersion ≤ r.data.dbVersion := by
    intro hcurrent q m hm
    rcases hlive hcurrent with ⟨hcurrent, hlt⟩
    rw [hmeta] at hm
    rw [hdb]
    rcases hs.live_le hcurrent q m hm with hle | hle
    · exact hle.trans hlt.le
    · exact hle.1
  constructor
  · exact hmeta ▸ hs.distinct
  · exact hmeta ▸ hs.distinct
  · exact hmeta ▸ hs.nonneg
  · exact hmeta ▸ hs.nonneg
  · exact fun _ => ⟨rfl, fun _ => hpending⟩
  · intro hcurrent
    have hzero := hs.version (hlive hcurrent).1
    have hlt := (hlive hcurrent).2
    dsimp only
    omega
  · exact fun _ => .inl hpending
  · exact hle
  · exact fun hcurrent q m hm => .inl (hle hcurrent q m hm)

/-- After a rollback nothing is pending, and the cached version is that of what was stored. -/
theorem Sound.rollback (hs : s.Sound) {r : Replica schema}
    (hr : r = { s.live with
      data := cloudsyncRollbackHook s.live.data
      siteIds := s.saved.siteIds
      table := s.saved.table }) : Sound ⟨r, s.saved, false⟩ := by
  have hmeta : r.metaAt = s.saved.metaAt := by rw [hr]; rfl
  have hpending : r.data.pendingDbVersion = CLOUDSYNC_VALUE_NOTSET := by rw [hr]; rfl
  have hdb : r.data.dbVersion = s.live.data.dbVersion := by rw [hr]; rfl
  have hcurrent : r.Current ↔ s.live.Current := by rw [hr]; rfl
  have hle : r.Current → ∀ q m, s.saved.metaAt q = some m → m.dbVersion ≤ r.data.dbVersion := by
    rw [hcurrent, hdb]
    exact hs.saved_le
  constructor
  · exact hmeta ▸ hs.savedDistinct
  · exact hs.savedDistinct
  · exact hmeta ▸ hs.savedNonneg
  · exact hs.savedNonneg
  · exact fun _ => ⟨hmeta, fun _ => hpending⟩
  · rw [hcurrent, hdb]
    exact hs.version
  · exact fun _ => .inl hpending
  · exact hle
  · exact fun hc q m hm => .inl (hle hc q m (hmeta ▸ hm))

theorem sound_of_reachable
    (h : Reachable step (fun s => ∃ site, s = opened schema site) Allowed s) : s.Sound := by
  refine h.invariant (I := Sound) ?_ ?_
  · rintro s ⟨site, rfl⟩
    exact sound_opened site
  · intro s e t hs hallowed ht
    cases e with
    | write i c =>
      rcases Option.map_eq_some_iff.mp ht with ⟨r, hr, rfl⟩
      exact hs.write hallowed hr
    | merge c =>
      cases ht
      exact hs.merge hallowed
    | commit =>
      cases ht
      exact hs.commit rfl
    | rollback =>
      cases ht
      exact hs.rollback rfl

end
end Transaction
end SqliteSync.Store
