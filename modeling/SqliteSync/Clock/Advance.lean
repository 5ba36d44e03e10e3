import SqliteSync.Library.Run
import SqliteSync.Clock.Context

/-!
# The version clock over every interleaving

Connections to one database, each with its own context, take turns at writing.
A transaction that asked for a version commits the largest one it was given; a
connection that never asked commits whatever its pending version holds, which
is the zero it was allocated with until its first commit or rollback.
-/
namespace SqliteSync.Clock
open Library

/-- A connection: its context and the answer of its `PRAGMA data_version`. -/
structure Connection where
  ctx : Context
  dataVersion : ℤ

/-- Connections over one database. `base` are the db versions in the committed
metadata, `stored` those the writer sees, `committed` those that were ever
committed, `returned` the requests of the open transaction, newest first, each
with the merging version it was given. -/
structure System (ι : Type) where
  connections : ι → Connection
  base : List ℤ
  committed : List ℤ
  writer : Option ι
  stored : List ℤ
  returned : List (ℤ × ℤ)

/-- What the connections do. A write asks for a version and leaves the metadata
with the db versions `after`; an unsynced write touches no synchronised table; a
foreign commit is one of a connection without the extension. -/
inductive Event (ι : Type)
  | write (i : ι) (mergingVersion : ℤ) (after : List ℤ)
  | dbVersion (i : ι)
  | unsyncedWrite (i : ι)
  | commit (i : ι)
  | rollback (i : ι)
  | foreignCommit

namespace System
variable {ι : Type}

/-- Fresh connections to a database that holds metadata. The data version of a
connection counts from 1. -/
def opened (stored : List ℤ) : System ι where
  connections := fun _ => ⟨cloudsyncContextCreate, 1⟩
  base := stored
  committed := stored
  writer := none
  stored := stored
  returned := []

def MayWrite (s : System ι) (i : ι) : Prop := s.writer = none ∨ s.writer = some i

/-- Every version returned in the open transaction is above all committed ones
and at least the merging version passed, and none is below an earlier one. -/
def Advancing (s : System ι) : Prop :=
  (∀ p ∈ s.returned, (∀ v ∈ s.committed, v < p.2) ∧
    (p.1 ≠ CLOUDSYNC_VALUE_NOTSET → p.1 ≤ p.2)) ∧
  s.returned.Pairwise (fun newer older => older.2 ≤ newer.2)

instance (s : System ι) : Decidable s.Advancing := inferInstanceAs (Decidable (_ ∧ _))

/-- A commit that would set the cached version to the zero a context starts
with, while the context has looked at the database and positive versions are
stored there. -/
def CommitsFreshZero (s : System ι) (i : ι) : Prop :=
  (s.connections i).ctx.pendingDbVersion = 0 ∧
    (s.connections i).ctx.dataVersion = (s.connections i).dataVersion ∧ ∃ v ∈ s.stored, 0 < v

instance (s : System ι) (i : ι) : Decidable (s.CommitsFreshZero i) :=
  inferInstanceAs (Decidable (_ ∧ _))

/-- What the contexts keep true of the database they work on. -/
structure Coherent (s : System ι) : Prop where
  base_committed : ∀ v ∈ s.base, v ∈ s.committed
  committed_le_base : ∀ h ∈ s.committed, ∃ v ∈ s.base, h ≤ v
  committed_le_stored : ∀ h ∈ s.committed, ∃ v ∈ s.stored, h ≤ v
  cached_le : ∀ j, (s.connections j).ctx.dataVersion ≤ (s.connections j).dataVersion
  current : ∀ j, (s.connections j).ctx.dataVersion = (s.connections j).dataVersion →
    (s.connections j).ctx.dbVersion ≠ CLOUDSYNC_VALUE_NOTSET →
      ∀ h ∈ s.committed, h ≤ (s.connections j).ctx.dbVersion
  idle : ∀ j, s.writer ≠ some j ∨ s.returned = [] →
    (s.connections j).ctx.pendingDbVersion = CLOUDSYNC_VALUE_NOTSET ∨
      (s.connections j).ctx.pendingDbVersion = 0
  stored_eq : s.returned = [] → s.stored = s.base
  returned_nil : s.writer = none → s.returned = []
  pending : ∀ j, s.writer = some j → s.returned ≠ [] →
    (∀ h ∈ s.committed, h < (s.connections j).ctx.pendingDbVersion) ∧
    (∀ p ∈ s.returned, p.2 ≤ (s.connections j).ctx.pendingDbVersion) ∧
    ∀ v ∈ s.stored, v ∈ s.base ∨ v ≤ (s.connections j).ctx.pendingDbVersion
  advancing : s.Advancing

section
variable {s : System ι}

theorem coherent_opened (stored : List ℤ) : (opened stored : System ι).Coherent where
  base_committed := fun v hv => hv
  committed_le_base := fun h hh => ⟨h, hh, le_rfl⟩
  committed_le_stored := fun h hh => ⟨h, hh, le_rfl⟩
  cached_le := fun _ => Int.zero_le_ofNat 1
  current := fun _ hj => absurd hj Int.zero_ne_one
  idle := fun j _ => .inr rfl
  stored_eq := fun _ => rfl
  returned_nil := fun _ => rfl
  pending := fun j hj => absurd hj (by simp [opened])
  advancing := ⟨by simp [opened], by simp [opened]⟩

/-- A connection that may write finds the requests of its transaction below its
pending version. -/
theorem Coherent.returned_le (hs : s.Coherent) {i : ι} (hw : s.MayWrite i) :
    ∀ p ∈ s.returned, p.2 ≤ (s.connections i).ctx.pendingDbVersion := by
  intro p hp
  have hr : s.returned ≠ [] := List.ne_nil_of_mem hp
  rcases hw with hw | hw
  · exact absurd (hs.returned_nil hw) hr
  · exact (hs.pending i hw hr).2.1 p hp

theorem Coherent.stored_le (hs : s.Coherent) {i : ι} (hw : s.MayWrite i) :
    ∀ v ∈ s.stored, v ∈ s.base ∨ v ≤ (s.connections i).ctx.pendingDbVersion := by
  intro v hv
  by_cases hr : s.returned = []
  · rw [hs.stored_eq hr] at hv
    exact .inl hv
  · rcases hw with hw | hw
    · exact absurd (hs.returned_nil hw) hr
    · exact (hs.pending i hw hr).2.2 v hv

theorem Coherent.idle_of_ne (hs : s.Coherent) {i j : ι} (hw : s.MayWrite i) (hj : j ≠ i) :
    (s.connections j).ctx.pendingDbVersion = CLOUDSYNC_VALUE_NOTSET ∨
      (s.connections j).ctx.pendingDbVersion = 0 := by
  apply hs.idle j
  rcases hw with hw | hw
  · exact .inr (hs.returned_nil hw)
  · left
    rw [hw]
    exact fun h => hj (Option.some.inj h).symm

theorem Coherent.unsyncedWrite (hs : s.Coherent) {i : ι} (hw : s.MayWrite i) :
    Coherent { s with writer := some i } where
  base_committed := hs.base_committed
  committed_le_base := hs.committed_le_base
  committed_le_stored := hs.committed_le_stored
  cached_le := hs.cached_le
  current := hs.current
  idle := by
    intro j hj
    rcases eq_or_ne j i with rfl | hji
    · exact hs.idle j (.inr (hj.resolve_left fun h => h rfl))
    · exact hs.idle_of_ne hw hji
  stored_eq := hs.stored_eq
  returned_nil := fun h => by cases h
  pending := by
    intro j hj hr
    obtain rfl : i = j := Option.some.inj hj
    exact hs.pending i (hw.resolve_left fun h => hr (hs.returned_nil h)) hr
  advancing := hs.advancing

/-- The commit hook leaves the committing connection with no version, or with
one that no committed version exceeds. -/
theorem Coherent.committed_le_pending (hs : s.Coherent) {i : ι} (hw : s.writer = some i)
    (hfresh : ¬ s.CommitsFreshZero i)
    (hcur : (s.connections i).ctx.dataVersion = (s.connections i).dataVersion)
    (hset : (s.connections i).ctx.pendingDbVersion ≠ CLOUDSYNC_VALUE_NOTSET) :
    ∀ h ∈ s.committed, h ≤ (s.connections i).ctx.pendingDbVersion := by
  by_cases hr : s.returned = []
  · have hzero := (hs.idle i (.inr hr)).resolve_left hset
    intro h hh
    rcases hs.committed_le_stored h hh with ⟨v, hv, hle⟩
    have hv0 : ¬ 0 < v := fun hpos => hfresh ⟨hzero, hcur, v, hv, hpos⟩
    omega
  · exact fun h hh => ((hs.pending i hw hr).1 h hh).le

theorem Coherent.stored_le_pending (hs : s.Coherent) {i : ι} (hw : s.writer = some i)
    (hfresh : ¬ s.CommitsFreshZero i)
    (hcur : (s.connections i).ctx.dataVersion = (s.connections i).dataVersion)
    (hset : (s.connections i).ctx.pendingDbVersion ≠ CLOUDSYNC_VALUE_NOTSET) :
    ∀ v ∈ s.stored, v ≤ (s.connections i).ctx.pendingDbVersion := by
  intro v hv
  rcases hs.stored_le (.inr hw) v hv with hb | hle
  · exact hs.committed_le_pending hw hfresh hcur hset v (hs.base_committed v hb)
  · exact hle

theorem Coherent.foreignCommit (hs : s.Coherent) (hw : s.writer = none) :
    Coherent { s with
      connections := fun j =>
        { s.connections j with dataVersion := (s.connections j).dataVersion + 1 } } where
  base_committed := hs.base_committed
  committed_le_base := hs.committed_le_base
  committed_le_stored := hs.committed_le_stored
  cached_le := by
    intro j
    have := hs.cached_le j
    simp only
    omega
  current := by
    intro j hcur
    have := hs.cached_le j
    simp only at hcur
    omega
  idle := hs.idle
  stored_eq := hs.stored_eq
  returned_nil := hs.returned_nil
  pending := fun j hj => by rw [hw] at hj; cases hj
  advancing := hs.advancing

end

section
variable [DecidableEq ι]

/-- What the statements of a connection answer: the writer sees its own rows. -/
def view (s : System ι) (i : ι) : DbView where
  dataVersion := (s.connections i).dataVersion
  stored := if s.writer = some i then s.stored else s.base

instance (s : System ι) (i : ι) : Decidable (s.MayWrite i) := inferInstanceAs (Decidable (_ ∨ _))

def setContext (s : System ι) (i : ι) (ctx : Context) : System ι :=
  { s with connections := Function.update s.connections i { s.connections i with ctx := ctx } }

/-- The metadata a write that got `version` may leave: rows are stored under the
version, and if any are dropped one is. -/
def Stores (stored : List ℤ) (version : ℤ) (after : List ℤ) : Prop :=
  (∀ v ∈ after, v ∈ stored ∨ v = version) ∧ ((∀ v ∈ stored, v ∈ after) ∨ version ∈ after)

instance (stored : List ℤ) (version : ℤ) (after : List ℤ) :
    Decidable (Stores stored version after) := inferInstanceAs (Decidable (_ ∧ _))

def next (s : System ι) (i : ι) (mergingVersion : ℤ) : ℤ × Context :=
  dbVersionNext (s.view i) (s.connections i).ctx mergingVersion

def write (s : System ι) (i : ι) (mergingVersion : ℤ) (after : List ℤ) : System ι :=
  { s.setContext i (s.next i mergingVersion).2 with
    writer := some i
    stored := after
    returned := (mergingVersion, (s.next i mergingVersion).1) :: s.returned }

/-- The commit of a write transaction: the hook runs, and every other
connection sees its data version change. -/
def commit (s : System ι) (i : ι) : System ι where
  connections := fun j =>
    if j = i then { s.connections i with ctx := cloudsyncCommitHook (s.connections i).ctx }
    else { s.connections j with dataVersion := (s.connections j).dataVersion + 1 }
  base := s.stored
  committed := s.stored ++ s.committed
  writer := none
  stored := s.stored
  returned := []

def rollback (s : System ι) (i : ι) : System ι :=
  let t := s.setContext i (cloudsyncRollbackHook (s.connections i).ctx)
  if s.writer = some i then { t with writer := none, stored := s.base, returned := [] } else t

def step (s : System ι) : Event ι → Option (System ι)
  | .write i mergingVersion after =>
    if s.MayWrite i ∧ Stores s.stored (s.next i mergingVersion).1 after then
      some (s.write i mergingVersion after)
    else none
  | .dbVersion i =>
    some (s.setContext i (dbVersionCheckUptodate (s.view i) (s.connections i).ctx))
  | .unsyncedWrite i => if s.MayWrite i then some { s with writer := some i } else none
  | .commit i => if s.writer = some i then some (s.commit i) else none
  | .rollback i => some (s.rollback i)
  | .foreignCommit =>
    if s.writer = none then
      some { s with
        connections := fun j =>
          { s.connections j with dataVersion := (s.connections j).dataVersion + 1 } }
    else none

/-- The steps on which the clock works: a request starts from a version with a
successor, and no commit sets the cached version to a fresh zero. -/
def Allowed (s : System ι) : Event ι → Prop
  | .write i _ _ => HasSuccessor (dbVersionCheckUptodate (s.view i) (s.connections i).ctx)
  | .commit i => ¬ s.CommitsFreshZero i
  | _ => True

instance (s : System ι) : (e : Event ι) → Decidable (s.Allowed e)
  | .write i _ _ =>
    inferInstanceAs (Decidable (HasSuccessor
      (dbVersionCheckUptodate (s.view i) (s.connections i).ctx)))
  | .commit i => inferInstanceAs (Decidable (¬ s.CommitsFreshZero i))
  | .dbVersion _ | .unsyncedWrite _ | .rollback _ | .foreignCommit => isTrue trivial

section
variable {s : System ι}

@[simp] theorem setContext_base (i : ι) (ctx : Context) : (s.setContext i ctx).base = s.base := rfl

@[simp] theorem setContext_stored (i : ι) (ctx : Context) :
    (s.setContext i ctx).stored = s.stored := rfl

@[simp] theorem setContext_committed (i : ι) (ctx : Context) :
    (s.setContext i ctx).committed = s.committed := rfl

@[simp] theorem setContext_writer (i : ι) (ctx : Context) :
    (s.setContext i ctx).writer = s.writer := rfl

@[simp] theorem setContext_returned (i : ι) (ctx : Context) :
    (s.setContext i ctx).returned = s.returned := rfl

@[simp] theorem setContext_self (i : ι) (ctx : Context) :
    (s.setContext i ctx).connections i = { s.connections i with ctx := ctx } := by
  simp [setContext]

theorem setContext_of_ne {i j : ι} (h : j ≠ i) (ctx : Context) :
    (s.setContext i ctx).connections j = s.connections j := by
  simp [setContext, h]

/-- Every committed version is seen by every connection, possibly under a larger one. -/
theorem Coherent.committed_le_view (hs : s.Coherent) (i : ι) :
    ∀ h ∈ s.committed, ∃ v ∈ (s.view i).stored, h ≤ v := by
  rw [view]
  split_ifs
  · exact hs.committed_le_stored
  · exact hs.committed_le_base

/-- The check leaves a cached version that no committed one exceeds. -/
theorem Coherent.committed_le_checked (hs : s.Coherent) (i : ι) :
    ∀ h ∈ s.committed,
      h ≤ (dbVersionCheckUptodate (s.view i) (s.connections i).ctx).dbVersion := by
  intro h hh
  rcases dbVersionCheckUptodate_cases (s.view i) (s.connections i).ctx with ⟨hset, hd, he⟩ | he
  · rw [he]
    exact hs.current i hd.symm hset h hh
  · rw [he]
    rcases hs.committed_le_view i h hh with ⟨v, hv, hle⟩
    exact hle.trans (le_maxDbVersion (s.view i) hv)

theorem Coherent.check (hs : s.Coherent) (i : ι) :
    (s.setContext i (dbVersionCheckUptodate (s.view i) (s.connections i).ctx)).Coherent := by
  have hpending : ∀ j, ((s.setContext i (dbVersionCheckUptodate (s.view i)
      (s.connections i).ctx)).connections j).ctx.pendingDbVersion =
      (s.connections j).ctx.pendingDbVersion := by
    intro j
    by_cases hj : j = i
    · subst hj
      simp
    · rw [setContext_of_ne hj]
  refine ⟨hs.base_committed, hs.committed_le_base, hs.committed_le_stored, ?_, ?_, ?_,
    hs.stored_eq, hs.returned_nil, ?_, hs.advancing⟩
  · intro j
    by_cases hj : j = i
    · subst hj
      simp [view]
    · rw [setContext_of_ne hj]
      exact hs.cached_le j
  · intro j
    by_cases hj : j = i
    · subst hj
      simp only [setContext_self]
      exact fun _ _ => hs.committed_le_checked j
    · rw [setContext_of_ne hj]
      exact hs.current j
  · intro j hj
    rw [hpending]
    exact hs.idle j hj
  · intro j hj hr
    rw [hpending]
    exact hs.pending j hj hr

/-- A write puts its version above every committed one, so nothing it drops is missed. -/
theorem Stores.exists_le {version h : ℤ} {stored after : List ℤ} (hst : Stores stored version after)
    (hlt : h < version) (hex : ∃ v ∈ stored, h ≤ v) : ∃ v ∈ after, h ≤ v := by
  rcases hst.2 with hkeep | hnew
  · rcases hex with ⟨v, hv, hle⟩
    exact ⟨v, hkeep v hv, hle⟩
  · exact ⟨version, hnew, hlt.le⟩

theorem Coherent.write (hs : s.Coherent) {i : ι} (hw : s.MayWrite i) (mergingVersion : ℤ)
    {after : List ℤ} (hst : Stores s.stored (s.next i mergingVersion).1 after)
    (hsucc : HasSuccessor (dbVersionCheckUptodate (s.view i) (s.connections i).ctx)) :
    (s.write i mergingVersion after).Coherent := by
  have hc := hs.check i
  have hcommitted := hs.committed_le_checked i
  have hbound := dbVersionCheckUptodate_pendingDbVersion (s.view i) (s.connections i).ctx
  generalize hdata : dbVersionCheckUptodate (s.view i) (s.connections i).ctx = data at *
  have hlt := lt_nextVersion data mergingVersion hsucc
  have hpend := pendingDbVersion_le_nextVersion data mergingVersion
  have hmv := mergingVersion_le_nextVersion data mergingVersion
  generalize hresult : nextVersion data mergingVersion = result at *
  have hnext : s.next i mergingVersion = (result, { data with pendingDbVersion := result }) := by
    rw [System.next, dbVersionNext, hdata, hresult]
  rw [hnext] at hst
  have hnew : ∀ h ∈ s.committed, h < result := fun h hh => (hcommitted h hh).trans_lt hlt
  have hreturned : ∀ p ∈ s.returned, p.2 ≤ result := by
    intro p hp
    exact (hs.returned_le hw p hp).trans (hbound ▸ hpend)
  rw [System.write, hnext]
  refine ⟨hs.base_committed, hs.committed_le_base, ?_, ?_, ?_, ?_, ?_, ?_, ?_, ?_, ?_⟩
  · exact fun h hh => hst.exists_le (hnew h hh) (hs.committed_le_stored h hh)
  · intro j
    by_cases hj : j = i
    · subst hj
      have h := hc.cached_le j
      simp only [setContext_self] at h ⊢
      exact h
    · simp only [setContext_of_ne hj]
      exact hs.cached_le j
  · intro j
    by_cases hj : j = i
    · subst hj
      simp only [setContext_self]
      exact fun _ _ => hcommitted
    · simp only [setContext_of_ne hj]
      exact hs.current j
  · intro j hj
    have hji : j ≠ i := by
      rintro rfl
      rcases hj with hj | hj
      · exact hj rfl
      · cases hj
    simp only [setContext_of_ne hji]
    exact hs.idle_of_ne hw hji
  · intro h
    cases h
  · intro h
    cases h
  · intro j hj _
    obtain rfl : i = j := Option.some.inj hj
    simp only [setContext_self]
    refine ⟨hnew, ?_, ?_⟩
    · intro p hp
      rcases List.mem_cons.mp hp with rfl | hp
      · exact le_rfl
      · exact hreturned p hp
    · intro v hv
      rcases hst.1 v hv with hv | rfl
      · exact (hs.stored_le hw v hv).imp_right fun h => h.trans (hbound ▸ hpend)
      · exact .inr le_rfl
  · intro p hp
    rcases List.mem_cons.mp hp with rfl | hp
    · exact ⟨hnew, hmv⟩
    · exact hs.advancing.1 p hp
  · exact List.pairwise_cons.mpr ⟨hreturned, hs.advancing.2⟩

theorem Coherent.commit (hs : s.Coherent) {i : ι} (hw : s.writer = some i)
    (hfresh : ¬ s.CommitsFreshZero i) : (s.commit i).Coherent where
  base_committed := fun v hv => List.mem_append_left _ hv
  committed_le_base := by
    intro h hh
    rcases List.mem_append.mp hh with hh | hh
    · exact ⟨h, hh, le_rfl⟩
    · exact hs.committed_le_stored h hh
  committed_le_stored := by
    intro h hh
    rcases List.mem_append.mp hh with hh | hh
    · exact ⟨h, hh, le_rfl⟩
    · exact hs.committed_le_stored h hh
  cached_le := by
    intro j
    by_cases hj : j = i
    · subst hj
      simpa [System.commit, cloudsyncCommitHook] using hs.cached_le j
    · have := hs.cached_le j
      simp only [System.commit, if_neg hj]
      omega
  current := by
    intro j
    by_cases hj : j = i
    · subst hj
      simp only [System.commit, cloudsyncCommitHook]
      intro hcur hset h hh
      rcases List.mem_append.mp hh with hh | hh
      · exact hs.stored_le_pending hw hfresh hcur hset h hh
      · exact hs.committed_le_pending hw hfresh hcur hset h hh
    · have := hs.cached_le j
      simp only [System.commit, if_neg hj]
      intro hcur
      omega
  idle := by
    intro j _
    by_cases hj : j = i
    · subst hj
      simp [System.commit, cloudsyncCommitHook]
    · simp only [System.commit, if_neg hj]
      exact hs.idle_of_ne (.inr hw) hj
  stored_eq := fun _ => rfl
  returned_nil := fun _ => rfl
  pending := fun j hj => by cases hj
  advancing := ⟨by simp [System.commit], by simp [System.commit]⟩

theorem rollbackHook_known (i j : ι) :
    ((s.setContext i (cloudsyncRollbackHook (s.connections i).ctx)).connections j).dataVersion =
        (s.connections j).dataVersion ∧
      ((s.setContext i (cloudsyncRollbackHook (s.connections i).ctx)).connections j).ctx.dataVersion
        = (s.connections j).ctx.dataVersion ∧
      ((s.setContext i (cloudsyncRollbackHook (s.connections i).ctx)).connections j).ctx.dbVersion
        = (s.connections j).ctx.dbVersion := by
  by_cases hj : j = i
  · subst hj
    simp [cloudsyncRollbackHook]
  · simp [setContext_of_ne hj]

theorem Coherent.rollback (hs : s.Coherent) (i : ι) : (s.rollback i).Coherent := by
  have hcached : ∀ j, ((s.setContext i (cloudsyncRollbackHook
      (s.connections i).ctx)).connections j).ctx.dataVersion ≤ ((s.setContext i
      (cloudsyncRollbackHook (s.connections i).ctx)).connections j).dataVersion := by
    intro j
    rcases rollbackHook_known (s := s) i j with ⟨hv, hc, -⟩
    rw [hv, hc]
    exact hs.cached_le j
  have hcurrent : ∀ j, ((s.setContext i (cloudsyncRollbackHook
      (s.connections i).ctx)).connections j).ctx.dataVersion = ((s.setContext i
      (cloudsyncRollbackHook (s.connections i).ctx)).connections j).dataVersion →
      ((s.setContext i (cloudsyncRollbackHook
        (s.connections i).ctx)).connections j).ctx.dbVersion ≠ CLOUDSYNC_VALUE_NOTSET →
      ∀ h ∈ s.committed, h ≤ ((s.setContext i (cloudsyncRollbackHook
        (s.connections i).ctx)).connections j).ctx.dbVersion := by
    intro j
    rcases rollbackHook_known (s := s) i j with ⟨hv, hc, hd⟩
    rw [hv, hc, hd]
    exact hs.current j
  rw [System.rollback]
  split_ifs with hw
  · refine ⟨hs.base_committed, hs.committed_le_base, hs.committed_le_base, hcached, hcurrent,
      ?_, fun _ => rfl, fun _ => rfl, fun j hj => (by cases hj), ⟨by simp, List.Pairwise.nil⟩⟩
    intro j _
    by_cases hj : j = i
    · subst hj
      simp [cloudsyncRollbackHook]
    · simp only [setContext_of_ne hj]
      exact hs.idle_of_ne (.inr hw) hj
  · refine ⟨hs.base_committed, hs.committed_le_base, hs.committed_le_stored, hcached, hcurrent,
      ?_, hs.stored_eq, hs.returned_nil, ?_, hs.advancing⟩
    · intro j hj
      by_cases hji : j = i
      · subst hji
        simp [cloudsyncRollbackHook]
      · simp only [setContext_of_ne hji]
        exact hs.idle j hj
    · intro j hj hr
      have hji : j ≠ i := by
        rintro rfl
        exact hw hj
      simp only [setContext_of_ne hji]
      exact hs.pending j hj hr

end

/-- One allowed step keeps the invariant, whatever the event. -/
theorem coherent_step (s : System ι) (e : Event ι) (t : System ι) (hs : s.Coherent)
    (he : s.Allowed e) (ht : s.step e = some t) : t.Coherent := by
  cases e with
  | write i mergingVersion after =>
    rw [step, Option.ite_none_right_eq_some, Option.some.injEq] at ht
    rcases ht with ⟨⟨hw, hst⟩, rfl⟩
    exact hs.write hw mergingVersion hst he
  | dbVersion i =>
    cases ht
    exact hs.check i
  | unsyncedWrite i =>
    rw [step, Option.ite_none_right_eq_some, Option.some.injEq] at ht
    rcases ht with ⟨hw, rfl⟩
    exact hs.unsyncedWrite hw
  | commit i =>
    rw [step, Option.ite_none_right_eq_some, Option.some.injEq] at ht
    rcases ht with ⟨hw, rfl⟩
    exact hs.commit hw he
  | rollback i =>
    cases ht
    exact hs.rollback i
  | foreignCommit =>
    rw [step, Option.ite_none_right_eq_some, Option.some.injEq] at ht
    rcases ht with ⟨hw, rfl⟩
    exact hs.foreignCommit hw

/-- The states of fresh connections on a database that holds `stored`. -/
def Reached (stored : List ℤ) (allowed : System ι → Event ι → Prop) : System ι → Prop :=
  Reachable step (fun s => s = opened stored) allowed

/-- In every run whose requests have a successor and whose commits never set a
fresh zero, the clock advances. -/
theorem reached_advancing (stored : List ℤ) (s : System ι) (h : Reached stored Allowed s) :
    s.Advancing := by
  have hcoherent : s.Coherent := by
    refine Reachable.invariant ?_ coherent_step h
    rintro t rfl
    exact coherent_opened stored
  exact hcoherent.advancing

/-- A connection that looks at the database, commits a transaction outside the
synchronised tables and then writes is given version 1, below the stored 5. -/
theorem reached_not_advancing :
    ¬ ∀ (stored : List ℤ) (s : System Unit), Reached stored (fun _ _ => True) s → s.Advancing := by
  intro h
  rcases Reachable.exists_of_runs step (fun s : System Unit => s = opened [5]) (fun _ _ => True) rfl
    [.dbVersion (), .unsyncedWrite (), .commit (), .write () (-1) [5, 1]]
    (fun s => !decide s.Advancing) (by decide) with ⟨s, hs, hnot⟩
  simp [h [5] s hs] at hnot

/-- Two connections: the first writes and commits, the second merges version 9
over what it then finds. -/
theorem reached_advancing_pair : ∃ s : System Bool, Reached [5] Allowed s ∧
    s.returned = [(-1, 9), (9, 9)] ∧ s.Advancing := by
  rcases Reachable.exists_of_runs step (fun s : System Bool => s = opened [5]) Allowed rfl
    [.write false (-1) [5, 6], .commit false, .write true 9 [6, 9], .write true (-1) [6, 9]]
    (fun s => decide (s.returned = [(-1, 9), (9, 9)])) (by decide) with ⟨s, hs, hr⟩
  exact ⟨s, hs, of_decide_eq_true hr, reached_advancing [5] s hs⟩

end
end System
end SqliteSync.Clock
