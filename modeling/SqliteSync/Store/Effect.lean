import SqliteSync.Store.Replica
import SqliteSync.Store.RowState

/-!
# What an operation leaves alone

An operation on one primary key rewrites what one table holds there, and leaves
the other keys, the other tables and, but for the requests it makes, the clock
as they were. Both facts compose along the steps of an operation.
-/
namespace SqliteSync.Store
open Library Clock

variable {n : ℕ} {schema : Fin n → TableContext}

/-- `r'` holds `s` under one key of one table, and what `r` holds everywhere else. -/
structure Rewrites (r r' : Replica schema) (i : Fin n) (pk : Pk) (s : RowState (schema i)) :
    Prop where
  tables : ∀ j ≠ i, r'.table j = r.table j
  rows : ∀ pk' ≠ pk, (r'.table i).rowAt pk' = (r.table i).rowAt pk'
  here : (r'.table i).rowAt pk = s

namespace Rewrites
variable {r r' r'' : Replica schema} {i : Fin n} {pk : Pk} {s s' : RowState (schema i)}

theorem of_table_eq (h : r'.table = r.table) :
    Rewrites r r' i pk ((r.table i).rowAt pk) where
  tables j _ := by rw [h]
  rows pk' _ := by rw [h]
  here := by rw [h]

theorem refl (r : Replica schema) (i : Fin n) (pk : Pk) :
    Rewrites r r i pk ((r.table i).rowAt pk) := of_table_eq rfl

theorem trans (h : Rewrites r r' i pk s) (h' : Rewrites r' r'' i pk s') :
    Rewrites r r'' i pk s' where
  tables j hj := (h'.tables j hj).trans (h.tables j hj)
  rows pk' hpk := (h'.rows pk' hpk).trans (h.rows pk' hpk)
  here := h'.here

theorem setTable {t : Table (schema i)} {f : RowState (schema i) → RowState (schema i)}
    (ht : ∀ pk', t.rowAt pk' = if pk' = pk then f ((r.table i).rowAt pk)
      else (r.table i).rowAt pk') :
    Rewrites r (r.setTable i t) i pk (f ((r.table i).rowAt pk)) where
  tables j hj := Replica.setTable_table_of_ne r hj t
  rows pk' hpk := by rw [Replica.setTable_table_self, ht, if_neg hpk]
  here := by rw [Replica.setTable_table_self, ht, if_pos rfl]

end Rewrites

def Replica.checked (r : Replica schema) : Context := dbVersionCheckUptodate r.view r.data

/-- The checked version is set and has a successor. -/
def Replica.Settled (r : Replica schema) : Prop :=
  r.checked.dbVersion ≠ CLOUDSYNC_VALUE_NOTSET ∧ HasSuccessor r.checked

instance (r : Replica schema) : Decidable r.Settled := inferInstanceAs (Decidable (_ ∧ _))

/-- The clock of `r'` is that of `r` after requests that were given `versions`,
and some sequence numbers. Before the first request the stored versions are as
they were; once the checked version is settled it stays through the requests. -/
structure Clocked (r r' : Replica schema) (versions : List ℤ) : Prop where
  dataVersion : r'.dataVersion = r.dataVersion
  seq : r.data.seq ≤ r'.data.seq
  insync : r.data.insync = false → r'.data.insync = false
  enabled : r'.enabled = r.enabled
  fresh : versions = [] → r'.view = r.view ∧ r'.data.dbVersion = r.data.dbVersion ∧
    r'.data.pendingDbVersion = r.data.pendingDbVersion ∧ r'.data.dataVersion = r.data.dataVersion
  latest : ∀ v ∈ versions.head?, r'.data.pendingDbVersion = v
  asked : versions ≠ [] → r.Settled → r'.data.dbVersion = r.checked.dbVersion ∧
    r'.data.dataVersion = r.dataVersion ∧
    ∀ v ∈ versions, r.checked.dbVersion < v ∧ r.data.pendingDbVersion ≤ v ∧
      v ≤ r'.data.pendingDbVersion

namespace Clocked
variable {r r' : Replica schema} {versions : List ℤ}

theorem refl (r : Replica schema) : Clocked r r [] where
  dataVersion := rfl
  seq := le_rfl
  insync := id
  enabled := rfl
  fresh _ := ⟨rfl, rfl, rfl, rfl⟩
  latest := by simp
  asked h := absurd rfl h

/-- A write of the tables, as long as it comes after a request or keeps the
stored versions. -/
theorem write {r'' : Replica schema} (h : Clocked r r' versions) (hdata : r''.data = r'.data)
    (hdv : r''.dataVersion = r'.dataVersion) (hen : r''.enabled = r'.enabled)
    (hview : versions = [] → r''.view = r'.view) : Clocked r r'' versions where
  dataVersion := hdv.trans h.dataVersion
  seq := hdata ▸ h.seq
  insync := hdata ▸ h.insync
  enabled := hen.trans h.enabled
  fresh hv := by
    rw [hdata, hview hv]
    exact h.fresh hv
  latest := hdata ▸ h.latest
  asked hv := by
    rw [hdata]
    exact h.asked hv

theorem bumpSeq (h : Clocked r r' versions) : Clocked r r'.bumpSeq.2 versions where
  dataVersion := h.dataVersion
  seq := h.seq.trans (Int.le_add_one le_rfl)
  insync := h.insync
  enabled := h.enabled
  fresh := h.fresh
  latest := h.latest
  asked := h.asked

theorem request (h : Clocked r r' versions) (mergingVersion : ℤ) :
    Clocked r (r'.dbVersionNext mergingVersion).2
      ((r'.dbVersionNext mergingVersion).1 :: versions) := by
  have hcheck : r.Settled → (dbVersionCheckUptodate r'.view r'.data).dbVersion =
      r.checked.dbVersion := by
    intro hs
    by_cases hv : versions = []
    · rcases h.fresh hv with ⟨hview, hdb, -, hcached⟩
      rw [Replica.checked, dbVersionCheckUptodate, dbVersionCheckUptodate, hview, hdb, hcached]
      split_ifs
      · exact hdb
      · rfl
    · rcases h.asked hv hs with ⟨hdb, hcached, -⟩
      have hview : r'.view.dataVersion = r'.data.dataVersion := h.dataVersion.trans hcached.symm
      rw [dbVersionCheckUptodate, if_pos ⟨hdb ▸ hs.1, hview⟩, hdb]
  have hpending : r.Settled → r.data.pendingDbVersion ≤ r'.data.pendingDbVersion ∧
      ∀ v ∈ versions, r.checked.dbVersion < v ∧ r.data.pendingDbVersion ≤ v ∧
        v ≤ r'.data.pendingDbVersion := by
    intro hs
    rcases versions with - | ⟨v, versions⟩
    · exact ⟨(h.fresh rfl).2.2.1.ge, by simp⟩
    · have hasked := (h.asked (List.cons_ne_nil v versions) hs).2.2
      have hv := hasked v List.mem_cons_self
      exact ⟨hv.2.1.trans hv.2.2, hasked⟩
  refine ⟨h.dataVersion, ?_, ?_, h.enabled, fun hv => absurd hv (List.cons_ne_nil _ _), ?_, ?_⟩
  · simpa [Replica.dbVersionNext, Clock.dbVersionNext] using h.seq
  · simpa [Replica.dbVersionNext, Clock.dbVersionNext] using h.insync
  · intro v hv
    cases hv
    rfl
  · intro _ hs
    have hsucc : HasSuccessor (dbVersionCheckUptodate r'.view r'.data) := by
      rw [HasSuccessor, hcheck hs]
      exact hs.2
    have hlt := lt_nextVersion (dbVersionCheckUptodate r'.view r'.data) mergingVersion hsucc
    have hle := pendingDbVersion_le_nextVersion (dbVersionCheckUptodate r'.view r'.data)
      mergingVersion
    rw [dbVersionCheckUptodate_pendingDbVersion] at hle
    rw [hcheck hs] at hlt
    refine ⟨hcheck hs, ?_, ?_⟩
    · exact (dbVersionCheckUptodate_dataVersion r'.view r'.data).trans h.dataVersion
    · intro v hv
      rcases List.mem_cons.mp hv with rfl | hv
      · exact ⟨hlt, (hpending hs).1.trans hle, le_rfl⟩
      · rcases (hpending hs).2 v hv with ⟨h1, h2, h3⟩
        exact ⟨h1, h2, h3.trans hle⟩

end Clocked

theorem view_setTable_of_metadata {r : Replica schema} {i : Fin n} {t : Table (schema i)}
    (h : t.metadata = (r.table i).metadata) : (r.setTable i t).view = r.view := by
  have ht : ∀ j, ((r.setTable i t).table j).dbVersions = (r.table j).dbVersions := by
    intro j
    by_cases hj : j = i
    · subst hj
      rw [Replica.setTable_table_self, Table.dbVersions, h, Table.dbVersions]
    · rw [Replica.setTable_table_of_ne r hj]
  simp only [Replica.view, ht, Replica.setTable_dataVersion]

end SqliteSync.Store
