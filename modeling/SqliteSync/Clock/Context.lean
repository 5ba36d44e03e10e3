import SqliteSync.Library.Machine

/-!
# The version clock of a connection

The fields of `cloudsync_context` that hand out db versions and sequence
numbers, and the functions of `cloudsync.c` that read and write them. The
prepared statements they run answer with the connection's `PRAGMA data_version`
and with the db versions stored in the metadata tables.
-/
namespace SqliteSync.Clock
open Library

def CLOUDSYNC_VALUE_NOTSET : ℤ := -1

def CLOUDSYNC_MIN_DB_VERSION : ℤ := 0

structure Context where
  dbVersion : ℤ
  pendingDbVersion : ℤ
  seq : ℤ
  dataVersion : ℤ
  insync : Bool
deriving DecidableEq, Repr

/-- `cloudsync_context_create`: the structure is zero-allocated. -/
def cloudsyncContextCreate : Context := ⟨0, 0, 0, 0, false⟩

/-- What the statements of the clock answer: the data version of the connection
and the db versions stored in the metadata. -/
structure DbView where
  dataVersion : ℤ
  stored : List ℤ

/-- `db_version_stmt`: no row, or a NULL maximum, is version 0. -/
def DbView.maxDbVersion (view : DbView) : ℤ := view.stored.max?.getD CLOUDSYNC_MIN_DB_VERSION

def dbVersionRerun (view : DbView) (data : Context) : Context :=
  { data with dbVersion := view.maxDbVersion }

def dbVersionCheckUptodate (view : DbView) (data : Context) : Context :=
  if data.dbVersion ≠ CLOUDSYNC_VALUE_NOTSET ∧ view.dataVersion = data.dataVersion then data
  else dbVersionRerun view { data with dataVersion := view.dataVersion }

/-- The version a request settles on once the cached one is up to date. -/
def nextVersion (data : Context) (mergingVersion : ℤ) : ℤ :=
  let result := toInt64 (data.dbVersion + 1)
  let result := if result < data.pendingDbVersion then data.pendingDbVersion else result
  if mergingVersion ≠ CLOUDSYNC_VALUE_NOTSET ∧ result < mergingVersion then mergingVersion
  else result

def dbVersionNext (view : DbView) (data : Context) (mergingVersion : ℤ) : ℤ × Context :=
  let data := dbVersionCheckUptodate view data
  let result := nextVersion data mergingVersion
  (result, { data with pendingDbVersion := result })

def cloudsyncCommitHook (data : Context) : Context :=
  { data with
    dbVersion := data.pendingDbVersion
    pendingDbVersion := CLOUDSYNC_VALUE_NOTSET
    seq := 0 }

def cloudsyncRollbackHook (data : Context) : Context :=
  { data with pendingDbVersion := CLOUDSYNC_VALUE_NOTSET, seq := 0 }

/-- `BUMP_SEQ`: the sequence number of this row, and the context after it. -/
def bumpSeq (data : Context) : ℤ × Context := (data.seq, { data with seq := data.seq + 1 })

section
variable (view : DbView) (data : Context)

theorem le_maxDbVersion {v : ℤ} (h : v ∈ view.stored) : v ≤ view.maxDbVersion := by
  rw [DbView.maxDbVersion]
  cases hm : view.stored.max? with
  | none => simp [List.max?_eq_none_iff.mp hm] at h
  | some m => exact (List.max?_eq_some_iff.mp hm).2 v h

theorem maxDbVersion_mem (h : view.stored ≠ []) : view.maxDbVersion ∈ view.stored := by
  rw [DbView.maxDbVersion]
  cases hm : view.stored.max? with
  | none => exact absurd (List.max?_eq_none_iff.mp hm) h
  | some m => exact (List.max?_eq_some_iff.mp hm).1

/-- After the check the cached version is either the one kept, which was
current, or the stored maximum. -/
theorem dbVersionCheckUptodate_cases :
    (data.dbVersion ≠ CLOUDSYNC_VALUE_NOTSET ∧ view.dataVersion = data.dataVersion ∧
      dbVersionCheckUptodate view data = data) ∨
    dbVersionCheckUptodate view data =
      { data with dataVersion := view.dataVersion, dbVersion := view.maxDbVersion } := by
  by_cases h : data.dbVersion ≠ CLOUDSYNC_VALUE_NOTSET ∧ view.dataVersion = data.dataVersion
  · exact .inl ⟨h.1, h.2, if_pos h⟩
  · exact .inr (if_neg h)

@[simp] theorem dbVersionCheckUptodate_dataVersion :
    (dbVersionCheckUptodate view data).dataVersion = view.dataVersion := by
  rcases dbVersionCheckUptodate_cases view data with ⟨-, hd, h⟩ | h
  · rw [h, hd]
  · rw [h]

@[simp] theorem dbVersionCheckUptodate_pendingDbVersion :
    (dbVersionCheckUptodate view data).pendingDbVersion = data.pendingDbVersion := by
  rcases dbVersionCheckUptodate_cases view data with ⟨-, -, h⟩ | h <;> rw [h]

@[simp] theorem dbVersionCheckUptodate_seq :
    (dbVersionCheckUptodate view data).seq = data.seq := by
  rcases dbVersionCheckUptodate_cases view data with ⟨-, -, h⟩ | h <;> rw [h]

@[simp] theorem dbVersionCheckUptodate_insync :
    (dbVersionCheckUptodate view data).insync = data.insync := by
  rcases dbVersionCheckUptodate_cases view data with ⟨-, -, h⟩ | h <;> rw [h]

def HasSuccessor : Prop := toInt64 (data.dbVersion + 1) = data.dbVersion + 1

instance : Decidable (HasSuccessor data) := inferInstanceAs (Decidable (_ = _))

theorem lt_nextVersion (mergingVersion : ℤ) (h : HasSuccessor data) :
    data.dbVersion < nextVersion data mergingVersion := by
  rw [HasSuccessor] at h
  simp only [nextVersion, h]
  split_ifs <;> omega

theorem pendingDbVersion_le_nextVersion (mergingVersion : ℤ) :
    data.pendingDbVersion ≤ nextVersion data mergingVersion := by
  simp only [nextVersion]
  split_ifs <;> omega

theorem mergingVersion_le_nextVersion (mergingVersion : ℤ)
    (h : mergingVersion ≠ CLOUDSYNC_VALUE_NOTSET) :
    mergingVersion ≤ nextVersion data mergingVersion := by
  simp only [nextVersion]
  split_ifs <;> omega

end
end SqliteSync.Clock
