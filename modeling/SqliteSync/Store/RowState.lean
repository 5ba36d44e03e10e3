import SqliteSync.Store.Table

/-!
# One primary key

What a table holds under one primary key: its base row and its metadata rows by
column name, the tombstone among them. Every statement of the table changes
what it holds under the keys it names and nothing else, and the causal length
of a row is read from its own metadata.
-/
namespace SqliteSync.Store
open Library

/-- The version of a metadata row after a local write, `first` if it is new. -/
def markVersion (m : Option MetaRow) (first : ℤ) : ℤ :=
  (m.map fun m => sqlAdd m.colVersion 1).getD first

/-- The causal length after `meta_sentinel_insert_stmt`. -/
def bumpVersion (m : Option MetaRow) : ℤ := (m.map fun m => sentinelBump m.colVersion).getD 1

structure RowState (table : TableContext) where
  row : Option (Row table)
  info : String → Option MetaRow

namespace RowState
variable {table : TableContext}

@[ext] theorem ext {s t : RowState table} (hrow : s.row = t.row)
    (hinfo : ∀ name, s.info name = t.info name) : s = t := by
  cases s
  cases t
  congr
  funext name
  exact hinfo name

def absent (table : TableContext) : RowState table := ⟨none, fun _ => none⟩

def sentinel (s : RowState table) : Option MetaRow := s.info CLOUDSYNC_TOMBSTONE_VALUE

open Classical in
noncomputable def localCl (s : RowState table) : ℤ :=
  match s.sentinel with
  | some m => m.colVersion
  | none => if ∃ name, s.info name ≠ none then 1 else 0

theorem localCl_of_sentinel {s : RowState table} {m : MetaRow} (h : s.sentinel = some m) :
    s.localCl = m.colVersion := by
  rw [localCl, h]

theorem localCl_of_info {s : RowState table} (h : s.sentinel = none) {name : String}
    (hname : s.info name ≠ none) : s.localCl = 1 := by
  rw [localCl, h]
  exact if_pos ⟨name, hname⟩

theorem localCl_of_none {s : RowState table} (h : ∀ name, s.info name = none) : s.localCl = 0 := by
  rw [localCl, sentinel, h]
  exact if_neg fun ⟨name, hname⟩ => hname (h name)

@[simp] theorem localCl_absent : (absent table).localCl = 0 := localCl_of_none fun _ => rfl

def setInfo (s : RowState table) (name : String) (m : MetaRow) : RowState table :=
  { s with info := Function.update s.info name (some m) }

def dropColumns (s : RowState table) : RowState table :=
  { s with info := fun name => if name = CLOUDSYNC_TOMBSTONE_VALUE then s.info name else none }

/-- The clocks of the columns are set to zero at a db version. -/
def zeroColumns (s : RowState table) (dbVersion : ℤ) : RowState table :=
  { s with
    info := fun name =>
      if name = CLOUDSYNC_TOMBSTONE_VALUE then s.info name
      else (s.info name).map fun m => { m with colVersion := 0, dbVersion := dbVersion } }

def setRow (s : RowState table) (row : Option (Row table)) : RowState table := { s with row := row }

/-- The metadata that moves in from another key replaces what it meets. -/
def receive (s old : RowState table) (dbVersion seq : ℤ) : RowState table :=
  { s with
    info := fun name =>
      if name = CLOUDSYNC_TOMBSTONE_VALUE then s.info name
      else if old.info name = none then s.info name
      else some ⟨1, dbVersion, 0, seq⟩ }

@[simp] theorem receive_row (s old : RowState table) (dbVersion seq : ℤ) :
    (s.receive old dbVersion seq).row = s.row := rfl

@[simp] theorem receive_info (s old : RowState table) (dbVersion seq : ℤ) (name : String) :
    (s.receive old dbVersion seq).info name =
      if name = CLOUDSYNC_TOMBSTONE_VALUE then s.info name
      else if old.info name = none then s.info name
      else some ⟨1, dbVersion, 0, seq⟩ := rfl

@[simp] theorem setInfo_row (s : RowState table) (name : String) (m : MetaRow) :
    (s.setInfo name m).row = s.row := rfl

@[simp] theorem setInfo_info (s : RowState table) (name name' : String) (m : MetaRow) :
    (s.setInfo name m).info name' = if name' = name then some m else s.info name' := by
  simp [setInfo, Function.update_apply]

@[simp] theorem dropColumns_row (s : RowState table) : s.dropColumns.row = s.row := rfl

@[simp] theorem dropColumns_info (s : RowState table) (name : String) :
    s.dropColumns.info name =
      if name = CLOUDSYNC_TOMBSTONE_VALUE then s.info name else none := rfl

@[simp] theorem zeroColumns_row (s : RowState table) (dbVersion : ℤ) :
    (s.zeroColumns dbVersion).row = s.row := rfl

@[simp] theorem zeroColumns_info (s : RowState table) (dbVersion : ℤ) (name : String) :
    (s.zeroColumns dbVersion).info name =
      if name = CLOUDSYNC_TOMBSTONE_VALUE then s.info name
      else (s.info name).map fun m => { m with colVersion := 0, dbVersion := dbVersion } := rfl

@[simp] theorem setRow_row (s : RowState table) (row : Option (Row table)) :
    (s.setRow row).row = row := rfl

@[simp] theorem setRow_info (s : RowState table) (row : Option (Row table)) (name : String) :
    (s.setRow row).info name = s.info name := rfl

end RowState

namespace Table
variable {table : TableContext} (t : Table table) (pk pk' : Pk)

def rowAt (pk : Pk) : RowState table := ⟨t.base.get pk, fun name => t.metadata.get (pk, name)⟩

@[simp] theorem rowAt_row : (t.rowAt pk).row = t.base.get pk := rfl

@[simp] theorem rowAt_info (name : String) :
    (t.rowAt pk).info name = t.metadata.get (pk, name) := rfl

@[simp] theorem rowAt_empty : (empty table).rowAt pk = RowState.absent table := rfl

theorem metaPkexists_iff : t.metaPkexists pk = true ↔ ∃ name, (t.rowAt pk).info name ≠ none := by
  rw [metaPkexists, Keyed.existsWhere_iff]
  constructor
  · rintro ⟨k, hk, hget⟩
    exact ⟨k.2, by rw [rowAt_info, ← eq_of_beq hk]; exact hget⟩
  · rintro ⟨name, hname⟩
    exact ⟨(pk, name), beq_self_eq_true pk, hname⟩

theorem metaLocalCl_eq : t.metaLocalCl pk = (t.rowAt pk).localCl := by
  rw [metaLocalCl, RowState.localCl]
  change _ = match t.metadata.get (pk, CLOUDSYNC_TOMBSTONE_VALUE) with
    | some m => m.colVersion
    | none => _
  cases t.metadata.get (pk, CLOUDSYNC_TOMBSTONE_VALUE) with
  | some m => rfl
  | none =>
    change (if _ then _ else _) = _
    by_cases h : t.metaPkexists pk = true
    · rw [if_pos h, if_pos ((t.metaPkexists_iff pk).mp h)]
    · rw [if_neg h, if_neg (mt (t.metaPkexists_iff pk).mpr h)]

@[simp] theorem rowAt_metaSentinelInsert (dbVersion seq : ℤ) :
    (t.metaSentinelInsert pk dbVersion seq).rowAt pk' =
      if pk' = pk then
        (t.rowAt pk).setInfo CLOUDSYNC_TOMBSTONE_VALUE
          ⟨bumpVersion (t.rowAt pk).sentinel, dbVersion, 0, seq⟩
      else t.rowAt pk' := by
  split_ifs with h
  · subst h
    ext name
    · rfl
    · simp only [metaSentinelInsert, rowAt_info, Keyed.get_upsert, RowState.setInfo_info,
        Prod.mk.injEq, true_and, RowState.sentinel, bumpVersion]
      split_ifs
      · cases t.metadata.get (pk', CLOUDSYNC_TOMBSTONE_VALUE) <;> rfl
      · rfl
  · ext name <;> simp [metaSentinelInsert, h]

@[simp] theorem rowAt_metaSentinelUpdate (dbVersion seq : ℤ) :
    (t.metaSentinelUpdate dbVersion seq pk).rowAt pk' =
      if pk' = pk then
        match (t.rowAt pk).sentinel with
        | some m => (t.rowAt pk).setInfo CLOUDSYNC_TOMBSTONE_VALUE
            ⟨sentinelBump m.colVersion, dbVersion, 0, seq⟩
        | none => t.rowAt pk
      else t.rowAt pk' := by
  split_ifs with h
  · subst h
    change _ = match t.metadata.get (pk', CLOUDSYNC_TOMBSTONE_VALUE) with
      | some m => _
      | none => _
    cases hs : t.metadata.get (pk', CLOUDSYNC_TOMBSTONE_VALUE) with
    | none =>
      ext name
      · rfl
      · by_cases hn : name = CLOUDSYNC_TOMBSTONE_VALUE
        · subst hn
          simp [metaSentinelUpdate, hs]
        · simp [metaSentinelUpdate, hn]
    | some m =>
      ext name
      · rfl
      · by_cases hn : name = CLOUDSYNC_TOMBSTONE_VALUE
        · subst hn
          simp [metaSentinelUpdate, hs]
        · simp [metaSentinelUpdate, hn]
  · ext name <;> simp [metaSentinelUpdate, h]

@[simp] theorem rowAt_metaRowInsertUpdate (colName : String) (colVersion dbVersion seq : ℤ) :
    (t.metaRowInsertUpdate pk colName colVersion dbVersion seq).rowAt pk' =
      if pk' = pk then
        (t.rowAt pk).setInfo colName
          ⟨markVersion ((t.rowAt pk).info colName) colVersion, dbVersion, 0, seq⟩
      else t.rowAt pk' := by
  split_ifs with h
  · subst h
    ext name
    · rfl
    · simp only [metaRowInsertUpdate, rowAt_info, Keyed.get_upsert, RowState.setInfo_info,
        Prod.mk.injEq, true_and, markVersion]
      split_ifs
      · cases t.metadata.get (pk', colName) <;> rfl
      · rfl
  · ext name <;> simp [metaRowInsertUpdate, h]

@[simp] theorem rowAt_metaRowDrop :
    (t.metaRowDrop pk).rowAt pk' =
      if pk' = pk then (t.rowAt pk).dropColumns else t.rowAt pk' := by
  split_ifs with h
  · subst h
    apply RowState.ext
    · rfl
    · intro name
      simp only [metaRowDrop, rowAt_info, Keyed.get_deleteWhere, RowState.dropColumns_info]
      by_cases hn : name = CLOUDSYNC_TOMBSTONE_VALUE <;>
        cases t.metadata.get (pk', name) <;> simp [isColumnOf, hn]
  · apply RowState.ext
    · rfl
    · intro name
      cases hg : t.metadata.get (pk', name) <;> simp [metaRowDrop, isColumnOf, h, hg]

@[simp] theorem rowAt_metaMergeDeleteDrop :
    (t.metaMergeDeleteDrop pk).rowAt pk' =
      if pk' = pk then (t.rowAt pk).dropColumns else t.rowAt pk' :=
  t.rowAt_metaRowDrop pk pk'

@[simp] theorem rowAt_metaZeroClock (dbVersion : ℤ) :
    (t.metaZeroClock dbVersion pk).rowAt pk' =
      if pk' = pk then (t.rowAt pk).zeroColumns dbVersion else t.rowAt pk' := by
  split_ifs with h
  · subst h
    apply RowState.ext
    · rfl
    · intro name
      by_cases hn : name = CLOUDSYNC_TOMBSTONE_VALUE <;>
        cases hg : t.metadata.get (pk', name) <;> simp [metaZeroClock, isColumnOf, hn, hg]
  · apply RowState.ext
    · rfl
    · intro name
      cases hg : t.metadata.get (pk', name) <;> simp [metaZeroClock, isColumnOf, h, hg]

@[simp] theorem rowAt_metaWinnerClock (colName : String) (colVersion dbVersion seq : ℤ)
    (siteId : ℕ) :
    (t.metaWinnerClock pk colName colVersion dbVersion seq siteId).rowAt pk' =
      if pk' = pk then (t.rowAt pk).setInfo colName ⟨colVersion, dbVersion, siteId, seq⟩
      else t.rowAt pk' := by
  split_ifs with h
  · subst h
    ext name <;> simp [metaWinnerClock]
  · ext name <;> simp [metaWinnerClock, h]

@[simp] theorem rowAt_realMergeDelete :
    (t.realMergeDelete pk).rowAt pk' =
      if pk' = pk then (t.rowAt pk).setRow none else t.rowAt pk' := by
  split_ifs with h
  · subst h
    ext name
    · cases hg : t.base.get pk' <;> simp [realMergeDelete, hg]
    · rfl
  · ext name
    · cases hg : t.base.get pk' <;> simp [realMergeDelete, h, hg]
    · rfl

@[simp] theorem rowAt_realMergeSentinel :
    (t.realMergeSentinel pk).rowAt pk' =
      if pk' = pk then (t.rowAt pk).setRow (some ((t.rowAt pk).row.getD table.dflt))
      else t.rowAt pk' := by
  cases hget : t.base.get pk with
  | none =>
    rw [realMergeSentinel, hget, Option.isSome_none, if_neg Bool.false_ne_true]
    split_ifs with h
    · subst h
      ext name <;> simp [hget]
    · ext name <;> simp [h]
  | some row =>
    rw [realMergeSentinel, hget, Option.isSome_some, if_pos rfl]
    split_ifs with h
    · subst h
      ext name <;> simp [hget]
    · rfl

@[simp] theorem rowAt_colMerge (col : Fin table.ncols) (value : Value) :
    (t.colMerge pk col value).rowAt pk' =
      if pk' = pk then
        (t.rowAt pk).setRow
          (some (Function.update ((t.rowAt pk).row.getD table.dflt) col value))
      else t.rowAt pk' := by
  split_ifs with h
  · subst h
    ext name
    · cases hg : t.base.get pk' <;> simp [colMerge, hg]
    · rfl
  · ext name <;> simp [colMerge, h]


@[simp] theorem rowAt_insertBase (row : Row table) :
    (t.insertBase pk row).rowAt pk' =
      if pk' = pk then (t.rowAt pk).setRow (some row) else t.rowAt pk' := by
  split_ifs with h
  · subst h
    ext name <;> simp [insertBase]
  · ext name <;> simp [insertBase, h]

theorem rowAt_updateBase (oldpk : Pk) (row : Row table) :
    (t.updateBase oldpk pk row).rowAt pk' =
      if pk' = pk then (t.rowAt pk).setRow (some row)
      else if pk' = oldpk then (t.rowAt oldpk).setRow none
      else t.rowAt pk' := by
  split_ifs with h h'
  · subst h
    ext name <;> simp [updateBase]
  · subst h'
    apply RowState.ext
    · cases hg : t.base.get pk' <;> simp [updateBase, h, hg]
    · intro name
      rfl
  · apply RowState.ext
    · cases hg : t.base.get pk' <;> simp [updateBase, h, h', hg]
    · intro name
      rfl

/-- Metadata moves between two different keys, and no other key is touched. -/
theorem rowAt_metaUpdateMove (dbVersion seq : ℤ) {oldpk : Pk} (hne : pk ≠ oldpk) :
    (t.metaUpdateMove pk dbVersion seq oldpk).rowAt pk' =
      if pk' = pk then (t.rowAt pk).receive (t.rowAt oldpk) dbVersion seq
      else if pk' = oldpk then (t.rowAt oldpk).dropColumns
      else t.rowAt pk' := by
  have hinj : ∀ name a, isColumnOf oldpk a = true →
      (pk, a.2) = (pk, (oldpk, name).2) → a = (oldpk, name) := by
    rintro name ⟨k, name'⟩ ha he
    simp only [isColumnOf, Bool.and_eq_true, beq_iff_eq] at ha
    exact Prod.ext ha.1 (Prod.mk.inj he).2
  have hstay : ∀ name, pk' ≠ pk ∨ (t.metadata.get (oldpk, name) = none ∨
      name = CLOUDSYNC_TOMBSTONE_VALUE) → ∀ a, isColumnOf oldpk a = true →
      t.metadata.get a ≠ none → (pk, a.2) ≠ (pk', name) := by
    rintro name h ⟨k, name'⟩ ha hget he
    simp only [isColumnOf, Bool.and_eq_true, beq_iff_eq, bne_iff_ne] at ha
    simp only [Prod.mk.injEq] at he
    rw [ha.1, he.2] at hget
    rw [he.2] at ha
    rcases h with h | h | h
    · exact h he.1.symm
    · exact hget h
    · exact ha.2 h
  apply RowState.ext
  · split_ifs with h h' <;> simp_all [metaUpdateMove]
  · intro name
    simp only [metaUpdateMove, rowAt_info]
    by_cases hcol : pk' = pk ∧ t.metadata.get (oldpk, name) ≠ none ∧
        name ≠ CLOUDSYNC_TOMBSTONE_VALUE
    · rcases hcol with ⟨rfl, hget, hname⟩
      rcases Option.ne_none_iff_exists'.mp hget with ⟨m, hm⟩
      have hmove := t.metadata.get_moveWhere_of_get (isColumnOf oldpk) (fun k => (pk', k.2))
        (fun _ => (⟨1, dbVersion, 0, seq⟩ : MetaRow)) (oldpk, name) m
        (by simp [isColumnOf, hname]) hm (hinj name)
      rw [if_pos rfl, RowState.receive_info, if_neg hname, rowAt_info, if_neg hget]
      exact hmove
    · have hmoved : pk' ≠ pk ∨ (t.metadata.get (oldpk, name) = none ∨
          name = CLOUDSYNC_TOMBSTONE_VALUE) := by
        by_contra hnot
        rw [not_or, not_or, not_not] at hnot
        exact hcol hnot
      rw [Keyed.get_moveWhere_of_ne _ _ _ _ _ (hstay name hmoved)]
      split_ifs with hp h h' h h'
      · simp only [isColumnOf, Bool.and_eq_true, beq_iff_eq] at hp
        exact absurd (h.symm.trans hp.1) hne
      · simp only [isColumnOf, Bool.and_eq_true, beq_iff_eq, bne_iff_ne] at hp
        simp [hp.2]
      · simp only [isColumnOf, Bool.and_eq_true, beq_iff_eq] at hp
        exact absurd hp.1 h'
      · rw [RowState.receive_info]
        subst h
        rcases hmoved with hm | hm | hm
        · exact absurd rfl hm
        · simp [hm]
        · simp [hm]
      · subst h'
        simp only [isColumnOf, beq_self_eq_true, Bool.true_and, bne_iff_ne, not_not] at hp
        simp [hp]
      · rfl

end Table
end SqliteSync.Store
