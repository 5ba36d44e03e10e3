import SqliteSync.Store.Local
import SqliteSync.Store.Effect

/-!
# A local statement, row by row

What the trigger of a changed row does to the metadata of its primary key, and
of the old one when the key changes, as transitions of the two rows.
-/
namespace SqliteSync.Store
open Library Clock

theorem changedColumns_nodup {table : TableContext} (row oldRow : Row table) :
    (changedColumns row oldRow).Nodup :=
  (List.nodup_finRange _).filter _

namespace RowState
variable {table : TableContext}

def markDeleted (s : RowState table) (dbVersion seq : ℤ) : RowState table :=
  s.setInfo CLOUDSYNC_TOMBSTONE_VALUE ⟨markVersion s.sentinel 2, dbVersion, 0, seq⟩

def markAlive (s : RowState table) (dbVersion seq : ℤ) : RowState table :=
  s.setInfo CLOUDSYNC_TOMBSTONE_VALUE ⟨bumpVersion s.sentinel, dbVersion, 0, seq⟩

def bumpAlive (s : RowState table) (dbVersion seq : ℤ) : RowState table :=
  match s.sentinel with
  | some _ => s.markAlive dbVersion seq
  | none => s

open Classical in
/-- The clocks of some columns move on. -/
noncomputable def markColumns (s : RowState table) (cols : List (Fin table.ncols))
    (dbVersion : ℤ) (seq : String → ℤ) : RowState table :=
  { s with
    info := fun name =>
      if ∃ col ∈ cols, table.colName col = name then
        some ⟨markVersion (s.info name) 1, dbVersion, 0, seq name⟩
      else s.info name }

@[simp] theorem markDeleted_row (s : RowState table) (dbVersion seq : ℤ) :
    (s.markDeleted dbVersion seq).row = s.row := rfl

@[simp] theorem markAlive_row (s : RowState table) (dbVersion seq : ℤ) :
    (s.markAlive dbVersion seq).row = s.row := rfl

@[simp] theorem bumpAlive_row (s : RowState table) (dbVersion seq : ℤ) :
    (s.bumpAlive dbVersion seq).row = s.row := by
  rw [bumpAlive]
  cases s.sentinel <;> rfl

@[simp] theorem markColumns_row (s : RowState table) (cols : List (Fin table.ncols))
    (dbVersion : ℤ) (seq : String → ℤ) : (s.markColumns cols dbVersion seq).row = s.row := rfl

theorem markColumns_of_mem (s : RowState table) {cols : List (Fin table.ncols)}
    {col : Fin table.ncols} (h : col ∈ cols) (dbVersion : ℤ) (seq : String → ℤ) :
    (s.markColumns cols dbVersion seq).info (table.colName col) =
      some ⟨markVersion (s.info (table.colName col)) 1, dbVersion, 0,
        seq (table.colName col)⟩ := by
  rw [markColumns]
  exact if_pos ⟨col, h, rfl⟩

theorem markColumns_of_notMem (s : RowState table) {cols : List (Fin table.ncols)} {name : String}
    (h : ∀ col ∈ cols, table.colName col ≠ name) (dbVersion : ℤ) (seq : String → ℤ) :
    (s.markColumns cols dbVersion seq).info name = s.info name := by
  rw [markColumns]
  exact if_neg fun ⟨col, hcol, he⟩ => h col hcol he

@[simp] theorem markColumns_sentinel (s : RowState table) (cols : List (Fin table.ncols))
    (dbVersion : ℤ) (seq : String → ℤ) :
    (s.markColumns cols dbVersion seq).sentinel = s.sentinel :=
  s.markColumns_of_notMem (fun col _ => colName_ne_tombstone table col) dbVersion seq

noncomputable def inserted (s : RowState table) (dbVersion seq₀ : ℤ) (seq : String → ℤ) :
    RowState table :=
  (if table.ncols = 0 then s.markAlive dbVersion seq₀ else s.bumpAlive dbVersion seq₀).markColumns
    (List.finRange table.ncols) dbVersion seq

def deleted (s : RowState table) (dbVersion seq : ℤ) : RowState table :=
  (s.markDeleted dbVersion seq).dropColumns

noncomputable def arrived (s old : RowState table) (cols : List (Fin table.ncols))
    (dbVersion seqMove seqAlive : ℤ) (seq : String → ℤ) : RowState table :=
  ((s.receive old dbVersion seqMove).markAlive dbVersion seqAlive).markColumns cols dbVersion seq

end RowState

section
variable {n : ℕ} {schema : Fin n → TableContext}

/-- From `r₀`, steps of a local statement on table `i` have led to `r`, whose
table holds `rows`. -/
structure Holds (r₀ r : Replica schema) (i : Fin n) (rows : Pk → RowState (schema i))
    (versions : List ℤ) : Prop where
  tables : ∀ j ≠ i, r.table j = r₀.table j
  rowAt : ∀ pk, (r.table i).rowAt pk = rows pk
  clocked : Clocked r₀ r versions
  siteIds : r.siteIds = r₀.siteIds

namespace Holds
variable {r₀ r : Replica schema} {i : Fin n} {rows : Pk → RowState (schema i)}
  {versions : List ℤ}

theorem refl (r : Replica schema) (i : Fin n) :
    Holds r r i (fun pk => (r.table i).rowAt pk) [] :=
  ⟨fun _ _ => rfl, fun _ => rfl, .refl r, rfl⟩

theorem setTable (h : Holds r₀ r i rows versions) {t : Table (schema i)}
    (hm : versions = [] → t.metadata = (r.table i).metadata) {rows' : Pk → RowState (schema i)}
    (ht : ∀ pk, t.rowAt pk = rows' pk) : Holds r₀ (r.setTable i t) i rows' versions where
  tables j hj := (Replica.setTable_table_of_ne r hj t).trans (h.tables j hj)
  rowAt pk := by rw [Replica.setTable_table_self, ht]
  clocked := h.clocked.write rfl rfl rfl fun hv => view_setTable_of_metadata (hm hv)
  siteIds := h.siteIds

theorem setTable_at (h : Holds r₀ r i rows versions) (hv : versions ≠ []) {t : Table (schema i)}
    {pk : Pk} {s : RowState (schema i)}
    (ht : ∀ pk', t.rowAt pk' = if pk' = pk then s else (r.table i).rowAt pk') :
    Holds r₀ (r.setTable i t) i (Function.update rows pk s) versions := by
  apply h.setTable fun hnil => absurd hnil hv
  intro pk'
  rw [ht, Function.update_apply, h.rowAt]

theorem bumpSeq (h : Holds r₀ r i rows versions) : Holds r₀ r.bumpSeq.2 i rows versions :=
  ⟨h.tables, h.rowAt, h.clocked.bumpSeq, h.siteIds⟩

theorem request (h : Holds r₀ r i rows versions) (mergingVersion : ℤ) :
    Holds r₀ (r.dbVersionNext mergingVersion).2 i rows
      ((r.dbVersionNext mergingVersion).1 :: versions) :=
  ⟨h.tables, h.rowAt, h.clocked.request mergingVersion, h.siteIds⟩

/-- The columns are marked one by one, each under a sequence number of its own. -/
theorem markColumns (h : Holds r₀ r i rows versions) (hv : versions ≠ []) (pk : Pk)
    (dbVersion : ℤ) {cols : List (Fin (schema i).ncols)} (hnodup : cols.Nodup) :
    ∃ seq : String → ℤ, (∀ name, r.data.seq ≤ seq name) ∧
      Holds r₀ (Store.markColumns r i pk dbVersion cols) i
        (Function.update rows pk ((rows pk).markColumns cols dbVersion seq)) versions := by
  induction cols generalizing r rows with
  | nil =>
    refine ⟨fun _ => r.data.seq, fun _ => le_rfl, ?_⟩
    have hsame : (rows pk).markColumns [] dbVersion (fun _ => r.data.seq) = rows pk := by
      ext name <;> simp [RowState.markColumns]
    rw [hsame, Function.update_eq_self]
    exact h
  | cons col cols ih =>
    rw [List.nodup_cons] at hnodup
    have hstep := h.bumpSeq.setTable_at hv (t := (r.bumpSeq.2.table i).metaRowInsertUpdate pk
      ((schema i).colName col) 1 dbVersion r.bumpSeq.1)
      (fun pk' => (r.bumpSeq.2.table i).rowAt_metaRowInsertUpdate pk pk' ((schema i).colName col)
        1 dbVersion r.bumpSeq.1)
    rw [h.bumpSeq.rowAt] at hstep
    rcases ih hstep hnodup.2 with ⟨seq, hseq, hrest⟩
    refine ⟨Function.update seq ((schema i).colName col) r.bumpSeq.1, ?_, ?_⟩
    · intro name
      rw [Function.update_apply]
      split_ifs
      · exact le_rfl
      · exact (Int.le_add_one le_rfl).trans (hseq name)
    · have hstate : (Function.update rows pk ((rows pk).setInfo ((schema i).colName col)
          ⟨markVersion ((rows pk).info ((schema i).colName col)) 1, dbVersion, 0, r.bumpSeq.1⟩)
            pk).markColumns cols dbVersion seq =
          (rows pk).markColumns (col :: cols) dbVersion
            (Function.update seq ((schema i).colName col) r.bumpSeq.1) := by
        rw [Function.update_self]
        apply RowState.ext
        · rfl
        · intro name
          by_cases hname : (schema i).colName col = name
          · subst hname
            rw [RowState.markColumns_of_notMem, RowState.markColumns_of_mem _ List.mem_cons_self]
            · simp
            · intro col' hcol' he
              rw [(schema i).colName_injective he] at hcol'
              exact hnodup.1 hcol'
          · simp only [RowState.markColumns, RowState.setInfo_info, List.mem_cons,
              exists_eq_or_imp, hname, false_or, if_neg (Ne.symm hname),
              Function.update_of_ne (Ne.symm hname)]
      rw [hstate, Function.update_idem] at hrest
      exact hrest

theorem withSeq (h : Holds r₀ r i rows versions) (hv : versions ≠ [])
    {f : Replica schema → ℤ → Table (schema i)} {pk : Pk} {s : RowState (schema i)}
    (hf : ∀ pk', (f r.bumpSeq.2 r.data.seq).rowAt pk' =
      if pk' = pk then s else (r.table i).rowAt pk') :
    Holds r₀ (Store.withSeq r fun r seq => r.setTable i (f r seq)) i
      (Function.update rows pk s) versions :=
  h.bumpSeq.setTable_at hv hf

theorem markDeleted (h : Holds r₀ r i rows versions) (hv : versions ≠ []) (pk : Pk)
    (dbVersion : ℤ) :
    Holds r₀ (Store.withSeq r fun r seq => localMarkDeleteMeta r i pk dbVersion seq) i
      (Function.update rows pk ((rows pk).markDeleted dbVersion r.data.seq)) versions := by
  apply h.withSeq hv
  intro pk'
  rw [← h.rowAt]
  exact (r.table i).rowAt_metaRowInsertUpdate pk pk' CLOUDSYNC_TOMBSTONE_VALUE 2 dbVersion
    r.data.seq

theorem markAlive (h : Holds r₀ r i rows versions) (hv : versions ≠ []) (pk : Pk)
    (dbVersion : ℤ) :
    Holds r₀ (Store.withSeq r fun r seq => localMarkInsertSentinelMeta r i pk dbVersion seq) i
      (Function.update rows pk ((rows pk).markAlive dbVersion r.data.seq)) versions := by
  apply h.withSeq hv
  intro pk'
  rw [← h.rowAt]
  exact (r.table i).rowAt_metaSentinelInsert pk pk' dbVersion r.data.seq

theorem bumpAlive (h : Holds r₀ r i rows versions) (hv : versions ≠ []) (pk : Pk)
    (dbVersion : ℤ) :
    Holds r₀ (Store.withSeq r fun r seq => localUpdateSentinel r i pk dbVersion seq) i
      (Function.update rows pk ((rows pk).bumpAlive dbVersion r.data.seq)) versions := by
  apply h.withSeq hv
  intro pk'
  rw [← h.rowAt, RowState.bumpAlive]
  refine ((r.table i).rowAt_metaSentinelUpdate pk pk' dbVersion r.data.seq).trans ?_
  cases hs : ((r.table i).rowAt pk).sentinel with
  | none => rfl
  | some m => simp [RowState.markAlive, bumpVersion, hs]

theorem cloudsyncInsert (h : Holds r₀ r i rows []) (pk : Pk) :
    ∃ seq₀, ∃ seq : String → ℤ, r.data.seq ≤ seq₀ ∧ (∀ name, r.data.seq ≤ seq name) ∧
      Holds r₀ (Store.cloudsyncInsert r i pk) i
        (Function.update rows pk ((rows pk).inserted
          (r.dbVersionNext CLOUDSYNC_VALUE_NOTSET).1 seq₀ seq))
        [(r.dbVersionNext CLOUDSYNC_VALUE_NOTSET).1] := by
  have hnext := h.request CLOUDSYNC_VALUE_NOTSET
  have hseq : (r.dbVersionNext CLOUDSYNC_VALUE_NOTSET).2.data.seq = r.data.seq := by
    simp [Replica.dbVersionNext, Clock.dbVersionNext]
  generalize hr : r.dbVersionNext CLOUDSYNC_VALUE_NOTSET = next at *
  have hv : [next.1] ≠ [] := List.cons_ne_nil _ _
  -- what happens to the sentinel, before the columns are marked
  have hsentinel : ∃ r', Holds r₀ r' i (Function.update rows pk (if (schema i).ncols = 0 then
      (rows pk).markAlive next.1 r.data.seq else (rows pk).bumpAlive next.1 r.data.seq)) [next.1] ∧
      r.data.seq ≤ r'.data.seq ∧ Store.cloudsyncInsert r i pk =
        Store.markColumns r' i pk next.1 (List.finRange (schema i).ncols) := by
    simp only [Store.cloudsyncInsert, hr]
    split_ifs with hcols hexists
    · have halive := hnext.markAlive hv pk next.1
      rw [hseq] at halive
      exact ⟨_, halive, hseq ▸ Int.le_add_one le_rfl, rfl⟩
    · have hbump := hnext.bumpAlive hv pk next.1
      rw [hseq] at hbump
      exact ⟨_, hbump, hseq ▸ Int.le_add_one le_rfl, rfl⟩
    · have hnone : (rows pk).bumpAlive next.1 r.data.seq = rows pk := by
        rw [RowState.bumpAlive]
        cases hs : (rows pk).sentinel with
        | none => rfl
        | some m =>
          refine absurd ((next.2.table i).metaPkexists_iff pk |>.mpr ?_) hexists
          refine ⟨CLOUDSYNC_TOMBSTONE_VALUE, ?_⟩
          rw [hnext.rowAt]
          exact (Option.some_ne_none m) ∘ (hs.symm.trans ·)
      rw [hnone, Function.update_eq_self]
      exact ⟨next.2, hnext, hseq.ge, rfl⟩
  rcases hsentinel with ⟨r', h', hle, he⟩
  rcases h'.markColumns hv pk next.1 (List.nodup_finRange _) with ⟨seq, hseq', hmarked⟩
  refine ⟨r.data.seq, seq, le_rfl, fun name => hle.trans (hseq' name), ?_⟩
  rw [he]
  rw [Function.update_self, Function.update_idem] at hmarked
  exact hmarked

theorem cloudsyncDelete (h : Holds r₀ r i rows []) (pk : Pk) :
    Holds r₀ (Store.cloudsyncDelete r i pk) i
      (Function.update rows pk ((rows pk).deleted
        (r.dbVersionNext CLOUDSYNC_VALUE_NOTSET).1 r.data.seq))
      [(r.dbVersionNext CLOUDSYNC_VALUE_NOTSET).1] := by
  have hnext := h.request CLOUDSYNC_VALUE_NOTSET
  have hseq : (r.dbVersionNext CLOUDSYNC_VALUE_NOTSET).2.data.seq = r.data.seq := by
    simp [Replica.dbVersionNext, Clock.dbVersionNext]
  have hv : [(r.dbVersionNext CLOUDSYNC_VALUE_NOTSET).1] ≠ [] := List.cons_ne_nil _ _
  have hmarked := hnext.markDeleted hv pk (r.dbVersionNext CLOUDSYNC_VALUE_NOTSET).1
  rw [hseq] at hmarked
  have hdropped := hmarked.setTable_at hv (fun pk' => Table.rowAt_metaRowDrop _ pk pk')
  rw [hmarked.rowAt, Function.update_self, Function.update_idem] at hdropped
  exact hdropped

theorem cloudsyncUpdate (h : Holds r₀ r i rows []) {pk oldpk : Pk}
    (hsame : prikeyChanged pk oldpk = false) (row oldRow : Row (schema i)) :
    ∃ seq : String → ℤ, (∀ name, r.data.seq ≤ seq name) ∧
      Holds r₀ (Store.cloudsyncUpdate r i pk oldpk row oldRow) i
        (Function.update rows pk ((rows pk).markColumns (changedColumns row oldRow)
          (r.dbVersionNext CLOUDSYNC_VALUE_NOTSET).1 seq))
        [(r.dbVersionNext CLOUDSYNC_VALUE_NOTSET).1] := by
  have hnext := h.request CLOUDSYNC_VALUE_NOTSET
  have hseq : (r.dbVersionNext CLOUDSYNC_VALUE_NOTSET).2.data.seq = r.data.seq := by
    simp [Replica.dbVersionNext, Clock.dbVersionNext]
  rcases hnext.markColumns (List.cons_ne_nil _ _) pk (r.dbVersionNext CLOUDSYNC_VALUE_NOTSET).1
    (changedColumns_nodup row oldRow) with ⟨seq, hle, h'⟩
  refine ⟨seq, fun name => hseq ▸ hle name, ?_⟩
  simp only [Store.cloudsyncUpdate, hsame, Bool.false_eq_true, if_false]
  exact h'

theorem cloudsyncUpdate_moved (h : Holds r₀ r i rows []) {pk oldpk : Pk}
    (hmoved : prikeyChanged pk oldpk = true) (hne : pk ≠ oldpk) (row oldRow : Row (schema i)) :
    ∃ seqMove seqAlive, ∃ seq : String → ℤ, r.data.seq ≤ seqMove ∧ r.data.seq ≤ seqAlive ∧
      (∀ name, r.data.seq ≤ seq name) ∧
      Holds r₀ (Store.cloudsyncUpdate r i pk oldpk row oldRow) i
        (Function.update (Function.update rows oldpk ((rows oldpk).deleted
            (r.dbVersionNext CLOUDSYNC_VALUE_NOTSET).1 r.data.seq)) pk
          ((rows pk).arrived (rows oldpk) (changedColumns row oldRow)
            (r.dbVersionNext CLOUDSYNC_VALUE_NOTSET).1 seqMove seqAlive seq))
        [(r.dbVersionNext CLOUDSYNC_VALUE_NOTSET).1] := by
  have hnext := h.request CLOUDSYNC_VALUE_NOTSET
  have hseq : (r.dbVersionNext CLOUDSYNC_VALUE_NOTSET).2.data.seq = r.data.seq := by
    simp [Replica.dbVersionNext, Clock.dbVersionNext]
  have hv : [(r.dbVersionNext CLOUDSYNC_VALUE_NOTSET).1] ≠ [] := List.cons_ne_nil _ _
  generalize hr : r.dbVersionNext CLOUDSYNC_VALUE_NOTSET = next at *
  have hdeleted := hnext.markDeleted hv oldpk next.1
  rw [hseq] at hdeleted
  generalize hr₁ : (Store.withSeq next.2 fun r seq =>
    localMarkDeleteMeta r i oldpk next.1 seq) = r₁ at hdeleted
  have hseq₁ : r₁.data.seq = r.data.seq + 1 := by
    rw [← hr₁, ← hseq]
    rfl
  -- the metadata of the old key arrives, but for the sentinel just marked
  have hmove : Holds r₀ (localUpdateMoveMeta r₁ i pk oldpk next.1) i
      (Function.update (Function.update rows oldpk ((rows oldpk).deleted next.1 r.data.seq)) pk
        ((rows pk).receive (rows oldpk) next.1 r₁.data.seq)) [next.1] := by
    apply hdeleted.bumpSeq.setTable fun hnil => absurd hnil hv
    intro pk'
    rw [Table.rowAt_metaUpdateMove _ _ _ _ _ hne]
    simp only [Replica.bumpSeq_table, hdeleted.rowAt, Function.update_apply, if_neg hne]
    split_ifs with h₁ h₂
    · apply RowState.ext
      · rfl
      · intro name
        simp only [RowState.receive_info, RowState.markDeleted, RowState.setInfo_info]
        split_ifs <;> rfl
    · rfl
    · rfl
  generalize hr₂ : localUpdateMoveMeta r₁ i pk oldpk next.1 = r₂ at hmove
  have hseq₂ : r₂.data.seq = r₁.data.seq + 1 := by
    rw [← hr₂]
    rfl
  have halive := hmove.markAlive hv pk next.1
  rw [Function.update_self, Function.update_idem] at halive
  rcases halive.markColumns hv pk next.1 (changedColumns_nodup row oldRow) with ⟨seq, hle, hmarked⟩
  rw [Function.update_self, Function.update_idem] at hmarked
  refine ⟨r₁.data.seq, r₂.data.seq, seq, by omega, by omega, ?_, ?_⟩
  · intro name
    have hle' : r₂.data.seq + 1 ≤ seq name := hle name
    omega
  · simp only [Store.cloudsyncUpdate, hmoved, if_true, hr, hr₁, hr₂]
    exact hmarked

end Holds

/-- The rows of a table by key. -/
def Replica.rows (r : Replica schema) (i : Fin n) : Pk → RowState (schema i) :=
  fun pk => (r.table i).rowAt pk

end

section
variable {table : TableContext}

/-- One row of a local statement as a transition of the rows of its table. What
it writes is stamped with `dbVersion` and sequence numbers from `seq₀` on. -/
inductive RowStep (dbVersion seq₀ : ℤ) (rows : Pk → RowState table) :
    RowChange table → (Pk → RowState table) → Prop
  | insert {orReplace : Bool} {pk : Pk} (row : Row table)
      (hfree : orReplace = true ∨ (rows pk).row = none) {seq₁ : ℤ} {seq : String → ℤ}
      (hseq₁ : seq₀ ≤ seq₁) (hseq : ∀ name, seq₀ ≤ seq name) :
      RowStep dbVersion seq₀ rows (.insert orReplace pk row)
        (Function.update rows pk (((rows pk).setRow (some row)).inserted dbVersion seq₁ seq))
  | update {orReplace : Bool} {pk : Pk} (row : Row table) {oldRow : Row table}
      (hold : (rows pk).row = some oldRow) {seq : String → ℤ} (hseq : ∀ name, seq₀ ≤ seq name) :
      RowStep dbVersion seq₀ rows (.update orReplace pk pk row)
        (Function.update rows pk (((rows pk).setRow (some row)).markColumns
          (changedColumns row oldRow) dbVersion seq))
  | move {orReplace : Bool} {oldpk pk : Pk} (hne : pk ≠ oldpk) (row : Row table)
      {oldRow : Row table} (hold : (rows oldpk).row = some oldRow)
      (hfree : orReplace = true ∨ (rows pk).row = none) {seq₁ seq₂ seq₃ : ℤ} {seq : String → ℤ}
      (hseq₁ : seq₀ ≤ seq₁) (hseq₂ : seq₀ ≤ seq₂) (hseq₃ : seq₀ ≤ seq₃)
      (hseq : ∀ name, seq₀ ≤ seq name) :
      RowStep dbVersion seq₀ rows (.update orReplace oldpk pk row)
        (Function.update (Function.update rows oldpk
            (((rows oldpk).setRow none).deleted dbVersion seq₁)) pk
          (((rows pk).setRow (some row)).arrived (rows oldpk) (changedColumns row oldRow) dbVersion
            seq₂ seq₃ seq))
  | delete {pk : Pk} (hold : (rows pk).row ≠ none) {seq₁ : ℤ} (hseq₁ : seq₀ ≤ seq₁) :
      RowStep dbVersion seq₀ rows (.delete pk)
        (Function.update rows pk (((rows pk).setRow none).deleted dbVersion seq₁))

def RowChange.KeyDetected : RowChange table → Prop
  | .update _ oldpk pk _ => pk ≠ oldpk → prikeyChanged pk oldpk = true
  | _ => True

theorem prikeyChanged_self (pk : Pk) : prikeyChanged pk pk = false := by
  rw [prikeyChanged, List.any_eq_false]
  rintro ⟨a, b⟩ hv
  have hab : a = b := by
    rw [List.zip_eq_zipWith] at hv
    simp only [List.zipWith_self, List.mem_map] at hv
    rcases hv with ⟨x, -, hx⟩
    rw [← (Prod.mk.inj hx).1, ← (Prod.mk.inj hx).2]
  simp [hab]

end

section
variable {n : ℕ} {schema : Fin n → TableContext}

/-- Triggers record what happens to a table: it is synchronised, and no merge is under way. -/
structure Recording (r : Replica schema) (i : Fin n) : Prop where
  cls : (schema i).algo ≠ .crdtGos
  insync : r.data.insync = false
  enabled : r.enabled i = true

theorem Recording.isSync_setTable {r : Replica schema} {i : Fin n} (h : Recording r i)
    (t : Table (schema i)) : (r.setTable i t).cloudsyncIsSync i = false := by
  have hen : (r.setTable i t).enabled i = r.enabled i := rfl
  simp [Replica.cloudsyncIsSync, h.insync, hen, h.enabled]

/-- The base table changes before the trigger fires, and the trigger finds the
clock as it was. -/
theorem Holds.writeBase {r : Replica schema} {i : Fin n} {t : Table (schema i)}
    (hm : t.metadata = (r.table i).metadata) {rows : Pk → RowState (schema i)}
    (ht : ∀ pk, t.rowAt pk = rows pk) :
    Holds r (r.setTable i t) i rows [] ∧
      ((r.setTable i t).dbVersionNext CLOUDSYNC_VALUE_NOTSET).1 =
        (r.dbVersionNext CLOUDSYNC_VALUE_NOTSET).1 := by
  refine ⟨(Holds.refl r i).setTable (fun _ => hm) ht, ?_⟩
  rw [Replica.dbVersionNext, view_setTable_of_metadata hm, Replica.setTable_data,
    Replica.dbVersionNext]

theorem applyRowChange_insert {r r' : Replica schema} {i : Fin n}
    (hsync : ∀ t, (r.setTable i t).cloudsyncIsSync i = false) {orReplace : Bool} {pk : Pk}
    {row : Row (schema i)} (h : applyRowChange r i (.insert orReplace pk row) = some r') :
    (orReplace = true ∨ (r.rows i pk).row = none) ∧
      ∃ seq₁, ∃ seq : String → ℤ, r.data.seq ≤ seq₁ ∧ (∀ name, r.data.seq ≤ seq name) ∧
        Holds r r' i (Function.update (r.rows i) pk (((r.rows i pk).setRow (some row)).inserted
            (r.dbVersionNext CLOUDSYNC_VALUE_NOTSET).1 seq₁ seq))
          [(r.dbVersionNext CLOUDSYNC_VALUE_NOTSET).1] := by
  simp only [applyRowChange, hsync, Bool.false_eq_true, if_false, Option.ite_none_left_eq_some,
    Option.some.injEq] at h
  rcases h with ⟨hfree, rfl⟩
  rcases Holds.writeBase (r := r) (i := i) (t := (r.table i).insertBase pk row) rfl
    (fun pk' => (r.table i).rowAt_insertBase pk pk' row) with ⟨hbase, hversion⟩
  rcases hbase.cloudsyncInsert pk with ⟨seq₁, seq, hseq₁, hseq, hfinal⟩
  rw [hversion] at hfinal
  refine ⟨?_, seq₁, seq, hseq₁, hseq, ?_⟩
  · cases orReplace with
    | true => exact .inl rfl
    | false => exact .inr (not_not.mp fun hne => hfree ⟨hne, rfl⟩)
  · convert hfinal using 1
    funext pk'
    simp only [Function.update_apply, Replica.rows]
    split_ifs <;> rfl

theorem applyRowChange_rowStep {r r' : Replica schema} {i : Fin n} (hrec : Recording r i)
    {c : RowChange (schema i)} (hkey : c.KeyDetected) (h : applyRowChange r i c = some r') :
    ∃ rows', RowStep (r.dbVersionNext CLOUDSYNC_VALUE_NOTSET).1 r.data.seq (r.rows i) c rows' ∧
      Holds r r' i rows' [(r.dbVersionNext CLOUDSYNC_VALUE_NOTSET).1] := by
  have hoff : ¬ ((schema i).algo = .crdtGos ∨ r.cloudsyncIsSync i = true) :=
    not_or.mpr ⟨hrec.cls, Bool.not_eq_true _ ▸ hrec.isSync_setTable (r.table i)⟩
  cases applyRowChange_applied h with
  | insert orReplace pk row _ =>
    rcases applyRowChange_insert hrec.isSync_setTable h with ⟨hfree, seq₁, seq, hseq₁, hseq, hfinal⟩
    exact ⟨_, .insert row hfree hseq₁ hseq, hfinal⟩
  | update orReplace oldpk pk row oldRow hold hfree =>
    rw [if_neg hoff]
    rcases Holds.writeBase (r := r) (i := i) (t := (r.table i).updateBase oldpk pk row) rfl
      (fun pk' => (r.table i).rowAt_updateBase pk pk' oldpk row) with ⟨hbase, hversion⟩
    by_cases hne : pk = oldpk
    · subst hne
      rcases hbase.cloudsyncUpdate (prikeyChanged_self pk) row oldRow with ⟨seq, hseq, hfinal⟩
      rw [hversion] at hfinal
      refine ⟨_, .update row hold hseq, ?_⟩
      convert hfinal using 1
      funext pk'
      simp only [Function.update_apply, Replica.rows]
      split_ifs <;> rfl
    · rcases hbase.cloudsyncUpdate_moved (hkey hne) hne row oldRow with
        ⟨seqMove, seqAlive, seq, hmove, halive, hseq, hfinal⟩
      rw [hversion] at hfinal
      refine ⟨_, .move hne row hold ?_ (le_refl r.data.seq) hmove halive hseq, ?_⟩
      · cases orReplace with
        | true => exact .inl rfl
        | false => exact .inr (not_not.mp fun hnone => hfree ⟨hne, hnone, rfl⟩)
      · convert hfinal using 1
        funext pk'
        simp only [Function.update_apply, Replica.rows, if_neg (Ne.symm hne)]
        split_ifs <;> rfl
  | delete pk oldRow hold =>
    rw [if_neg hoff]
    rcases Holds.writeBase (r := r) (i := i) (t := (r.table i).realMergeDelete pk) rfl
      (fun pk' => (r.table i).rowAt_realMergeDelete pk pk') with ⟨hbase, hversion⟩
    have hfinal := hbase.cloudsyncDelete pk
    rw [hversion] at hfinal
    refine ⟨_, .delete ?_ (le_refl r.data.seq), ?_⟩
    · exact (Option.some_ne_none oldRow) ∘ (hold.symm.trans ·)
    · convert hfinal using 1
      funext pk'
      simp only [Function.update_apply, Replica.rows]
      split_ifs <;> rfl

end
end SqliteSync.Store
