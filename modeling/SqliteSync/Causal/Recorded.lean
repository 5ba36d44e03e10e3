import SqliteSync.Library.Distinct
import SqliteSync.Store.LocalRow

/-!
# The stamps of a local write

A metadata row is stamped with a db version and a sequence number. A local write
gets one db version, and stamps the rows it records with the numbers its
transaction has not used: they stay apart from all that was stored, except for
the rows that move to another key together.
-/
namespace SqliteSync.Store
open Library Clock

/-- `(db_version, seq)`. -/
def MetaRow.stamp (m : MetaRow) : ℤ × ℤ := (m.dbVersion, m.seq)

/-- A row of the metadata of some table. -/
abbrev Place (n : ℕ) := Fin n × (Pk × String)

variable {n : ℕ} {schema : Fin n → TableContext}

def Replica.metaAt (r : Replica schema) (q : Place n) : Option MetaRow :=
  (r.table q.1).metadata.get q.2

theorem metaAt_setTable (r : Replica schema) (i : Fin n) (t : Table (schema i)) (q : Place n) :
    (r.setTable i t).metaAt q = if q.1 = i then t.metadata.get q.2 else r.metaAt q := by
  rcases q with ⟨j, k⟩
  by_cases hj : j = i
  · subst hj
    rw [if_pos rfl, Replica.metaAt, Replica.setTable_table_self]
  · rw [if_neg hj, Replica.metaAt, Replica.setTable_table_of_ne r hj, Replica.metaAt]

@[simp] theorem dbVersionNext_seq (r : Replica schema) (mergingVersion : ℤ) :
    (r.dbVersionNext mergingVersion).2.data.seq = r.data.seq :=
  dbVersionCheckUptodate_seq r.view r.data

def Replica.insertNumbers (r : Replica schema) (i : Fin n) (pk : Pk) : ℕ :=
  (if (schema i).ncols = 0 ∨ (r.table i).metaPkexists pk = true then 1 else 0) + (schema i).ncols

def updateNumbers {table : TableContext} (pk oldpk : Pk) (row oldRow : Row table) : ℕ :=
  (if prikeyChanged pk oldpk then 3 else 0) + (changedColumns row oldRow).length

def Replica.HasOneColumn (r : Replica schema) (i : Fin n) (pk : Pk) : Prop :=
  ∀ name name', name ≠ CLOUDSYNC_TOMBSTONE_VALUE → name' ≠ CLOUDSYNC_TOMBSTONE_VALUE →
    r.metaAt (i, pk, name) ≠ none → r.metaAt (i, pk, name') ≠ none → name = name'

theorem metaAt_setTable_of_metadata {r : Replica schema} {i : Fin n} {t : Table (schema i)}
    (ht : t.metadata = (r.table i).metadata) : (r.setTable i t).metaAt = r.metaAt := by
  funext q
  rw [metaAt_setTable]
  split_ifs with hq
  · rw [ht, Replica.metaAt, hq]
  · rfl

/-- From `r₀`, a local write at the db version `v` has led to `r`: the stamps are
still distinct, and the numbers from `r.data.seq` up to `limit` are free at that version. -/
structure Recorded (r₀ r : Replica schema) (v limit : ℤ) : Prop where
  distinct : Distinct MetaRow.stamp r.metaAt
  free : ∀ q m, r.metaAt q = some m → m.dbVersion = v → m.seq < r.data.seq ∨ limit ≤ m.seq
  rows : ∀ q m, r.metaAt q = some m → m.dbVersion = v ∨ r₀.metaAt q = some m
  data : r.data = { r₀.data with seq := r.data.seq }
  seq : r₀.data.seq ≤ r.data.seq
  dataVersion : r.dataVersion = r₀.dataVersion

namespace Recorded
variable {r₀ r : Replica schema} {v limit : ℤ} {i : Fin n}

theorem shrink (h : Recorded r₀ r v limit) {t : Table (schema i)}
    (ht : ∀ k m, t.metadata.get k = some m → (r.table i).metadata.get k = some m) :
    Recorded r₀ (r.setTable i t) v limit := by
  have hsub : ∀ q m, (r.setTable i t).metaAt q = some m → r.metaAt q = some m := by
    rintro ⟨j, k⟩ m hm
    rw [metaAt_setTable] at hm
    split_ifs at hm with hj
    · dsimp only at hj
      subst hj
      exact ht k m hm
    · exact hm
  exact ⟨h.distinct.mono hsub, fun q m hm => h.free q m (hsub q m hm),
    fun q m hm => h.rows q m (hsub q m hm), h.data, h.seq, h.dataVersion⟩

theorem mark (h : Recorded r₀ r v limit) (hlimit : r.data.seq < limit) {t : Table (schema i)}
    (k₀ : Pk × String)
    (ht : ∀ k m, t.metadata.get k = some m → k = k₀ ∧ m.stamp = (v, r.data.seq) ∨
      (r.table i).metadata.get k = some m) :
    Recorded r₀ (r.bumpSeq.2.setTable i t) v limit := by
  have hrows : ∀ q m, (r.bumpSeq.2.setTable i t).metaAt q = some m →
      q = (i, k₀) ∧ m.stamp = (v, r.data.seq) ∨ r.metaAt q = some m := by
    rintro ⟨j, k⟩ m hm
    rw [metaAt_setTable] at hm
    split_ifs at hm with hj
    · dsimp only at hj
      subst hj
      rcases ht k m hm with ⟨rfl, hstamp⟩ | hold
      · exact .inl ⟨rfl, hstamp⟩
      · exact .inr hold
    · exact .inr hm
  have hfree : ∀ q m, r.metaAt q = some m → m.stamp ≠ (v, r.data.seq) := by
    intro q m hm heq
    have hm := h.free q m hm (congrArg Prod.fst heq)
    have hseq : m.seq = r.data.seq := congrArg Prod.snd heq
    omega
  have hseq : (r.bumpSeq.2.setTable i t).data.seq = r.data.seq + 1 := rfl
  refine ⟨?_, fun q m hm hv => ?_, fun q m hm => ?_, ?_, ?_, h.dataVersion⟩
  · apply h.distinct.insert (k := (i, k₀)) (s := (v, r.data.seq))
    intro q m hm
    exact (hrows q m hm).imp_right fun hold => ⟨hold, hfree q m hold⟩
  · rw [hseq]
    rcases hrows q m hm with ⟨-, hstamp⟩ | hold
    · have hm : m.seq = r.data.seq := congrArg Prod.snd hstamp
      omega
    · have hold := h.free q m hold hv
      omega
  · rcases hrows q m hm with ⟨-, hstamp⟩ | hold
    · exact .inl (congrArg Prod.fst hstamp)
    · exact h.rows q m hold
  · change (Clock.bumpSeq r.data).2 = { r₀.data with seq := r.data.seq + 1 }
    rw [Clock.bumpSeq, h.data]
  · rw [hseq]
    exact h.seq.trans (Int.le_add_one le_rfl)

theorem updateSentinel (h : Recorded r₀ r v limit) (hlimit : r.data.seq < limit) (pk : Pk) :
    Recorded r₀ (withSeq r fun r seq => localUpdateSentinel r i pk v seq) v limit := by
  apply h.mark hlimit (pk, CLOUDSYNC_TOMBSTONE_VALUE)
  intro k m hm
  rw [Table.metaSentinelUpdate, Keyed.get_updateWhere, Option.map_eq_some_iff] at hm
  rcases hm with ⟨m', hget, hm⟩
  split_ifs at hm with hk
  · exact .inl ⟨eq_of_beq hk, by rw [← hm]; rfl⟩
  · exact .inr (hm ▸ hget)

theorem markInsertSentinel (h : Recorded r₀ r v limit) (hlimit : r.data.seq < limit) (pk : Pk) :
    Recorded r₀ (withSeq r fun r seq => localMarkInsertSentinelMeta r i pk v seq) v limit := by
  apply h.mark hlimit (pk, CLOUDSYNC_TOMBSTONE_VALUE)
  intro k m hm
  rw [Table.metaSentinelInsert, Keyed.get_upsert] at hm
  split_ifs at hm with hk
  · left
    refine ⟨hk, ?_⟩
    rw [← Option.some_inj.mp hm]
    cases (r.bumpSeq.2.table i).metadata.get (pk, CLOUDSYNC_TOMBSTONE_VALUE) <;> rfl
  · exact .inr hm

theorem markInsertOrUpdate (h : Recorded r₀ r v limit) (hlimit : r.data.seq < limit) (pk : Pk)
    (colName : Option String) (colVersion : ℤ) :
    Recorded r₀ (withSeq r fun r seq =>
      localMarkInsertOrUpdateMetaImpl r i pk colName colVersion v seq) v limit := by
  apply h.mark hlimit (pk, colName.getD CLOUDSYNC_TOMBSTONE_VALUE)
  intro k m hm
  rw [Table.metaRowInsertUpdate, Keyed.get_upsert] at hm
  split_ifs at hm with hk
  · left
    refine ⟨hk, ?_⟩
    rw [← Option.some_inj.mp hm]
    cases (r.bumpSeq.2.table i).metadata.get (pk, colName.getD CLOUDSYNC_TOMBSTONE_VALUE) <;> rfl
  · exact .inr hm

theorem markColumns (h : Recorded r₀ r v limit) (pk : Pk) (cols : List (Fin (schema i).ncols))
    (hlimit : r.data.seq + cols.length ≤ limit) :
    Recorded r₀ (Store.markColumns r i pk v cols) v limit := by
  induction cols generalizing r with
  | nil => exact h
  | cons col cols ih =>
    rw [List.length_cons, Nat.cast_succ] at hlimit
    apply ih (h.markInsertOrUpdate (by omega) pk (some ((schema i).colName col)) 1)
    change r.data.seq + 1 + cols.length ≤ limit
    omega

theorem dropMeta (h : Recorded r₀ r v limit) (pk : Pk) :
    Recorded r₀ (localDropMeta r i pk) v limit := by
  apply h.shrink
  intro k m hm
  rw [Table.metaRowDrop, Keyed.get_deleteWhere, Option.filter_eq_some_iff] at hm
  exact hm.1

/-- The rows that move to another key get one number, so one of them at most may move. -/
theorem updateMove (h : Recorded r₀ r v limit) (hlimit : r.data.seq < limit) {pk oldpk : Pk}
    (hne : pk ≠ oldpk) (hone : r.HasOneColumn i oldpk) :
    Recorded r₀ (localUpdateMoveMeta r i pk oldpk v) v limit := by
  have hmove : ∀ k m, ((r.bumpSeq.2.table i).metaUpdateMove pk v r.data.seq oldpk).metadata.get k
      = some m → (k.1 = pk ∧ k.2 ≠ CLOUDSYNC_TOMBSTONE_VALUE ∧
        r.metaAt (i, oldpk, k.2) ≠ none ∧ m.stamp = (v, r.data.seq)) ∨
          (r.table i).metadata.get k = some m := by
    rintro ⟨pk', name⟩ m hm
    rw [← Table.rowAt_info, Table.rowAt_metaUpdateMove _ _ _ v r.data.seq hne] at hm
    split_ifs at hm with hpk hold
    · subst hpk
      rw [RowState.receive_info] at hm
      split_ifs at hm with htomb hnone
      · exact .inr hm
      · exact .inr hm
      · exact .inl ⟨rfl, htomb, hnone, by rw [← Option.some_inj.mp hm]; rfl⟩
    · subst hold
      rw [RowState.dropColumns_info] at hm
      split_ifs at hm
      exact .inr hm
    · exact .inr hm
  by_cases hany : ∃ name, name ≠ CLOUDSYNC_TOMBSTONE_VALUE ∧ r.metaAt (i, oldpk, name) ≠ none
  · rcases hany with ⟨name, hname, hrow⟩
    apply h.mark hlimit (pk, name)
    rintro ⟨pk', name'⟩ m hm
    refine (hmove _ m hm).imp_left fun ⟨hpk, hname', hrow', hstamp⟩ => ?_
    exact ⟨Prod.ext hpk (hone name' name hname' hname hrow' hrow), hstamp⟩
  · apply h.mark hlimit (pk, CLOUDSYNC_TOMBSTONE_VALUE)
    rintro ⟨pk', name'⟩ m hm
    refine (hmove _ m hm).imp_left fun ⟨_, hname', hrow', _⟩ => ?_
    exact (hany ⟨name', hname', hrow'⟩).elim

theorem cloudsyncInsert (h : Recorded r₀ (r.dbVersionNext CLOUDSYNC_VALUE_NOTSET).2
    (r.dbVersionNext CLOUDSYNC_VALUE_NOTSET).1 limit) (pk : Pk)
    (hlimit : r.data.seq + r.insertNumbers i pk ≤ limit) :
    Recorded r₀ (Store.cloudsyncInsert r i pk) (r.dbVersionNext CLOUDSYNC_VALUE_NOTSET).1
      limit := by
  rw [← dbVersionNext_seq r CLOUDSYNC_VALUE_NOTSET, Replica.insertNumbers, Nat.cast_add] at hlimit
  have hnext : (r.dbVersionNext CLOUDSYNC_VALUE_NOTSET).2.table = r.table := rfl
  simp only [Store.cloudsyncInsert, hnext]
  split_ifs with hcols hexists
  · rw [if_pos (.inl hcols), Nat.cast_one] at hlimit
    apply (h.markInsertSentinel (by omega) pk).markColumns pk
    change (r.dbVersionNext CLOUDSYNC_VALUE_NOTSET).2.data.seq + 1 + _ ≤ limit
    rw [List.length_finRange]
    omega
  · rw [if_pos (.inr hexists), Nat.cast_one] at hlimit
    apply (h.updateSentinel (by omega) pk).markColumns pk
    change (r.dbVersionNext CLOUDSYNC_VALUE_NOTSET).2.data.seq + 1 + _ ≤ limit
    rw [List.length_finRange]
    omega
  · rw [if_neg (not_or.mpr ⟨hcols, hexists⟩), Nat.cast_zero] at hlimit
    apply h.markColumns pk
    rw [List.length_finRange]
    omega

theorem cloudsyncDelete (h : Recorded r₀ (r.dbVersionNext CLOUDSYNC_VALUE_NOTSET).2
    (r.dbVersionNext CLOUDSYNC_VALUE_NOTSET).1 limit) (pk : Pk)
    (hlimit : r.data.seq + 1 ≤ limit) :
    Recorded r₀ (Store.cloudsyncDelete r i pk) (r.dbVersionNext CLOUDSYNC_VALUE_NOTSET).1
      limit := by
  rw [← dbVersionNext_seq r CLOUDSYNC_VALUE_NOTSET] at hlimit
  exact (h.markInsertOrUpdate hlimit pk none 2).dropMeta pk

/-- The columns of a key are those it had before the old row was marked as deleted. -/
theorem metaAt_markDelete (pk : Pk) {name : String} (hname : name ≠ CLOUDSYNC_TOMBSTONE_VALUE) :
    (withSeq r fun r seq => localMarkDeleteMeta r i pk v seq).metaAt (i, pk, name) =
      r.metaAt (i, pk, name) := by
  have hset := metaAt_setTable r.bumpSeq.2 i ((r.bumpSeq.2.table i).metaRowInsertUpdate pk
    ((none : Option String).getD CLOUDSYNC_TOMBSTONE_VALUE) 2 v r.bumpSeq.1) (i, pk, name)
  refine hset.trans ?_
  rw [if_pos rfl, Table.metaRowInsertUpdate, Keyed.get_upsert, if_neg]
  · rfl
  · intro heq
    exact hname (Prod.mk.inj heq).2

theorem cloudsyncUpdate (h : Recorded r₀ (r.dbVersionNext CLOUDSYNC_VALUE_NOTSET).2
    (r.dbVersionNext CLOUDSYNC_VALUE_NOTSET).1 limit) {pk oldpk : Pk}
    (hone : prikeyChanged pk oldpk = true → r.HasOneColumn i oldpk) (row oldRow : Row (schema i))
    (hlimit : r.data.seq + updateNumbers pk oldpk row oldRow ≤ limit) :
    Recorded r₀ (Store.cloudsyncUpdate r i pk oldpk row oldRow)
      (r.dbVersionNext CLOUDSYNC_VALUE_NOTSET).1 limit := by
  rw [← dbVersionNext_seq r CLOUDSYNC_VALUE_NOTSET, updateNumbers, Nat.cast_add] at hlimit
  rw [Store.cloudsyncUpdate]
  generalize hr : r.dbVersionNext CLOUDSYNC_VALUE_NOTSET = next at *
  split_ifs with hchanged
  · have hne : pk ≠ oldpk := by
      rintro rfl
      rw [prikeyChanged_self] at hchanged
      cases hchanged
    rw [if_pos hchanged, Nat.cast_ofNat] at hlimit
    have hdelete := h.markInsertOrUpdate (i := i) (by omega) oldpk none 2
    have hmove : Recorded r₀ (localUpdateMoveMeta (withSeq next.2 fun r' seq =>
        localMarkDeleteMeta r' i oldpk next.1 seq) i pk oldpk next.1) next.1 limit := by
      apply hdelete.updateMove ?_ hne
      · intro name name' hname hname' hrow hrow'
        have hmeta : next.2.metaAt = r.metaAt := by
          rw [← hr]
          rfl
        apply hone hchanged name name' hname hname'
        · rwa [← hmeta, ← metaAt_markDelete oldpk hname]
        · rwa [← hmeta, ← metaAt_markDelete oldpk hname']
      · change next.2.data.seq + 1 < limit
        omega
    apply (hmove.markInsertSentinel ?_ pk).markColumns pk (changedColumns row oldRow)
    · change next.2.data.seq + 1 + 1 + 1 + _ ≤ limit
      omega
    · change next.2.data.seq + 1 + 1 < limit
      omega
  · rw [if_neg hchanged, Nat.cast_zero] at hlimit
    exact h.markColumns pk (changedColumns row oldRow) (by omega)

end Recorded

def Replica.Records (r : Replica schema) (i : Fin n) : RowChange (schema i) → Prop
  | .insert .. => ¬ r.cloudsyncIsSync i = true
  | .update .. | .delete .. => ¬ ((schema i).algo = .crdtGos ∨ r.cloudsyncIsSync i = true)

instance (r : Replica schema) (i : Fin n) : (c : RowChange (schema i)) → Decidable (r.Records i c)
  | .insert .. => inferInstanceAs (Decidable (¬ _))
  | .update .. | .delete .. => inferInstanceAs (Decidable (¬ (_ ∨ _)))

/-- How many sequence numbers the trigger of a local change takes. -/
def Replica.numbers (r : Replica schema) (i : Fin n) : RowChange (schema i) → ℕ
  | .insert _ pk _ => r.insertNumbers i pk
  | .update _ oldpk pk row =>
    match (r.table i).base.get oldpk with
    | some oldRow => updateNumbers pk oldpk row oldRow
    | none => 0
  | .delete _ => 1

/-- A key that changes takes the metadata of one column at most with it. -/
def Replica.MovesOne (r : Replica schema) (i : Fin n) : RowChange (schema i) → Prop
  | .update _ oldpk pk _ => prikeyChanged pk oldpk = true → r.HasOneColumn i oldpk
  | .insert .. | .delete _ => True

/-- The write of the base row comes before the request and changes no stamp. -/
theorem recorded_of_written {r : Replica schema} {i : Fin n} {t : Table (schema i)} {limit : ℤ}
    (hr : Distinct MetaRow.stamp r.metaAt) (ht : t.metadata = (r.table i).metadata)
    (hfree : ∀ q m, r.metaAt q = some m →
      m.dbVersion = (r.dbVersionNext CLOUDSYNC_VALUE_NOTSET).1 →
        m.seq < r.data.seq ∨ limit ≤ m.seq) :
    (r.setTable i t).metaAt = r.metaAt ∧
      ((r.setTable i t).dbVersionNext CLOUDSYNC_VALUE_NOTSET).1 =
        (r.dbVersionNext CLOUDSYNC_VALUE_NOTSET).1 ∧
      Recorded (r.dbVersionNext CLOUDSYNC_VALUE_NOTSET).2
        ((r.setTable i t).dbVersionNext CLOUDSYNC_VALUE_NOTSET).2
        ((r.setTable i t).dbVersionNext CLOUDSYNC_VALUE_NOTSET).1 limit := by
  have hmeta := metaAt_setTable_of_metadata ht
  have hnext : Clock.dbVersionNext (r.setTable i t).view r.data CLOUDSYNC_VALUE_NOTSET =
      Clock.dbVersionNext r.view r.data CLOUDSYNC_VALUE_NOTSET := by
    rw [view_setTable_of_metadata ht]
  have hversion : ((r.setTable i t).dbVersionNext CLOUDSYNC_VALUE_NOTSET).1 =
      (r.dbVersionNext CLOUDSYNC_VALUE_NOTSET).1 := congrArg (·.1) hnext
  have hdata : ((r.setTable i t).dbVersionNext CLOUDSYNC_VALUE_NOTSET).2.data =
      (r.dbVersionNext CLOUDSYNC_VALUE_NOTSET).2.data := congrArg (·.2) hnext
  refine ⟨hmeta, hversion, ?_⟩
  constructor
  · change Distinct MetaRow.stamp (r.setTable i t).metaAt
    rwa [hmeta]
  · intro q m hm hv
    change (r.setTable i t).metaAt q = some m at hm
    rw [hmeta] at hm
    rw [hdata, dbVersionNext_seq]
    exact hfree q m hm (hv.trans hversion)
  · intro q m hm
    change (r.setTable i t).metaAt q = some m at hm
    rw [hmeta] at hm
    exact .inr hm
  · rw [hdata]
  · rw [hdata]
  · rfl

/-- A local change is recorded with stamps of its own, or changes no metadata. -/
theorem applyRowChange_recorded {r r' : Replica schema} {i : Fin n} {c : RowChange (schema i)}
    {limit : ℤ} (h : applyRowChange r i c = some r') (hr : Distinct MetaRow.stamp r.metaAt)
    (hone : r.Records i c → r.MovesOne i c)
    (hfree : r.Records i c → ∀ q m, r.metaAt q = some m →
      m.dbVersion = (r.dbVersionNext CLOUDSYNC_VALUE_NOTSET).1 →
        m.seq < r.data.seq ∨ limit ≤ m.seq)
    (hlimit : r.data.seq + r.numbers i c ≤ limit) :
    (¬ r.Records i c ∧ r'.metaAt = r.metaAt ∧ r'.data = r.data ∧
        r'.dataVersion = r.dataVersion) ∨
      r.Records i c ∧ Recorded (r.dbVersionNext CLOUDSYNC_VALUE_NOTSET).2 r'
        (r.dbVersionNext CLOUDSYNC_VALUE_NOTSET).1 limit := by
  have hidle : ∀ t : Table (schema i), t.metadata = (r.table i).metadata →
      (r.setTable i t).metaAt = r.metaAt ∧ (r.setTable i t).data = r.data ∧
        (r.setTable i t).dataVersion = r.dataVersion :=
    fun t ht => ⟨metaAt_setTable_of_metadata ht, rfl, rfl⟩
  cases applyRowChange_applied h with
  | insert orReplace pk row _ =>
    have hbase : ((r.table i).insertBase pk row).metadata = (r.table i).metadata := rfl
    split_ifs with hoff
    · left
      exact ⟨not_not.mpr hoff, hidle _ hbase⟩
    · right
      have hon : r.Records i (.insert orReplace pk row) := hoff
      rcases recorded_of_written hr hbase (hfree hon) with ⟨hmeta, hversion, hwritten⟩
      refine ⟨hon, ?_⟩
      have hnumbers : (r.setTable i ((r.table i).insertBase pk row)).insertNumbers i pk =
          r.insertNumbers i pk := by
        rw [Replica.insertNumbers, Replica.setTable_table_self]
        rfl
      rw [← hversion]
      apply hwritten.cloudsyncInsert pk
      rw [hnumbers]
      exact hlimit
  | update orReplace oldpk pk row oldRow hold _ =>
    have hbase : ((r.table i).updateBase oldpk pk row).metadata = (r.table i).metadata := rfl
    split_ifs with hoff
    · left
      exact ⟨not_not.mpr hoff, hidle _ hbase⟩
    · right
      have hon : r.Records i (.update orReplace oldpk pk row) := hoff
      rcases recorded_of_written hr hbase (hfree hon) with ⟨hmeta, hversion, hwritten⟩
      refine ⟨hon, ?_⟩
      rw [Replica.numbers, hold] at hlimit
      rw [← hversion]
      apply hwritten.cloudsyncUpdate ?_ row oldRow hlimit
      intro hchanged
      rw [Replica.HasOneColumn, hmeta]
      exact hone hon hchanged
  | delete pk _ _ =>
    have hbase : ((r.table i).realMergeDelete pk).metadata = (r.table i).metadata := rfl
    split_ifs with hoff
    · left
      exact ⟨not_not.mpr hoff, hidle _ hbase⟩
    · right
      have hon : r.Records i (.delete pk) := hoff
      rcases recorded_of_written hr hbase (hfree hon) with ⟨hmeta, hversion, hwritten⟩
      refine ⟨hon, ?_⟩
      rw [← hversion]
      exact hwritten.cloudsyncDelete pk hlimit

end SqliteSync.Store
