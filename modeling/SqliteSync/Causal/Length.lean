import SqliteSync.Store.MergeFaults
import SqliteSync.Causal.Converge

/-!
# The causal length a merge leaves

A merge that succeeds ought to leave the larger of the two causal lengths. It
stores the version of the change as the length when it deletes, and when it
writes a sentinel alone, so it does only if the two agree.
-/
namespace SqliteSync.Store
open Library Clock

/-- A change that is newer than its row states its causal length where the merge
reads it: a tombstone in its version, a column in a row that has no sentinel of
length 0. -/
def Replica.KeepsLength {n : ℕ} {schema : Fin n → TableContext} (r : Replica schema)
    (c : Change n) : Prop :=
  (r.table c.tbl).metaLocalCl c.pk < c.cl →
    if c.cl % 2 = 0 then c.name = CLOUDSYNC_TOMBSTONE_VALUE ∧ c.colVersion = c.cl
    else if c.name = CLOUDSYNC_TOMBSTONE_VALUE then c.colVersion = c.cl
    else c.cl = 1 → (r.table c.tbl).metaColVersion c.pk CLOUDSYNC_TOMBSTONE_VALUE = none

instance {n : ℕ} {schema : Fin n → TableContext} (r : Replica schema) (c : Change n) :
    Decidable (r.KeepsLength c) := by
  unfold Replica.KeepsLength
  infer_instance

namespace RowState
variable {table : TableContext} {n : ℕ} {s : RowState table} {c : Change n}

theorem localCl_bury_of_tombstone (h : c.name = CLOUDSYNC_TOMBSTONE_VALUE) (st : Stamps) :
    (s.bury c st).localCl = c.colVersion := by
  rw [bury, h, localCl_of_sentinel ((dropColumns_sentinel _).trans
    (setInfo_tombstone_sentinel _ _))]

/-- A deletion under the name of a column leaves the old sentinel, or nothing. -/
theorem localCl_bury_of_column (h : c.name ≠ CLOUDSYNC_TOMBSTONE_VALUE) (st : Stamps) :
    (s.bury c st).localCl = (s.sentinel.map MetaRow.colVersion).getD 0 := by
  have hs : (s.bury c st).sentinel = s.sentinel := by
    rw [bury, dropColumns_sentinel, setInfo_sentinel_of_ne _ h]
    rfl
  cases hm : s.sentinel with
  | some m =>
    rw [localCl_of_sentinel (hs.trans hm)]
    rfl
  | none =>
    apply localCl_of_none
    intro name
    by_cases hname : name = CLOUDSYNC_TOMBSTONE_VALUE
    · rw [hname]
      exact hs.trans hm
    · simp [bury, hname]

theorem sentinel_getD_le (hpos : 0 ≤ s.localCl) :
    (s.sentinel.map MetaRow.colVersion).getD 0 ≤ s.localCl := by
  cases hm : s.sentinel with
  | some m => exact (localCl_of_sentinel hm).ge
  | none => exact hpos

theorem prepared_of_not_lt (h : ¬ s.localCl < c.cl) (st : Stamps) : s.prepared c st = s :=
  if_neg fun hrev => h hrev.1

theorem localCl_columnMerged_of_eq (heq : s.localCl = c.cl) (hodd : c.cl % 2 = 1)
    (htomb : c.name ≠ CLOUDSYNC_TOMBSTONE_VALUE) (st : Stamps) :
    (s.columnMerged c st).localCl = s.localCl := by
  have hprep : s.prepared c st = s := prepared_of_not_lt heq.not_lt st
  cases hcol : tableColumnLookup table c.name with
  | none => rw [columnMerged_of_none hcol, hprep]
  | some col =>
    by_cases hwin : s.localCl < c.cl ∨ s.Beaten col c
    · have hinfo := exists_info_of_odd (s := s) (heq ▸ hodd)
      rw [columnMerged_of_wins hcol hwin, hprep, take, localCl_setInfo _ htomb, setRow_sentinel,
        localCl_of_metadata hinfo]
    · rw [columnMerged_of_loses hcol hwin]

/-- A newer column change leaves its own length, unless it meets a sentinel of length 0. -/
theorem localCl_columnMerged_of_lt (hpos : 0 ≤ s.localCl) (hlt : s.localCl < c.cl)
    (hodd : c.cl % 2 = 1) (htomb : c.name ≠ CLOUDSYNC_TOMBSTONE_VALUE)
    {col : Fin table.ncols} (hcol : tableColumnLookup table c.name = some col) (st : Stamps) :
    (s.columnMerged c st).localCl = c.cl ↔ (c.cl = 1 → s.sentinel = none) := by
  rw [columnMerged_of_wins hcol (.inl hlt), take, localCl_setInfo _ htomb, setRow_sentinel]
  by_cases hrev : s.localCl ≠ 0 ∨ 1 < c.cl
  · have hprep : s.prepared c st = s.resurrect c.cl c st := if_pos ⟨hlt, hrev⟩
    rw [hprep, resurrect, setInfo_tombstone_sentinel]
    exact iff_of_true rfl fun hone => by omega
  · have hprep : s.prepared c st = s := if_neg fun h => hrev h.2
    rw [hprep]
    cases hs : s.sentinel with
    | none => exact iff_of_true (by simp; omega) fun _ => rfl
    | some m =>
      rw [localCl_of_sentinel hs] at hrev hlt hpos
      refine iff_of_false ?_ ?_
      · simp only [Option.map_some, Option.getD_some]
        omega
      · intro h
        cases h (by omega)

theorem localCl_merged_iff (hpos : 0 ≤ s.localCl)
    (hcol : s.localCl < c.cl → c.cl % 2 = 1 → c.name ≠ CLOUDSYNC_TOMBSTONE_VALUE →
      tableColumnLookup table c.name ≠ none) (st : Stamps) :
    (s.merged c st).localCl = max s.localCl c.cl ↔ (s.localCl < c.cl →
      if c.cl % 2 = 0 then c.name = CLOUDSYNC_TOMBSTONE_VALUE ∧ c.colVersion = c.cl
      else if c.name = CLOUDSYNC_TOMBSTONE_VALUE then c.colVersion = c.cl
      else c.cl = 1 → s.sentinel = none) := by
  by_cases hlt : s.localCl < c.cl
  · rw [max_eq_right hlt.le, merged, if_neg hlt.not_gt]
    simp only [hlt, if_neg hlt.ne, forall_const]
    by_cases heven : c.cl % 2 = 0
    · rw [if_pos heven, if_pos heven]
      by_cases htomb : c.name = CLOUDSYNC_TOMBSTONE_VALUE
      · rw [localCl_bury_of_tombstone htomb]
        exact ⟨fun h => ⟨htomb, h⟩, And.right⟩
      · rw [localCl_bury_of_column htomb]
        have hle := sentinel_getD_le hpos
        exact iff_of_false (by omega) fun h => htomb h.1
    rw [if_neg heven, if_neg heven]
    by_cases htomb : c.name = CLOUDSYNC_TOMBSTONE_VALUE
    · rw [if_pos htomb, if_pos htomb, resurrect, localCl_of_alive]
    · rw [if_neg htomb, if_neg htomb]
      rcases Option.ne_none_iff_exists'.mp (hcol hlt (by omega) htomb) with ⟨col, hcol⟩
      exact localCl_columnMerged_of_lt hpos hlt (by omega) htomb hcol st
  · refine iff_of_true ?_ fun h => absurd h hlt
    rw [max_eq_left (not_lt.mp hlt), merged]
    split_ifs with hold heven heq htomb heq
    · rfl
    · rfl
    · omega
    · rfl
    · omega
    · exact localCl_columnMerged_of_eq (by omega) (by omega) htomb st

/-- A row of even length that holds no base row still holds none, if its merged
length is what it should be. -/
theorem row_merged (h : s.localCl % 2 = 0 → s.row = none) (st : Stamps)
    (hcl : (s.merged c st).localCl = max s.localCl c.cl)
    (heven : (s.merged c st).localCl % 2 = 0) : (s.merged c st).row = none := by
  rw [hcl] at heven
  rw [merged] at hcl ⊢
  split_ifs at hcl ⊢ with hold hceven heq htomb heq
  · exact h (by omega)
  · exact h (by omega)
  · rfl
  · exact h (by omega)
  · omega
  · omega

end RowState

section
variable {n : ℕ} {schema : Fin n → TableContext} {r : Replica schema} {c : Change n}

/-- A change of an unknown column does not win without an error. -/
theorem mergeColumn_of_unknown (r : Replica schema)
    (hcol : tableColumnLookup (schema c.tbl) c.name = none) (rowExistsLocally : Bool) :
    (mergeColumn noFaults r c true rowExistsLocally).1 ≠ .ok () := by
  rw [mergeColumn]
  cases mergeDidCidWin noFaults r c.tbl c.pk c.colValue c.name c.colVersion with
  | error err => exact fun h => by cases h
  | ok flag =>
    simp only [Bool.true_or, if_true, mergeInsertCol, hcol]
    exact fun h => by cases h

/-- A merge that succeeds found a causal length, and the column it had to write. -/
theorem cloudsyncMergeInsert_known (hcls : (schema c.tbl).algo ≠ .crdtGos)
    (hok : (cloudsyncMergeInsert noFaults r c).1 = .ok ()) :
    0 ≤ (r.table c.tbl).metaLocalCl c.pk ∧
      ((r.table c.tbl).metaLocalCl c.pk < c.cl → c.cl % 2 = 1 →
        c.name ≠ CLOUDSYNC_TOMBSTONE_VALUE → tableColumnLookup (schema c.tbl) c.name ≠ none) := by
  rw [cloudsyncMergeInsert, if_neg hcls, noFaults_apply] at hok
  dsimp only at hok
  by_cases hneg : (r.table c.tbl).metaLocalCl c.pk < 0
  · rw [if_pos hneg] at hok
    cases hok
  refine ⟨not_lt.mp hneg, fun hlt hodd htomb hcol => ?_⟩
  have hmod : c.cl.tmod 2 = 1 := by rw [Int.tmod_eq_emod_of_nonneg (by omega), hodd]
  have hresurrect : (decide (c.cl > (r.table c.tbl).metaLocalCl c.pk) &&
      decide (c.cl.tmod 2 = 1)) = true := by
    simp [hlt, hmod]
  rw [if_neg hneg, if_neg hlt.not_gt, if_neg (by omega), if_neg htomb, hresurrect] at hok
  have hx := Outcome.andThen_ok_fst hok
  rw [Outcome.andThen_eq_of_ok hx] at hok
  exact mergeColumn_of_unknown _ hcol _ hok

/-- A merge that succeeds leaves the larger causal length, and keeps rows of even
length without a base row, exactly when the change states its length where the
merge reads it. -/
theorem cloudsyncMergeInsert_localCl_iff (hcls : (schema c.tbl).algo = .crdtCls) (faults : Faults)
    (hok : (cloudsyncMergeInsert faults r c).1 = .ok ()) :
    (((cloudsyncMergeInsert faults r c).2.table c.tbl).metaLocalCl c.pk =
        max ((r.table c.tbl).metaLocalCl c.pk) c.cl ∧
      (((r.table c.tbl).metaLocalCl c.pk % 2 = 0 → (r.table c.tbl).base.get c.pk = none) →
        ((cloudsyncMergeInsert faults r c).2.table c.tbl).metaLocalCl c.pk % 2 = 0 →
          ((cloudsyncMergeInsert faults r c).2.table c.tbl).base.get c.pk = none)) ↔
      r.KeepsLength c := by
  have hgos : (schema c.tbl).algo ≠ .crdtGos := by
    rw [hcls]
    decide
  have hrun := cloudsyncMergeInsert_under r c hok
  rw [hrun] at hok ⊢
  rcases cloudsyncMergeInsert_known hgos hok with ⟨hpos, hcol⟩
  rw [Table.metaLocalCl_eq] at hpos hcol
  rcases cloudsyncMergeInsert_merged r c hgos hpos with ⟨st, hm⟩
  have hsentinel : (r.table c.tbl).metaColVersion c.pk CLOUDSYNC_TOMBSTONE_VALUE = none ↔
      ((r.table c.tbl).rowAt c.pk).sentinel = none := Option.map_eq_none_iff
  have hhere := hm.rewrites.here
  have hiff := RowState.localCl_merged_iff hpos hcol st
  rw [Replica.KeepsLength, Table.metaLocalCl_eq, Table.metaLocalCl_eq, hhere, hsentinel, hiff]
  refine ⟨And.left, fun hkeeps => ⟨hkeeps, fun habsent heven => ?_⟩⟩
  have hrow := RowState.row_merged habsent st (hiff.mpr hkeeps) heven
  rw [← hhere] at hrow
  exact hrow

/-- A tombstone of an unknown row, with the version it should have. -/
theorem cloudsyncMergeInsert_localCl_tombstone :
    let r := Replica.empty (fun _ : Fin 1 => singleColumn) [1]
    let c : Change 1 := ⟨0, [.integer 1], none, .null, 2, 5, [2], 2, 0⟩
    ((cloudsyncMergeInsert noFaults r c).2.table 0).metaLocalCl [.integer 1] =
      max ((r.table 0).metaLocalCl [.integer 1]) 2 := by
  intro r c
  exact ((cloudsyncMergeInsert_localCl_iff rfl noFaults (by decide)).mpr (by decide)).1

/-- A tombstone with version 1 and causal length 2 is accepted, and leaves length 1. -/
theorem cloudsyncMergeInsert_not_localCl :
    ¬ ∀ (n : ℕ) (schema : Fin n → TableContext) (r : Replica schema) (c : Change n)
      (faults : Faults), (schema c.tbl).algo = .crdtCls →
      (cloudsyncMergeInsert faults r c).1 = .ok () →
      ((cloudsyncMergeInsert faults r c).2.table c.tbl).metaLocalCl c.pk =
          max ((r.table c.tbl).metaLocalCl c.pk) c.cl ∧
        (((r.table c.tbl).metaLocalCl c.pk % 2 = 0 → (r.table c.tbl).base.get c.pk = none) →
          ((cloudsyncMergeInsert faults r c).2.table c.tbl).metaLocalCl c.pk % 2 = 0 →
            ((cloudsyncMergeInsert faults r c).2.table c.tbl).base.get c.pk = none) := by
  intro h
  have hlen := (h 1 (fun _ => singleColumn) (Replica.empty _ [1])
    ⟨0, [.integer 1], none, .null, 1, 5, [2], 2, 0⟩ noFaults rfl (by decide)).1
  exact absurd hlen (by decide)

end
end SqliteSync.Store
