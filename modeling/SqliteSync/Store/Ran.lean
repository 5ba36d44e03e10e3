import SqliteSync.Store.Local
import SqliteSync.Store.Merge
import SqliteSync.Store.RowState

/-!
# What a merge may write

Whatever fails on its way, a merge runs a few kinds of statements, each under the key
its change names. What they all keep, the merge keeps; and a trigger writes metadata
only.
-/
namespace SqliteSync.Store
open Library Clock

section
variable {n : ℕ} (table : TableContext)

/-- The statements of a merge of `c` on its table. -/
inductive Change.Writes (c : Change n) : (Table table → Table table) → Prop
  | colMerge {col : Fin table.ncols} (hcol : tableColumnLookup table c.name = some col)
      (hname : table.algo = .crdtGos ∨ c.name ≠ CLOUDSYNC_TOMBSTONE_VALUE) :
      Writes c fun t => t.colMerge c.pk col c.colValue
  | mergeDelete : Writes c fun t => t.realMergeDelete c.pk
  | mergeSentinel : Writes c fun t => t.realMergeSentinel c.pk
  | zeroClock (dbVersion : ℤ) : Writes c fun t => t.metaZeroClock dbVersion c.pk
  | winnerClock (colName : String) (colVersion dbVersion seq : ℤ) (siteId : ℕ) :
      Writes c fun t => t.metaWinnerClock c.pk colName colVersion dbVersion seq siteId
  | deleteDrop : Writes c fun t => t.metaMergeDeleteDrop c.pk

end

section
variable {n : ℕ} {schema : Fin n → TableContext}

/-- Statements of a merge of `c` have led from `r₀` to `r`. -/
structure Ran (c : Change n) (r₀ r : Replica schema) : Prop where
  tables : ∀ j ≠ c.tbl, r.table j = r₀.table j
  here : Relation.ReflTransGen (fun t t' => ∃ f, c.Writes (schema c.tbl) f ∧ t' = f t)
    (r₀.table c.tbl) (r.table c.tbl)

namespace Ran
variable {c : Change n} {r₀ r r' : Replica schema} {faults : Faults}

theorem refl (c : Change n) (r : Replica schema) : Ran c r r := ⟨fun _ _ => rfl, .refl⟩

theorem of_table (h : Ran c r₀ r) (htable : r'.table = r.table) : Ran c r₀ r' := by
  refine ⟨fun j hj => ?_, ?_⟩
  · rw [htable]
    exact h.tables j hj
  · rw [htable]
    exact h.here

theorem setTable (h : Ran c r₀ r) {f : Table (schema c.tbl) → Table (schema c.tbl)}
    (hf : c.Writes (schema c.tbl) f) : Ran c r₀ (r.setTable c.tbl (f (r.table c.tbl))) := by
  refine ⟨fun j hj => (Replica.setTable_table_of_ne r hj _).trans (h.tables j hj), ?_⟩
  rw [Replica.setTable_table_self]
  exact h.here.tail ⟨f, hf, rfl⟩

theorem stepStmt (h : Ran c r₀ r) (stmt : MergeStmt)
    {f : Table (schema c.tbl) → Table (schema c.tbl)} (hf : c.Writes (schema c.tbl) f) :
    Ran c r₀ (Store.stepStmt faults r c.tbl stmt f).2 := by
  rw [Store.stepStmt]
  cases faults stmt with
  | some err => exact h
  | none => exact h.setTable hf

theorem stepInsync (h : Ran c r₀ r) (stmt : MergeStmt)
    {f : Table (schema c.tbl) → Table (schema c.tbl)} (hf : c.Writes (schema c.tbl) f) :
    Ran c r₀ (Store.stepInsync faults r c.tbl stmt f).2 :=
  ((h.of_table (r.setInsync_table true)).stepStmt stmt hf).of_table
    (Replica.setInsync_table _ false)

theorem stepVersioned (h : Ran c r₀ r) (stmt : MergeStmt) (dbVersion : ℤ)
    {f : ℤ → Table (schema c.tbl) → Table (schema c.tbl)}
    (hf : ∀ v, c.Writes (schema c.tbl) (f v)) :
    Ran c r₀ (Store.stepVersioned faults r c.tbl stmt dbVersion f).2 := by
  rw [Store.stepVersioned]
  cases faults stmt with
  | some err => exact h
  | none => exact (h.of_table (r.dbVersionNext_table dbVersion)).setTable (hf _)

theorem mergeSetWinnerClock (h : Ran c r₀ r) (colname : String) (colVersion dbVersion : ℤ)
    (siteId : SiteId) (seq : ℤ) :
    Ran c r₀ (Store.mergeSetWinnerClock faults r c.tbl c.pk colname colVersion dbVersion siteId
      seq).2 := by
  rw [Store.mergeSetWinnerClock]
  cases faults (.siteId colname) with
  | some err => exact h
  | none =>
    have hsite : Ran c r₀ { r with siteIds := (getsetSiteid r.siteIds siteId).2 } := h.of_table rfl
    exact hsite.stepVersioned (.winnerClock colname) dbVersion
      fun v => .winnerClock colname colVersion v seq (getsetSiteid r.siteIds siteId).1

theorem mergeInsertCol (h : Ran c r₀ r)
    (hname : (schema c.tbl).algo = .crdtGos ∨ c.name ≠ CLOUDSYNC_TOMBSTONE_VALUE)
    (colVersion dbVersion : ℤ) (siteId : SiteId) (seq : ℤ) :
    Ran c r₀ (Store.mergeInsertCol faults r c.tbl c.pk c.name c.colValue colVersion dbVersion
      siteId seq).2 := by
  rw [Store.mergeInsertCol]
  cases hcol : tableColumnLookup (schema c.tbl) c.name with
  | none => exact h
  | some col =>
    have hset : ∀ (r : Replica schema) (gos enabled : Bool), Ran c r₀ r →
        Ran c r₀ (if gos then r.setEnabled c.tbl enabled else r) := by
      intro r gos enabled hr
      cases gos
      · exact hr
      · exact hr.of_table (r.setEnabled_table c.tbl enabled)
    apply Outcome.andThen_keeps (Ran c r₀)
    · exact hset _ _ true ((hset r _ false h).stepInsync .colMerge (.colMerge hcol hname))
    · exact fun r hr => hr.mergeSetWinnerClock c.name colVersion dbVersion siteId seq

theorem mergeDelete (h : Ran c r₀ r) (cl dbVersion : ℤ) (siteId : SiteId) (seq : ℤ) :
    Ran c r₀ (Store.mergeDelete faults r c.tbl c.pk c.name cl dbVersion siteId seq).2 := by
  apply Outcome.andThen_keeps (Ran c r₀)
  · exact h.stepInsync .mergeDelete .mergeDelete
  · intro r hr
    apply Outcome.andThen_keeps (Ran c r₀)
    · exact hr.mergeSetWinnerClock c.name cl dbVersion siteId seq
    · exact fun r hr => hr.stepStmt .deleteDrop .deleteDrop

theorem mergeSentinelOnlyInsert (h : Ran c r₀ r) (cl dbVersion : ℤ) (siteId : SiteId)
    (seq : ℤ) :
    Ran c r₀ (Store.mergeSentinelOnlyInsert faults r c.tbl c.pk cl dbVersion siteId seq).2 := by
  apply Outcome.andThen_keeps (Ran c r₀)
  · exact h.stepInsync .mergeSentinel .mergeSentinel
  · intro r hr
    apply Outcome.andThen_keeps (Ran c r₀)
    · exact hr.stepVersioned .zeroClock dbVersion .zeroClock
    · exact fun r hr => hr.mergeSetWinnerClock CLOUDSYNC_TOMBSTONE_VALUE cl dbVersion siteId seq

theorem describe {x : Outcome (Replica schema)} (h : Ran c r₀ x.2) (message : String) :
    Ran c r₀ (x.describe message).2 := by
  rw [Outcome.describe_snd]
  exact h

theorem mergeColumn (h : Ran c r₀ r) (hname : c.name ≠ CLOUDSYNC_TOMBSTONE_VALUE)
    (needsResurrect rowExistsLocally : Bool) :
    Ran c r₀ (Store.mergeColumn faults r c needsResurrect rowExistsLocally).2 := by
  rw [Store.mergeColumn]
  cases mergeDidCidWin faults r c.tbl c.pk c.colValue c.name c.colVersion with
  | error err => exact h
  | ok flag =>
    dsimp only
    split_ifs
    · exact (h.mergeInsertCol (.inr hname) c.colVersion c.dbVersion c.siteId c.seq).describe _
    · exact h

end Ran

/-- A merge runs its statements and no other, whichever of them fail. -/
theorem cloudsyncMergeInsert_ran (faults : Faults) (r : Replica schema) (c : Change n) :
    Ran c r (cloudsyncMergeInsert faults r c).2 := by
  have h := Ran.refl c r
  rw [cloudsyncMergeInsert]
  by_cases hgos : (schema c.tbl).algo = .crdtGos
  · rw [if_pos hgos]
    exact (h.mergeInsertCol (.inl hgos) c.colVersion c.dbVersion c.siteId c.seq).describe _
  rw [if_neg hgos]
  cases faults .localCl with
  | some err => exact h
  | none =>
    dsimp only
    split_ifs with _ _ _ _ hname
    · exact h
    · exact h
    · exact h
    · exact (h.mergeDelete c.colVersion c.dbVersion c.siteId c.seq).describe _
    · exact h
    · exact (h.mergeSentinelOnlyInsert c.colVersion c.dbVersion c.siteId c.seq).describe _
    · apply Outcome.andThen_keeps (Ran c r)
      · exact (h.mergeSentinelOnlyInsert c.cl c.dbVersion c.siteId c.seq).describe _
      · exact fun r hr => hr.mergeColumn hname _ _
    · apply Outcome.andThen_keeps (Ran c r) h
      exact fun r hr => hr.mergeColumn hname _ _

theorem Ran.invariant {c : Change n} {r₀ r : Replica schema}
    {P : Table (schema c.tbl) → Prop} (h : Ran c r₀ r)
    (hP : ∀ f t, c.Writes (schema c.tbl) f → P t → P (f t)) (h₀ : P (r₀.table c.tbl)) :
    P (r.table c.tbl) := by
  have hhere := h.here
  generalize r.table c.tbl = t at hhere
  induction hhere with
  | refl => exact h₀
  | tail _ hstep ih =>
    rcases hstep with ⟨f, hf, rfl⟩
    exact hP f _ hf ih

/-! ## Triggers -/

def SameBase (r r' : Replica schema) : Prop := ∀ j, (r'.table j).base = (r.table j).base

namespace SameBase
variable {r₀ r : Replica schema} {i : Fin n}

theorem refl (r : Replica schema) : SameBase r r := fun _ => rfl

theorem trans {r' : Replica schema} (h : SameBase r₀ r) (h' : SameBase r r') : SameBase r₀ r' :=
  fun j => (h' j).trans (h j)

theorem setTable (r : Replica schema) {t : Table (schema i)} (ht : t.base = (r.table i).base) :
    SameBase r (r.setTable i t) := by
  intro j
  by_cases hj : j = i
  · subst hj
    rw [Replica.setTable_table_self, ht]
  · rw [Replica.setTable_table_of_ne r hj]

theorem withSeq (r : Replica schema) {f : Replica schema → ℤ → Replica schema}
    (hf : ∀ r seq, SameBase r (f r seq)) : SameBase r (Store.withSeq r f) :=
  fun j => hf r.bumpSeq.2 r.bumpSeq.1 j

theorem markColumns (r : Replica schema) (i : Fin n) (pk : Pk) (dbVersion : ℤ)
    (cols : List (Fin (schema i).ncols)) : SameBase r (Store.markColumns r i pk dbVersion cols) := by
  have hmark : ∀ (r : Replica schema) (col : Fin (schema i).ncols), SameBase r
      (Store.withSeq r fun r seq =>
        localMarkInsertOrUpdateMeta r i pk ((schema i).colName col) dbVersion seq) :=
    fun r col => withSeq r fun r seq => setTable r rfl
  induction cols generalizing r with
  | nil => exact refl r
  | cons col cols ih => exact (hmark r col).trans (ih _)

theorem cloudsyncInsert (r : Replica schema) (i : Fin n) (pk : Pk) :
    SameBase r (Store.cloudsyncInsert r i pk) := by
  have hnext : SameBase r (r.dbVersionNext CLOUDSYNC_VALUE_NOTSET).2 := fun _ => rfl
  refine hnext.trans (SameBase.trans ?_ (markColumns _ i pk _ _))
  split_ifs
  · exact withSeq _ fun r seq => setTable r rfl
  · exact withSeq _ fun r seq => setTable r rfl
  · exact refl _

theorem cloudsyncUpdate (r : Replica schema) (i : Fin n) (pk oldpk : Pk)
    (row oldRow : Row (schema i)) : SameBase r (Store.cloudsyncUpdate r i pk oldpk row oldRow) := by
  have hnext : SameBase r (r.dbVersionNext CLOUDSYNC_VALUE_NOTSET).2 := fun _ => rfl
  have hdelete : ∀ (r : Replica schema) (dbVersion : ℤ), SameBase r
      (Store.withSeq r fun r seq => localMarkDeleteMeta r i oldpk dbVersion seq) :=
    fun r _ => withSeq r fun r seq => setTable r rfl
  have hmove : ∀ (r : Replica schema) (dbVersion : ℤ),
      SameBase r (localUpdateMoveMeta r i pk oldpk dbVersion) := by
    intro r dbVersion
    exact SameBase.trans (r := r.bumpSeq.2) (fun _ => rfl) (setTable _ rfl)
  refine hnext.trans (SameBase.trans ?_ (markColumns _ i pk _ _))
  split_ifs
  · exact ((hdelete _ _).trans (hmove _ _)).trans (withSeq _ fun r seq => setTable r rfl)
  · exact refl _

theorem cloudsyncDelete (r : Replica schema) (i : Fin n) (pk : Pk) :
    SameBase r (Store.cloudsyncDelete r i pk) := by
  have hnext : SameBase r (r.dbVersionNext CLOUDSYNC_VALUE_NOTSET).2 := fun _ => rfl
  have hdelete : ∀ (r : Replica schema) (dbVersion : ℤ), SameBase r
      (Store.withSeq r fun r seq => localMarkDeleteMeta r i pk dbVersion seq) :=
    fun r _ => withSeq r fun r seq => setTable r rfl
  have hdrop : ∀ r : Replica schema, SameBase r (localDropMeta r i pk) := fun r => setTable r rfl
  exact (hnext.trans (hdelete _ _)).trans (hdrop _)

end SameBase
end
end SqliteSync.Store
