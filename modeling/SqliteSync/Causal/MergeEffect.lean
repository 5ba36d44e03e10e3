import SqliteSync.Causal.OwnRow
import SqliteSync.Causal.Recorded

/-!
# What a merge does to the metadata

All requests of one merge get the same db version, and what the merge writes is
stamped with it, and with the sequence number that came with the change. The
columns of a row it brings to life get the version too, but keep their numbers.
-/
namespace SqliteSync.Store
open Library Clock

variable {n : ℕ} {schema : Fin n → TableContext}

/-- No request was made since `r₀`, and no metadata written. -/
structure Unasked (r₀ r : Replica schema) : Prop where
  metaAt : r.metaAt = r₀.metaAt
  view : r.view = r₀.view
  dbVersion : r.data.dbVersion = r₀.data.dbVersion
  pending : r.data.pendingDbVersion = r₀.data.pendingDbVersion
  cached : r.data.dataVersion = r₀.data.dataVersion

/-- The request for `mv` was made, and answered. -/
structure Asked (r₀ r : Replica schema) (mv : ℤ) : Prop where
  dbVersion : r.data.dbVersion = r₀.checked.dbVersion
  pending : r.data.pendingDbVersion = (r₀.dbVersionNext mv).1
  cached : r.data.dataVersion = r₀.dataVersion

/-- From `r₀`, steps of a merge that asks for `mv` have led to `r`. -/
structure Merging (r₀ r : Replica schema) (mv : ℤ) : Prop where
  dataVersion : r.dataVersion = r₀.dataVersion
  seq : r.data.seq = r₀.data.seq
  clock : Unasked r₀ r ∨ Asked r₀ r mv

theorem nextVersion_congr {d e : Context} (hdb : d.dbVersion = e.dbVersion)
    (hpending : d.pendingDbVersion = e.pendingDbVersion) (mv : ℤ) :
    nextVersion d mv = nextVersion e mv := by
  rw [nextVersion, hdb, hpending, nextVersion]

theorem nextVersion_again {d e : Context} {mv : ℤ} (hdb : d.dbVersion = e.dbVersion)
    (hpending : d.pendingDbVersion = nextVersion e mv) : nextVersion d mv = nextVersion e mv := by
  simp only [nextVersion, hdb] at *
  rw [hpending]
  split_ifs <;> omega

/-- Once a request was answered, the next one finds the clock as it did and gets
the same version. -/
theorem Asked.again {r₀ r : Replica schema} {mv : ℤ} (h : Asked r₀ r mv)
    (hset : r₀.checked.dbVersion ≠ CLOUDSYNC_VALUE_NOTSET) (hdv : r.dataVersion = r₀.dataVersion) :
    r.checked.dbVersion = r₀.checked.dbVersion ∧
      (r.dbVersionNext mv).1 = (r₀.dbVersionNext mv).1 := by
  have hcheck : r.checked.dbVersion = r₀.checked.dbVersion := by
    have hcurrent : r.view.dataVersion = r.data.dataVersion := hdv.trans h.cached.symm
    rw [Replica.checked, dbVersionCheckUptodate, if_pos ⟨h.dbVersion ▸ hset, hcurrent⟩, h.dbVersion]
  refine ⟨hcheck, nextVersion_again hcheck ?_⟩
  rw [dbVersionCheckUptodate_pendingDbVersion]
  exact h.pending

namespace Merging
variable {r₀ r r' : Replica schema} {mv : ℤ} {i : Fin n}

theorem refl (r : Replica schema) (mv : ℤ) : Merging r r mv :=
  ⟨rfl, rfl, .inl ⟨rfl, rfl, rfl, rfl, rfl⟩⟩

/-- A step that writes no metadata and makes no request. -/
theorem idle (h : Merging r₀ r mv) (hmeta : r'.metaAt = r.metaAt) (hview : r'.view = r.view)
    (hdata : r'.data = { r.data with insync := r'.data.insync }) : Merging r₀ r' mv := by
  have hdv : r'.dataVersion = r.dataVersion := congrArg DbView.dataVersion hview
  refine ⟨hdv.trans h.dataVersion, ?_, ?_⟩
  · rw [hdata]
    exact h.seq
  · refine h.clock.imp (fun hu => ⟨hmeta.trans hu.metaAt, hview.trans hu.view, ?_, ?_, ?_⟩)
      (fun ha => ⟨?_, ?_, ?_⟩)
    · rw [hdata, hu.dbVersion]
    · rw [hdata, hu.pending]
    · rw [hdata, hu.cached]
    · rw [hdata, ha.dbVersion]
    · rw [hdata, ha.pending]
    · rw [hdata, ha.cached]

theorem request (h : Merging r₀ r mv) (hset : r₀.checked.dbVersion ≠ CLOUDSYNC_VALUE_NOTSET) :
    (r.dbVersionNext mv).1 = (r₀.dbVersionNext mv).1 ∧
      Merging r₀ (r.dbVersionNext mv).2 mv ∧ Asked r₀ (r.dbVersionNext mv).2 mv := by
  have hagain : r.checked.dbVersion = r₀.checked.dbVersion ∧
      (r.dbVersionNext mv).1 = (r₀.dbVersionNext mv).1 := by
    rcases h.clock with hu | ha
    · have hcheck : r.checked.dbVersion = r₀.checked.dbVersion := by
        rw [Replica.checked, Replica.checked, dbVersionCheckUptodate, dbVersionCheckUptodate,
          hu.view, hu.dbVersion, hu.cached]
        split_ifs
        · exact hu.dbVersion
        · rfl
      refine ⟨hcheck, nextVersion_congr hcheck ?_ mv⟩
      rw [Replica.checked, Replica.checked, dbVersionCheckUptodate_pendingDbVersion,
        dbVersionCheckUptodate_pendingDbVersion, hu.pending]
    · exact ha.again hset h.dataVersion
  have hasked : Asked r₀ (r.dbVersionNext mv).2 mv :=
    ⟨hagain.1, hagain.2, (dbVersionCheckUptodate_dataVersion r.view r.data).trans h.dataVersion⟩
  exact ⟨hagain.2, ⟨h.dataVersion, (dbVersionNext_seq r mv).trans h.seq, .inr hasked⟩, hasked⟩

theorem write (h : Merging r₀ r mv) (ha : Asked r₀ r mv) (t : Table (schema i)) :
    Merging r₀ (r.setTable i t) mv ∧ Asked r₀ (r.setTable i t) mv :=
  ⟨⟨h.dataVersion, h.seq, .inr ⟨ha.dbVersion, ha.pending, ha.cached⟩⟩,
    ha.dbVersion, ha.pending, ha.cached⟩

/-- A statement on the base table between `SYNCBIT_SET` and `SYNCBIT_RESET`. -/
theorem stepInsync (h : Merging r₀ r mv) (stmt : MergeStmt)
    (f : Table (schema i) → Table (schema i)) (hf : ∀ t, (f t).metadata = t.metadata) :
    ∃ r', Store.stepInsync noFaults r i stmt f = (.ok (), r') ∧ r'.metaAt = r.metaAt ∧
      r'.siteIds = r.siteIds ∧ Merging r₀ r' mv := by
  have hmeta : (((r.setInsync true).setTable i (f (r.table i))).setInsync false).metaAt =
      r.metaAt := metaAt_setTable_of_metadata (r := r.setInsync true) (hf (r.table i))
  exact ⟨_, rfl, hmeta, rfl, h.idle hmeta
    (view_setTable_of_metadata (r := r.setInsync true) (hf (r.table i))) rfl⟩

theorem stepVersioned (h : Merging r₀ r mv) (hset : r₀.checked.dbVersion ≠ CLOUDSYNC_VALUE_NOTSET)
    (stmt : MergeStmt) (f : ℤ → Table (schema i) → Table (schema i)) :
    ∃ r', Store.stepVersioned noFaults r i stmt mv f = (.ok (), r') ∧
      (∀ q, r'.metaAt q = if q.1 = i then
        (f (r₀.dbVersionNext mv).1 (r.table i)).metadata.get q.2 else r.metaAt q) ∧
      r'.siteIds = r.siteIds ∧ Merging r₀ r' mv ∧ Asked r₀ r' mv := by
  rcases h.request hset with ⟨hversion, hnext, hasked⟩
  refine ⟨_, rfl, fun q => ?_, rfl, hnext.write hasked _⟩
  rw [metaAt_setTable, hversion]
  rfl

theorem mergeSetWinnerClock (h : Merging r₀ r mv)
    (hset : r₀.checked.dbVersion ≠ CLOUDSYNC_VALUE_NOTSET) (pk : Pk) (colname : String)
    (colVersion : ℤ) (site : SiteId) (seq : ℤ) :
    ∃ r', Store.mergeSetWinnerClock noFaults r i pk colname colVersion mv site seq = (.ok (), r') ∧
      r'.metaAt = Function.update r.metaAt (i, pk, colname)
        (some ⟨colVersion, (r₀.dbVersionNext mv).1, (getsetSiteid r.siteIds site).1, seq⟩) ∧
      r'.siteIds = (getsetSiteid r.siteIds site).2 ∧ Merging r₀ r' mv ∧ Asked r₀ r' mv := by
  have hsite : Merging r₀ { r with siteIds := (getsetSiteid r.siteIds site).2 } mv :=
    h.idle rfl rfl rfl
  rcases hsite.stepVersioned (i := i) hset (.winnerClock colname) (fun version t =>
    t.metaWinnerClock pk colname colVersion version seq (getsetSiteid r.siteIds site).1) with
      ⟨r', hr', hmeta, hsites, h'⟩
  refine ⟨r', hr', ?_, hsites, h'⟩
  funext q
  rcases q with ⟨j, k⟩
  rw [hmeta, Function.update_apply, Table.metaWinnerClock, Keyed.get_replace]
  by_cases hj : j = i
  · subst hj
    simp [Replica.metaAt]
  · simp only [hj, if_false, Prod.mk.injEq, false_and]
    rfl

theorem mergeInsertCol (h : Merging r₀ r mv)
    (hset : r₀.checked.dbVersion ≠ CLOUDSYNC_VALUE_NOTSET) (pk : Pk) {colName : String}
    {col : Fin (schema i).ncols} (hcol : tableColumnLookup (schema i) colName = some col)
    (colValue : Value) (colVersion : ℤ) (site : SiteId) (seq : ℤ) :
    ∃ r', Store.mergeInsertCol noFaults r i pk colName colValue colVersion mv site seq =
        (.ok (), r') ∧
      r'.metaAt = Function.update r.metaAt (i, pk, colName)
        (some ⟨colVersion, (r₀.dbVersionNext mv).1, (getsetSiteid r.siteIds site).1, seq⟩) ∧
      r'.siteIds = (getsetSiteid r.siteIds site).2 ∧ Merging r₀ r' mv := by
  generalize hgos : ((schema i).algo == TableAlgo.crdtGos) = gos
  have hoff : Merging r₀ (if gos then r.setEnabled i false else r) mv := by
    cases gos
    · exact h
    · exact h.idle rfl rfl rfl
  rcases hoff.stepInsync (i := i) .colMerge (fun t => t.colMerge pk col colValue) (fun _ => rfl)
    with ⟨r₁, hr₁, hmeta₁, hsites₁, h₁⟩
  have hon : Merging r₀ (if gos then r₁.setEnabled i true else r₁) mv := by
    cases gos
    · exact h₁
    · exact h₁.idle rfl rfl rfl
  have hsame : (if gos then r₁.setEnabled i true else r₁).metaAt = r.metaAt ∧
      (if gos then r₁.setEnabled i true else r₁).siteIds = r.siteIds := by
    cases gos
    · exact ⟨hmeta₁, hsites₁⟩
    · exact ⟨hmeta₁, hsites₁⟩
  rcases hon.mergeSetWinnerClock (i := i) hset pk colName colVersion site seq with
    ⟨r', hr', hmeta, hsites, h', -⟩
  rw [hsame.1, hsame.2] at hmeta
  rw [hsame.2] at hsites
  refine ⟨r', ?_, hmeta, hsites, h'⟩
  simp only [Store.mergeInsertCol, hcol, hgos, hr₁, Outcome.andThen_ok]
  exact hr'

/-- A row is deleted: its columns are dropped once the clock of the change is written. -/
theorem mergeDelete (h : Merging r₀ r mv) (hset : r₀.checked.dbVersion ≠ CLOUDSYNC_VALUE_NOTSET)
    (pk : Pk) (colname : String) (cl : ℤ) (site : SiteId) (seq : ℤ) :
    ∃ r', Store.mergeDelete noFaults r i pk colname cl mv site seq = (.ok (), r') ∧
      (∀ q, r'.metaAt q = if q.1 = i ∧ Table.isColumnOf pk q.2 = true then none
        else Function.update r.metaAt (i, pk, colname)
          (some ⟨cl, (r₀.dbVersionNext mv).1, (getsetSiteid r.siteIds site).1, seq⟩) q) ∧
      r'.siteIds = (getsetSiteid r.siteIds site).2 ∧ Merging r₀ r' mv := by
  rcases h.stepInsync (i := i) .mergeDelete (fun t => t.realMergeDelete pk) (fun _ => rfl)
    with ⟨r₁, hr₁, hmeta₁, hsites₁, h₁⟩
  rcases h₁.mergeSetWinnerClock (i := i) hset pk colname cl site seq with
    ⟨r₂, hr₂, hmeta₂, hsites₂, h₂, hasked⟩
  rw [hmeta₁, hsites₁] at hmeta₂
  rw [hsites₁] at hsites₂
  refine ⟨r₂.setTable i ((r₂.table i).metaMergeDeleteDrop pk), ?_, fun q => ?_, hsites₂,
    (h₂.write hasked _).1⟩
  · rw [Store.mergeDelete, hr₁, Outcome.andThen_ok, hr₂, Outcome.andThen_ok]
    rfl
  · rw [← hmeta₂, metaAt_setTable, Table.metaMergeDeleteDrop, Table.metaRowDrop,
      Keyed.get_deleteWhere]
    rcases q with ⟨j, k⟩
    by_cases hj : j = i
    · subst hj
      by_cases hk : Table.isColumnOf pk k = true
      · simp [hk]
      · cases hget : (r₂.table j).metadata.get k <;> simp [Replica.metaAt, hk, hget]
    · simp [hj]

/-- A row comes to life: its columns start over at the version of the merge. -/
theorem mergeSentinelOnlyInsert (h : Merging r₀ r mv)
    (hset : r₀.checked.dbVersion ≠ CLOUDSYNC_VALUE_NOTSET) (pk : Pk) (cl : ℤ) (site : SiteId)
    (seq : ℤ) :
    ∃ r', Store.mergeSentinelOnlyInsert noFaults r i pk cl mv site seq = (.ok (), r') ∧
      (∀ q, r'.metaAt q = if q = (i, pk, CLOUDSYNC_TOMBSTONE_VALUE) then
          some ⟨cl, (r₀.dbVersionNext mv).1, (getsetSiteid r.siteIds site).1, seq⟩
        else if q.1 = i ∧ Table.isColumnOf pk q.2 = true then
          (r.metaAt q).map fun m => { m with colVersion := 0, dbVersion := (r₀.dbVersionNext mv).1 }
        else r.metaAt q) ∧
      r'.siteIds = (getsetSiteid r.siteIds site).2 ∧ Merging r₀ r' mv := by
  rcases h.stepInsync (i := i) .mergeSentinel (fun t => t.realMergeSentinel pk)
    (fun t => t.realMergeSentinel_metadata pk) with ⟨r₁, hr₁, hmeta₁, hsites₁, h₁⟩
  rcases h₁.stepVersioned (i := i) hset .zeroClock (fun version t => t.metaZeroClock version pk)
    with ⟨r₂, hr₂, hmeta₂, hsites₂, h₂, -⟩
  rcases h₂.mergeSetWinnerClock (i := i) hset pk CLOUDSYNC_TOMBSTONE_VALUE cl site seq with
    ⟨r₃, hr₃, hmeta₃, hsites₃, h₃, -⟩
  rw [hsites₂, hsites₁] at hmeta₃ hsites₃
  refine ⟨r₃, ?_, fun q => ?_, hsites₃, h₃⟩
  · rw [Store.mergeSentinelOnlyInsert, hr₁, Outcome.andThen_ok, mergeZeroclockOnResurrect, hr₂,
      Outcome.andThen_ok, hr₃]
  · rw [hmeta₃, Function.update_apply, hmeta₂, Table.metaZeroClock, Keyed.get_updateWhere, ← hmeta₁]
    rcases q with ⟨j, k⟩
    by_cases hj : j = i
    · subst hj
      cases Table.isColumnOf pk k <;> simp [Replica.metaAt]
    · simp [hj]

end Merging

def Change.Names (c : Change n) (q : Place n) : Prop := q.1 = c.tbl ∧ q.2.1 = c.pk

theorem Change.Names.ext {c : Change n} {q q' : Place n} (h : c.Names q) (h' : c.Names q')
    (hname : q.2.2 = q'.2.2) : q = q' :=
  Prod.ext (h.1.trans h'.1.symm) (Prod.ext (h.2.trans h'.2.symm) hname)

theorem Change.isColumnOf_iff (c : Change n) (q : Place n) :
    (q.1 = c.tbl ∧ Table.isColumnOf c.pk q.2 = true) ↔
      c.Names q ∧ q.2.2 ≠ CLOUDSYNC_TOMBSTONE_VALUE := by
  simp [Table.isColumnOf, Change.Names, and_assoc]

namespace Replica
variable (r : Replica schema) (c : Change n)

def Buries : Prop :=
  (schema c.tbl).algo ≠ .crdtGos ∧ 0 ≤ (r.table c.tbl).metaLocalCl c.pk ∧
    (r.table c.tbl).metaLocalCl c.pk < c.cl ∧ c.cl.tmod 2 = 0

def Revives : Prop := r.SentinelWins c ∨ r.ColumnWins c ∧ r.Resurrects c

def incoming (colVersion : ℤ) : MetaRow :=
  ⟨colVersion, (r.dbVersionNext c.dbVersion).1, (getsetSiteid r.siteIds c.siteId).1, c.seq⟩

/-- The metadata once the row of the change has come to life at a causal length. -/
def revived (cl : ℤ) (q : Place n) : Option MetaRow :=
  if q = (c.tbl, c.pk, CLOUDSYNC_TOMBSTONE_VALUE) then some (r.incoming c cl)
  else if q.1 = c.tbl ∧ Table.isColumnOf c.pk q.2 = true then
    (r.metaAt q).map fun m => { m with colVersion := 0, dbVersion := (r.dbVersionNext c.dbVersion).1 }
  else r.metaAt q

end Replica

/-- What a merge of `c` in `r` can do: nothing, delete the row, bring it to life,
write a column, or the last two together. -/
inductive MergeEffect (r r' : Replica schema) (c : Change n) : Prop
  | idle (he : r' = r)
  | bury (hburies : r.Buries c) (hsites : r'.siteIds = (getsetSiteid r.siteIds c.siteId).2)
      (hmeta : ∀ q, r'.metaAt q = if q.1 = c.tbl ∧ Table.isColumnOf c.pk q.2 = true then none
        else Function.update r.metaAt (c.tbl, c.pk, c.name) (some (r.incoming c c.colVersion)) q)
  | revive (cl : ℤ) (hrevives : r.Revives c)
      (hsites : r'.siteIds = (getsetSiteid r.siteIds c.siteId).2)
      (hmeta : ∀ q, r'.metaAt q = r.revived c cl q)
  | take (hwins : r.ColumnWins c) (hcol : tableColumnLookup (schema c.tbl) c.name ≠ none)
      (hsites : r'.siteIds = (getsetSiteid r.siteIds c.siteId).2)
      (hmeta : r'.metaAt = Function.update r.metaAt (c.tbl, c.pk, c.name)
        (some (r.incoming c c.colVersion)))
  | reviveTake (hwins : r.ColumnWins c) (hcol : tableColumnLookup (schema c.tbl) c.name ≠ none)
      (hres : r.Resurrects c) (hsites : r'.siteIds = (getsetSiteid r.siteIds c.siteId).2)
      (hmeta : ∀ q, r'.metaAt q = Function.update (r.revived c c.cl) (c.tbl, c.pk, c.name)
        (some (r.incoming c c.colVersion)) q)

/-- The change of a column on a row that need not come to life first. -/
theorem mergeColumn_effect {r : Replica schema} {c : Change n}
    (hset : r.checked.dbVersion ≠ CLOUDSYNC_VALUE_NOTSET)
    (hpos : 0 ≤ (r.table c.tbl).metaLocalCl c.pk)
    (hle : (r.table c.tbl).metaLocalCl c.pk ≤ c.cl) (hodd : c.cl.tmod 2 ≠ 0)
    (hname : c.name ≠ CLOUDSYNC_TOMBSTONE_VALUE) {needsResurrect rowExistsLocally : Bool}
    (hneeds : needsResurrect = true → (r.table c.tbl).metaLocalCl c.pk < c.cl)
    (hexists : rowExistsLocally = false → (r.table c.tbl).metaLocalCl c.pk < c.cl) :
    MergeEffect r (mergeColumn noFaults r c needsResurrect rowExistsLocally).2 c ∧
      Merging r (mergeColumn noFaults r c needsResurrect rowExistsLocally).2 c.dbVersion := by
  cases hcol : tableColumnLookup (schema c.tbl) c.name with
  | none =>
    rw [mergeColumn_snd_of_none r c hcol]
    exact ⟨.idle rfl, .refl r _⟩
  | some col =>
    rcases mergeDidCidWin_iff r c hcol with ⟨flag, hflag, -⟩
    rw [mergeColumn, hflag]
    dsimp only
    split_ifs with hwin
    · have hwins : r.ColumnWins c := by
        refine .inr ⟨hpos, hle, hodd, hname, ?_⟩
        simp only [Bool.or_eq_true, Bool.not_eq_true'] at hwin
        rcases hwin with (hwin | hwin) | rfl
        · exact .inl (hneeds hwin)
        · exact .inl (hexists hwin)
        · exact .inr hflag
      rcases (Merging.refl r c.dbVersion).mergeInsertCol hset c.pk hcol c.colValue c.colVersion
        c.siteId c.seq with ⟨r', hr', hmeta, hsites, h'⟩
      rw [Outcome.describe_snd, hr']
      exact ⟨.take hwins (hcol ▸ Option.some_ne_none col) hsites hmeta, h'⟩
    · exact ⟨.idle rfl, .refl r _⟩

theorem cloudsyncMergeInsert_effect {r : Replica schema} {c : Change n}
    (hset : r.checked.dbVersion ≠ CLOUDSYNC_VALUE_NOTSET) :
    MergeEffect r (cloudsyncMergeInsert noFaults r c).2 c ∧
      Merging r (cloudsyncMergeInsert noFaults r c).2 c.dbVersion := by
  have h₀ := Merging.refl r c.dbVersion
  have hidle : MergeEffect r r c ∧ Merging r r c.dbVersion := ⟨.idle rfl, h₀⟩
  by_cases hgos : (schema c.tbl).algo = .crdtGos
  · rw [cloudsyncMergeInsert, if_pos hgos, cloudsyncMergeInsertGos, Outcome.describe_snd]
    cases hcol : tableColumnLookup (schema c.tbl) c.name with
    | none =>
      simp only [mergeInsertCol, hcol]
      exact hidle
    | some col =>
      rcases h₀.mergeInsertCol hset c.pk hcol c.colValue c.colVersion c.siteId c.seq with
        ⟨r', hr', hmeta, hsites, h'⟩
      rw [hr']
      exact ⟨.take (.inl hgos) (hcol ▸ Option.some_ne_none col) hsites hmeta, h'⟩
  rw [cloudsyncMergeInsert, if_neg hgos]
  simp only [noFaults_apply]
  split_ifs with hneg hold heven heq htomb heq hsentinel
  · exact hidle
  · exact hidle
  · exact hidle
  · rcases h₀.mergeDelete hset c.pk c.name c.colVersion c.siteId c.seq with
      ⟨r', hr', hmeta, hsites, h'⟩
    rw [Outcome.describe_snd, hr']
    exact ⟨.bury ⟨hgos, by omega, by omega, heven⟩ hsites hmeta, h'⟩
  · exact hidle
  · rcases h₀.mergeSentinelOnlyInsert hset c.pk c.colVersion c.siteId c.seq with
      ⟨r', hr', hmeta, hsites, h'⟩
    rw [Outcome.describe_snd, hr']
    exact ⟨.revive c.colVersion (.inl ⟨hgos, by omega, by omega, heven, htomb⟩) hsites hmeta, h'⟩
  · -- the row comes to life, and the column is written if the table knows it
    have hres : r.Resurrects c := by
      simp only [Bool.and_eq_true, Bool.or_eq_true, decide_eq_true_eq] at hsentinel
      exact ⟨hgos, hsentinel.1.1, hsentinel.2⟩
    have hwins : r.ColumnWins c :=
      .inr ⟨not_lt.mp hneg, not_lt.mp hold, heven, htomb, .inl hres.2.1⟩
    rcases h₀.mergeSentinelOnlyInsert hset c.pk c.cl c.siteId c.seq with
      ⟨r', hr', hmeta, hsites, h'⟩
    rw [hr', Outcome.describe_ok, Outcome.andThen_ok]
    cases hcol : tableColumnLookup (schema c.tbl) c.name with
    | none =>
      rw [mergeColumn_snd_of_none r' c hcol]
      exact ⟨.revive c.cl (.inr ⟨hwins, hres⟩) hsites hmeta, h'⟩
    | some col =>
      rw [Bool.and_eq_true] at hsentinel
      rw [mergeColumn_of_wins r' c hcol (.inl hsentinel.1), Outcome.describe_snd]
      rcases h'.mergeInsertCol hset c.pk hcol c.colValue c.colVersion c.siteId c.seq with
        ⟨r'', hr'', hmeta', hsites', h''⟩
      rw [hsites, getsetSiteid_snd] at hmeta' hsites'
      rw [hr'']
      refine ⟨.reviveTake hwins (hcol ▸ Option.some_ne_none col) hres hsites' ?_, h''⟩
      rw [hmeta', show r'.metaAt = r.revived c c.cl from funext hmeta]
      exact fun q => rfl
  · rw [Outcome.andThen_ok]
    apply mergeColumn_effect hset (not_lt.mp hneg) (not_lt.mp hold) heven htomb
    · intro hneeds
      rw [Bool.and_eq_true] at hneeds
      exact of_decide_eq_true hneeds.1
    · intro hexists
      have hzero : (r.table c.tbl).metaLocalCl c.pk = 0 := by simpa using hexists
      have hcl : c.cl ≠ 0 := by
        intro hcl
        rw [hcl] at heven
        exact heven rfl
      omega

end SqliteSync.Store
