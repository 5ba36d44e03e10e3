import SqliteSync.Store.Merge
import SqliteSync.Store.Effect

/-!
# A merge, row by row

What a merge whose statements succeed does to the row it names, as one
transition of that row, and that `cloudsync_merge_insert` makes this transition
and touches no other row.
-/
namespace SqliteSync.Store
open Library Clock

/-- The versions a merge is given for the clocks it writes, and the rowid of the
site it merges from. -/
structure Stamps where
  zero : ℤ
  sentinel : ℤ
  column : ℤ
  site : ℕ

namespace RowState
variable {table : TableContext} {n : ℕ}

/-- The row comes to life at a causal length: its base row exists, its columns
start over, its sentinel holds the length. -/
def resurrect (s : RowState table) (cl : ℤ) (c : Change n) (st : Stamps) : RowState table :=
  ((s.setRow (some (s.row.getD table.dflt))).zeroColumns st.zero).setInfo
    CLOUDSYNC_TOMBSTONE_VALUE ⟨cl, st.sentinel, st.site, c.seq⟩

/-- The row takes the value and the clock of a change in one column. -/
def take (s : RowState table) (col : Fin table.ncols) (c : Change n) (st : Stamps) :
    RowState table :=
  (s.setRow (some (Function.update (s.row.getD table.dflt) col c.colValue))).setInfo c.name
    ⟨c.colVersion, st.column, st.site, c.seq⟩

def bury (s : RowState table) (c : Change n) (st : Stamps) : RowState table :=
  ((s.setRow none).setInfo c.name ⟨c.colVersion, st.sentinel, st.site, c.seq⟩).dropColumns

/-- A change beats what the row holds in its column: there is nothing, or an
older version, or the same version with a smaller value. -/
def Beaten (s : RowState table) (col : Fin table.ncols) (c : Change n) : Prop :=
  ∀ m, s.info c.name = some m → m.colVersion < c.colVersion ∨ m.colVersion = c.colVersion ∧
    0 < dbutilsValueCompare (some c.colValue) (s.row.map fun row => row col)

theorem beaten_of_none {s : RowState table} {c : Change n} (h : s.info c.name = none)
    (col : Fin table.ncols) : s.Beaten col c := by
  intro m hm
  rw [h] at hm
  cases hm

theorem beaten_iff {s : RowState table} {c : Change n} {m : MetaRow} (h : s.info c.name = some m)
    (col : Fin table.ncols) :
    s.Beaten col c ↔ m.colVersion < c.colVersion ∨ m.colVersion = c.colVersion ∧
      0 < dbutilsValueCompare (some c.colValue) (s.row.map fun row => row col) := by
  simp only [Beaten, h, Option.some.injEq, forall_eq']

/-- The row a column change is decided on: one it brings to life starts over,
unless it never existed and the change is its first life. -/
noncomputable def prepared (s : RowState table) (c : Change n) (st : Stamps) : RowState table :=
  if s.localCl < c.cl ∧ (s.localCl ≠ 0 ∨ 1 < c.cl) then s.resurrect c.cl c st else s

open Classical in
noncomputable def columnMerged (s : RowState table) (c : Change n) (st : Stamps) : RowState table :=
  match tableColumnLookup table c.name with
  | none => s.prepared c st
  | some col => if s.localCl < c.cl ∨ s.Beaten col c then (s.prepared c st).take col c st else s

theorem columnMerged_of_none {s : RowState table} {c : Change n}
    (hcol : tableColumnLookup table c.name = none) (st : Stamps) :
    s.columnMerged c st = s.prepared c st := by
  simp only [columnMerged, hcol]

theorem columnMerged_of_wins {s : RowState table} {c : Change n} {col : Fin table.ncols}
    (hcol : tableColumnLookup table c.name = some col) (hwin : s.localCl < c.cl ∨ s.Beaten col c)
    (st : Stamps) : s.columnMerged c st = (s.prepared c st).take col c st := by
  simp only [columnMerged, hcol, if_pos hwin]

theorem columnMerged_of_loses {s : RowState table} {c : Change n} {col : Fin table.ncols}
    (hcol : tableColumnLookup table c.name = some col)
    (hlose : ¬ (s.localCl < c.cl ∨ s.Beaten col c)) (st : Stamps) : s.columnMerged c st = s := by
  simp only [columnMerged, hcol, if_neg hlose]

/-- The transition of the row under a merged change. -/
noncomputable def merged (s : RowState table) (c : Change n) (st : Stamps) : RowState table :=
  if c.cl < s.localCl then s
  else if c.cl % 2 = 0 then
    if s.localCl = c.cl then s else s.bury c st
  else if c.name = CLOUDSYNC_TOMBSTONE_VALUE then
    if s.localCl = c.cl then s else s.resurrect c.colVersion c st
  else s.columnMerged c st

end RowState

theorem getsetSiteid_snd (siteIds : List SiteId) (site : SiteId) :
    getsetSiteid (getsetSiteid siteIds site).2 site = getsetSiteid siteIds site := by
  by_cases h : site ∈ siteIds
  · simp [getsetSiteid, h]
  · have hi : (siteIds ++ [site]).idxOf site = siteIds.length := by
      rw [List.idxOf_append_of_notMem h]
      simp
    simp [getsetSiteid, h, hi]

section
variable {n : ℕ} {schema : Fin n → TableContext}

/-- From `r₀`, steps of a merge from `site` have led to `r`, which holds `s`
under the key they write. -/
structure Reaches (r₀ r : Replica schema) (i : Fin n) (pk : Pk) (site : SiteId)
    (s : RowState (schema i)) (versions : List ℤ) : Prop where
  rewrites : Rewrites r₀ r i pk s
  clocked : Clocked r₀ r versions
  sites : r.siteIds = r₀.siteIds ∨ r.siteIds = (getsetSiteid r₀.siteIds site).2

namespace Reaches
variable {r₀ r : Replica schema} {i : Fin n} {pk : Pk} {site : SiteId} {s : RowState (schema i)}
  {versions : List ℤ}

theorem refl (r : Replica schema) (i : Fin n) (pk : Pk) (site : SiteId) :
    Reaches r r i pk site ((r.table i).rowAt pk) [] :=
  ⟨.refl r i pk, .refl r, .inl rfl⟩

/-- A statement on the base table between `SYNCBIT_SET` and `SYNCBIT_RESET`. -/
theorem stepInsync (h : Reaches r₀ r i pk site s versions) (stmt : MergeStmt)
    (f : Table (schema i) → Table (schema i)) (g : RowState (schema i) → RowState (schema i))
    (hf : ∀ t pk', (f t).rowAt pk' = if pk' = pk then g (t.rowAt pk) else t.rowAt pk')
    (hm : ∀ t, (f t).metadata = t.metadata) :
    ∃ r', Store.stepInsync noFaults r i stmt f = (.ok (), r') ∧
      Reaches r₀ r' i pk site (g s) versions := by
  refine ⟨_, rfl, ⟨?_, ?_, h.sites⟩⟩
  · have hstep := Rewrites.setTable (r := r) (hf (r.table i))
    rw [h.rewrites.here] at hstep
    exact h.rewrites.trans ⟨hstep.tables, hstep.rows, hstep.here⟩
  · have hview : (r.setTable i (f (r.table i))).view = r.view := view_setTable_of_metadata (hm _)
    exact ⟨h.clocked.dataVersion, h.clocked.seq, fun _ => rfl, h.clocked.enabled,
      fun hv => ⟨hview.trans (h.clocked.fresh hv).1, (h.clocked.fresh hv).2⟩, h.clocked.latest,
      h.clocked.asked⟩

theorem stepVersioned (h : Reaches r₀ r i pk site s versions) (stmt : MergeStmt) (dbVersion : ℤ)
    (f : ℤ → Table (schema i) → Table (schema i))
    (g : ℤ → RowState (schema i) → RowState (schema i))
    (hf : ∀ v t pk', (f v t).rowAt pk' = if pk' = pk then g v (t.rowAt pk) else t.rowAt pk') :
    ∃ r' v, Store.stepVersioned noFaults r i stmt dbVersion f = (.ok (), r') ∧
      Reaches r₀ r' i pk site (g v s) (v :: versions) := by
  refine ⟨_, (r.dbVersionNext dbVersion).1, rfl, ⟨?_, ?_, h.sites⟩⟩
  · have hstep := Rewrites.setTable (r := (r.dbVersionNext dbVersion).2)
      (hf (r.dbVersionNext dbVersion).1 ((r.dbVersionNext dbVersion).2.table i))
    rw [Replica.dbVersionNext_table, h.rewrites.here] at hstep
    exact h.rewrites.trans ⟨hstep.tables, hstep.rows, hstep.here⟩
  · exact (h.clocked.request dbVersion).write rfl rfl rfl
      (fun hv => absurd hv (List.cons_ne_nil _ _))

theorem stepStmt (h : Reaches r₀ r i pk site s versions) (hv : versions ≠ []) (stmt : MergeStmt)
    (f : Table (schema i) → Table (schema i)) (g : RowState (schema i) → RowState (schema i))
    (hf : ∀ t pk', (f t).rowAt pk' = if pk' = pk then g (t.rowAt pk) else t.rowAt pk') :
    ∃ r', Store.stepStmt noFaults r i stmt f = (.ok (), r') ∧
      Reaches r₀ r' i pk site (g s) versions := by
  refine ⟨_, rfl, ⟨?_, ?_, h.sites⟩⟩
  · have hstep := Rewrites.setTable (r := r) (hf (r.table i))
    rw [h.rewrites.here] at hstep
    exact h.rewrites.trans hstep
  · exact h.clocked.write rfl rfl rfl (fun hnil => absurd hnil hv)

/-- The winner clock: the site is stored, and the metadata row of the column written. -/
theorem mergeSetWinnerClock (h : Reaches r₀ r i pk site s versions) (colname : String)
    (colVersion dbVersion seq : ℤ) :
    ∃ r' v, Store.mergeSetWinnerClock noFaults r i pk colname colVersion dbVersion site seq =
        (.ok (), r') ∧
      Reaches r₀ r' i pk site
        (s.setInfo colname ⟨colVersion, v, (getsetSiteid r₀.siteIds site).1, seq⟩)
        (v :: versions) := by
  have hsite : getsetSiteid r.siteIds site = getsetSiteid r₀.siteIds site := by
    rcases h.sites with hs | hs
    · rw [hs]
    · rw [hs, getsetSiteid_snd]
  have hsites : Reaches r₀ { r with siteIds := (getsetSiteid r₀.siteIds site).2 } i pk site s
      versions :=
    ⟨⟨h.rewrites.tables, h.rewrites.rows, h.rewrites.here⟩,
      h.clocked.write rfl rfl rfl (fun _ => rfl), .inr rfl⟩
  have hstep := hsites.stepVersioned (.winnerClock colname) dbVersion
    (fun v t => t.metaWinnerClock pk colname colVersion v seq (getsetSiteid r₀.siteIds site).1)
    (fun v s => s.setInfo colname ⟨colVersion, v, (getsetSiteid r₀.siteIds site).1, seq⟩)
    (fun v t pk' => t.rowAt_metaWinnerClock pk pk' colname colVersion v seq
      (getsetSiteid r₀.siteIds site).1)
  simp only [Store.mergeSetWinnerClock, noFaults, hsite]
  exact hstep

theorem mergeInsertCol (h : Reaches r₀ r i pk site s versions) {colName : String}
    {col : Fin (schema i).ncols} (hcol : tableColumnLookup (schema i) colName = some col)
    (hcls : (schema i).algo ≠ .crdtGos) (colValue : Value) (colVersion dbVersion seq : ℤ) :
    ∃ r' v, Store.mergeInsertCol noFaults r i pk colName colValue colVersion dbVersion site seq =
        (.ok (), r') ∧
      Reaches r₀ r' i pk site
        ((s.setRow (some (Function.update (s.row.getD (schema i).dflt) col colValue))).setInfo
          colName ⟨colVersion, v, (getsetSiteid r₀.siteIds site).1, seq⟩)
        (v :: versions) := by
  rcases h.stepInsync .colMerge (fun t => t.colMerge pk col colValue)
    (fun s => s.setRow (some (Function.update (s.row.getD (schema i).dflt) col colValue)))
    (fun t pk' => t.rowAt_colMerge pk pk' col colValue) (fun _ => rfl) with ⟨r₁, hr₁, h₁⟩
  rcases h₁.mergeSetWinnerClock colName colVersion dbVersion seq with ⟨r₂, v, hr₂, h₂⟩
  refine ⟨r₂, v, ?_, h₂⟩
  have hgos : ((schema i).algo == TableAlgo.crdtGos) = false := beq_false_of_ne hcls
  simp [Store.mergeInsertCol, hcol, hgos, hr₁, hr₂]

theorem mergeSentinelOnlyInsert (h : Reaches r₀ r i pk site s versions) (cl dbVersion seq : ℤ) :
    ∃ r' z w, Store.mergeSentinelOnlyInsert noFaults r i pk cl dbVersion site seq = (.ok (), r') ∧
      Reaches r₀ r' i pk site
        (((s.setRow (some (s.row.getD (schema i).dflt))).zeroColumns z).setInfo
          CLOUDSYNC_TOMBSTONE_VALUE ⟨cl, w, (getsetSiteid r₀.siteIds site).1, seq⟩)
        (w :: z :: versions) := by
  rcases h.stepInsync .mergeSentinel (fun t => t.realMergeSentinel pk)
    (fun s => s.setRow (some (s.row.getD (schema i).dflt)))
    (fun t pk' => t.rowAt_realMergeSentinel pk pk') (fun t => t.realMergeSentinel_metadata pk) with
    ⟨r₁, hr₁, h₁⟩
  rcases h₁.stepVersioned .zeroClock dbVersion (fun v t => t.metaZeroClock v pk)
    (fun v s => s.zeroColumns v)
    (fun v t pk' => t.rowAt_metaZeroClock pk pk' v) with ⟨r₂, z, hr₂, h₂⟩
  rcases h₂.mergeSetWinnerClock CLOUDSYNC_TOMBSTONE_VALUE cl dbVersion seq with ⟨r₃, w, hr₃, h₃⟩
  refine ⟨r₃, z, w, ?_, h₃⟩
  rw [Store.mergeSentinelOnlyInsert, hr₁, Outcome.andThen_ok, mergeZeroclockOnResurrect, hr₂,
    Outcome.andThen_ok, hr₃]

theorem mergeDelete (h : Reaches r₀ r i pk site s versions) (colname : String)
    (cl dbVersion seq : ℤ) :
    ∃ r' w, Store.mergeDelete noFaults r i pk colname cl dbVersion site seq = (.ok (), r') ∧
      Reaches r₀ r' i pk site
        (((s.setRow none).setInfo colname
          ⟨cl, w, (getsetSiteid r₀.siteIds site).1, seq⟩).dropColumns) (w :: versions) := by
  rcases h.stepInsync .mergeDelete (fun t => t.realMergeDelete pk) (fun s => s.setRow none)
    (fun t pk' => t.rowAt_realMergeDelete pk pk') (fun _ => rfl) with ⟨r₁, hr₁, h₁⟩
  rcases h₁.mergeSetWinnerClock colname cl dbVersion seq with ⟨r₂, w, hr₂, h₂⟩
  rcases h₂.stepStmt (List.cons_ne_nil w versions) .deleteDrop
    (fun t => t.metaMergeDeleteDrop pk) (fun s => s.dropColumns)
    (fun t pk' => t.rowAt_metaMergeDeleteDrop pk pk') with ⟨r₃, hr₃, h₃⟩
  refine ⟨r₃, w, ?_, h₃⟩
  rw [Store.mergeDelete, hr₁, Outcome.andThen_ok, hr₂, Outcome.andThen_ok, hr₃]

end Reaches

section
variable (r : Replica schema) (c : Change n)

theorem mergeDidCidWin_iff {col : Fin (schema c.tbl).ncols}
    (hcol : tableColumnLookup (schema c.tbl) c.name = some col) :
    ∃ flag, mergeDidCidWin noFaults r c.tbl c.pk c.colValue c.name c.colVersion = .ok flag ∧
      (flag = true ↔ ((r.table c.tbl).rowAt c.pk).Beaten col c) := by
  simp only [mergeDidCidWin, noFaults, Table.metaColVersion, hcol]
  cases hm : (r.table c.tbl).metadata.get (c.pk, c.name) with
  | none =>
    exact ⟨true, rfl, by simp [RowState.beaten_of_none (s := (r.table c.tbl).rowAt c.pk) hm col]⟩
  | some m =>
    rw [RowState.beaten_iff (s := (r.table c.tbl).rowAt c.pk) hm col]
    rcases lt_trichotomy m.colVersion c.colVersion with h | h | h
    · simp [h]
    · simp [h, Table.colValue]
    · simp [h, h.not_gt, h.ne']

theorem mergeColumn_snd_of_none (hcol : tableColumnLookup (schema c.tbl) c.name = none)
    (needsResurrect rowExistsLocally : Bool) :
    (mergeColumn noFaults r c needsResurrect rowExistsLocally).2 = r := by
  rw [mergeColumn]
  cases mergeDidCidWin noFaults r c.tbl c.pk c.colValue c.name c.colVersion with
  | error err => rfl
  | ok flag =>
    dsimp only
    split_ifs
    · simp [mergeInsertCol, hcol]
    · rfl

theorem mergeColumn_of_loses {col : Fin (schema c.tbl).ncols}
    (hcol : tableColumnLookup (schema c.tbl) c.name = some col)
    (hlose : ¬ ((r.table c.tbl).rowAt c.pk).Beaten col c) :
    mergeColumn noFaults r c false true = (.ok (), r) := by
  rcases mergeDidCidWin_iff r c hcol with ⟨flag, hflag, hiff⟩
  have hfalse : flag = false := Bool.eq_false_iff.mpr fun h => hlose (hiff.mp h)
  simp [mergeColumn, hflag, hfalse]

theorem mergeColumn_of_wins {col : Fin (schema c.tbl).ncols}
    (hcol : tableColumnLookup (schema c.tbl) c.name = some col) {needsResurrect : Bool}
    (hwin : needsResurrect = true ∨ ((r.table c.tbl).rowAt c.pk).Beaten col c)
    (rowExistsLocally : Bool) :
    mergeColumn noFaults r c needsResurrect rowExistsLocally =
      (mergeInsertCol noFaults r c.tbl c.pk c.name c.colValue c.colVersion c.dbVersion c.siteId
        c.seq).describe "Unable to perform merge_insert_col: " := by
  rcases mergeDidCidWin_iff r c hcol with ⟨flag, hflag, hiff⟩
  rcases hwin with h | h
  · simp [mergeColumn, hflag, h]
  · simp [mergeColumn, hflag, hiff.mpr h]

/-- `r'` is `r` after a merge of `c` given the stamps `st`. -/
structure MergedInto (r r' : Replica schema) (c : Change n) (st : Stamps) : Prop where
  rewrites : Rewrites r r' c.tbl c.pk (((r.table c.tbl).rowAt c.pk).merged c st)
  site : st.site = (getsetSiteid r.siteIds c.siteId).1
  sites : r'.siteIds = r.siteIds ∨ r'.siteIds = (getsetSiteid r.siteIds c.siteId).2
  clocked : r' = r ∨ ∃ versions ≠ [], Clocked r r' versions ∧
    st.zero ∈ versions ∧ st.sentinel ∈ versions ∧ st.column ∈ versions

theorem MergedInto.of_unchanged {r : Replica schema} {c : Change n}
    (h : ∀ st, ((r.table c.tbl).rowAt c.pk).merged c st = (r.table c.tbl).rowAt c.pk) :
    ∃ st, MergedInto r r c st := by
  refine ⟨⟨0, 0, 0, (getsetSiteid r.siteIds c.siteId).1⟩, ?_, rfl, .inl rfl, .inl rfl⟩
  rw [h]
  exact .refl r c.tbl c.pk

theorem MergedInto.of_reaches {r r' : Replica schema} {c : Change n} {st : Stamps}
    {s : RowState (schema c.tbl)} {versions : List ℤ}
    (h : Reaches r r' c.tbl c.pk c.siteId s versions)
    (hs : ((r.table c.tbl).rowAt c.pk).merged c st = s)
    (hsite : st.site = (getsetSiteid r.siteIds c.siteId).1)
    (hst : st.zero ∈ versions ∧ st.sentinel ∈ versions ∧ st.column ∈ versions) :
    MergedInto r r' c st where
  rewrites := hs ▸ h.rewrites
  site := hsite
  sites := h.sites
  clocked := .inr ⟨versions, List.ne_nil_of_mem hst.1, h.clocked, hst⟩

/-- The branch of a column change: the row is prepared, and takes the change if it wins. -/
theorem mergedInto_column (s : RowState (schema c.tbl)) (hs : (r.table c.tbl).rowAt c.pk = s)
    (hcls : (schema c.tbl).algo ≠ .crdtGos) (hnew : s.localCl ≤ c.cl) (hodd : c.cl % 2 = 1)
    (hcolumn : c.name ≠ CLOUDSYNC_TOMBSTONE_VALUE) {x : Outcome (Replica schema)}
    (hx : x = if s.localCl < c.cl ∧ (s.localCl ≠ 0 ∨ 1 < c.cl) then
        (mergeSentinelOnlyInsert noFaults r c.tbl c.pk c.cl c.dbVersion c.siteId
          c.seq).describe "Unable to perform merge_sentinel_only_insert: "
      else (.ok (), r)) :
    ∃ st, MergedInto r (x.andThen fun r =>
      mergeColumn noFaults r c (decide (s.localCl < c.cl)) (decide (s.localCl ≠ 0))).2 c st := by
  have hmerged : ∀ st, s.merged c st = s.columnMerged c st := by
    intro st
    rw [RowState.merged, if_neg hnew.not_gt, if_neg (by omega), if_neg hcolumn]
  have h₀ : Reaches r r c.tbl c.pk c.siteId s [] := hs ▸ Reaches.refl r c.tbl c.pk c.siteId
  by_cases hrev : s.localCl < c.cl ∧ (s.localCl ≠ 0 ∨ 1 < c.cl)
  · rcases h₀.mergeSentinelOnlyInsert c.cl c.dbVersion c.seq with ⟨r', z, w, hr', h'⟩
    rw [if_pos hrev, hr', Outcome.describe_ok] at hx
    rw [hx, Outcome.andThen_ok]
    have hprep : ∀ v, s.prepared c ⟨z, w, v, (getsetSiteid r.siteIds c.siteId).1⟩ =
        s.resurrect c.cl c ⟨z, w, v, (getsetSiteid r.siteIds c.siteId).1⟩ := fun v => if_pos hrev
    cases hcol : tableColumnLookup (schema c.tbl) c.name with
    | none =>
      rw [mergeColumn_snd_of_none r' c hcol]
      refine ⟨⟨z, w, w, _⟩, .of_reaches h' ?_ rfl (by simp)⟩
      rw [hs, hmerged, RowState.columnMerged_of_none hcol, hprep]
      rfl
    | some col =>
      rcases h'.mergeInsertCol hcol hcls c.colValue c.colVersion c.dbVersion c.seq with
        ⟨r'', v, hr'', h''⟩
      rw [mergeColumn_of_wins r' c hcol (.inl (decide_eq_true hrev.1)), hr'', Outcome.describe_ok]
      refine ⟨⟨z, w, v, _⟩, .of_reaches h'' ?_ rfl (by simp)⟩
      rw [hs, hmerged, RowState.columnMerged_of_wins hcol (.inl hrev.1), hprep]
      rfl
  · rw [if_neg hrev] at hx
    rw [hx, Outcome.andThen_ok]
    have hprep : ∀ st, s.prepared c st = s := fun st => if_neg hrev
    cases hcol : tableColumnLookup (schema c.tbl) c.name with
    | none =>
      rw [mergeColumn_snd_of_none r c hcol]
      apply MergedInto.of_unchanged
      intro st
      rw [hs, hmerged, RowState.columnMerged_of_none hcol, hprep]
    | some col =>
      by_cases hwin : s.localCl < c.cl ∨ s.Beaten col c
      · rcases h₀.mergeInsertCol hcol hcls c.colValue c.colVersion c.dbVersion c.seq with
          ⟨r', v, hr', h'⟩
        have hflag : decide (s.localCl < c.cl) = true ∨
            ((r.table c.tbl).rowAt c.pk).Beaten col c := by
          rw [hs]
          exact hwin.imp_left decide_eq_true
        rw [mergeColumn_of_wins r c hcol hflag, hr', Outcome.describe_ok]
        refine ⟨⟨v, v, v, _⟩, .of_reaches h' ?_ rfl (by simp)⟩
        rw [hs, hmerged, RowState.columnMerged_of_wins hcol hwin, hprep]
        rfl
      · rw [not_or] at hwin
        have hexists : s.localCl ≠ 0 := by omega
        rw [decide_eq_false hwin.1, decide_eq_true hexists,
          mergeColumn_of_loses r c hcol (hs ▸ hwin.2)]
        apply MergedInto.of_unchanged
        intro st
        rw [hs, hmerged, RowState.columnMerged_of_loses hcol (not_or.mpr hwin)]

/-- `cloudsync_merge_insert` makes the transition of the row its change names. -/
theorem cloudsyncMergeInsert_merged (hcls : (schema c.tbl).algo ≠ .crdtGos)
    (hcl : 0 ≤ ((r.table c.tbl).rowAt c.pk).localCl) :
    ∃ st, MergedInto r (cloudsyncMergeInsert noFaults r c).2 c st := by
  have hlocal := (r.table c.tbl).metaLocalCl_eq c.pk
  have h₀ := Reaches.refl r c.tbl c.pk c.siteId
  generalize hs : (r.table c.tbl).rowAt c.pk = s at *
  rw [cloudsyncMergeInsert, if_neg hcls]
  simp only [noFaults_apply, hlocal, if_neg hcl.not_gt]
  by_cases hold : c.cl < s.localCl
  · rw [if_pos hold]
    apply MergedInto.of_unchanged
    intro st
    rw [hs, RowState.merged, if_pos hold]
  have hmod : c.cl.tmod 2 = c.cl % 2 := Int.tmod_eq_emod_of_nonneg (by omega)
  rw [if_neg hold, hmod]
  by_cases heven : c.cl % 2 = 0
  · rw [if_pos heven]
    by_cases heq : s.localCl = c.cl
    · rw [if_pos heq]
      apply MergedInto.of_unchanged
      intro st
      rw [hs, RowState.merged, if_neg hold, if_pos heven, if_pos heq]
    · rcases h₀.mergeDelete c.name c.colVersion c.dbVersion c.seq with ⟨r', w, hr', h'⟩
      rw [if_neg heq, hr', Outcome.describe_ok]
      refine ⟨⟨w, w, w, _⟩, .of_reaches h' ?_ rfl (by simp)⟩
      rw [hs, RowState.merged, if_neg hold, if_pos heven, if_neg heq]
      rfl
  rw [if_neg heven]
  have hodd : c.cl % 2 = 1 := by omega
  by_cases htomb : c.name = CLOUDSYNC_TOMBSTONE_VALUE
  · rw [if_pos htomb]
    by_cases heq : s.localCl = c.cl
    · rw [if_pos heq]
      apply MergedInto.of_unchanged
      intro st
      rw [hs, RowState.merged, if_neg hold, if_neg heven, if_pos htomb, if_pos heq]
    · rcases h₀.mergeSentinelOnlyInsert c.colVersion c.dbVersion c.seq with ⟨r', z, w, hr', h'⟩
      rw [if_neg heq, hr', Outcome.describe_ok]
      refine ⟨⟨z, w, w, _⟩, .of_reaches h' ?_ rfl (by simp)⟩
      rw [hs, RowState.merged, if_neg hold, if_neg heven, if_pos htomb, if_neg heq]
      rfl
  · rw [if_neg htomb]
    have hresurrect : (decide (c.cl > s.localCl) && decide (c.cl % 2 = 1)) =
        decide (s.localCl < c.cl) := by
      simp [hodd]
    rw [hresurrect]
    apply mergedInto_column r c s hs hcls (by omega) hodd htomb
    simp

end
end
end SqliteSync.Store
