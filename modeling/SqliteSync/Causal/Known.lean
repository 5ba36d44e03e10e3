import SqliteSync.Causal.Propagate
import SqliteSync.Causal.Summary

/-!
# What a replica knows

Along a run rows only grow: a causal length never falls, and during a life the
register of a column is only overwritten by a greater one. So what a row has taken
in stays below it, and a merge of it, however late, is a step that does nothing.
-/
namespace SqliteSync.Store
open Library Clock

theorem register_le_of_lt {v : Option ℤ} {w : ℤ} (h : v.getD 0 < w) (x : Option Value) (y : Value) :
    register v x ≤ register (some w) (some y) := by
  cases v with
  | none => exact bot_le
  | some v =>
    cases x with
    | none => exact bot_le
    | some x => exact WithBot.coe_le_coe.mpr ((rank_lt_iff v w x y).mpr (.inl h)).le

theorem register_congr (v : Option ℤ) {x y : Value}
    (h : dbutilsValueCompare (some x) (some y) = 0) :
    register v (some x) = register v (some y) := by
  cases v with
  | none => rfl
  | some v => exact register_eq_iff.mpr ⟨rfl, h⟩

theorem ok_of_toOption {ε α : Type*} {x : Except ε α} {a : α} (h : x.toOption = some a) :
    x = .ok a := by
  cases x with
  | error err => cases h
  | ok b =>
    cases h
    rfl

theorem rank_le_iff (v w : ℤ) (x y : Value) :
    rank v x ≤ rank w y ↔ v < w ∨ v = w ∧ 0 ≤ dbutilsValueCompare (some y) (some x) := by
  have hcompare : 0 ≤ dbutilsValueCompare (some y) (some x) ↔ compareKey x ≤ compareKey y := by
    rw [← not_lt, dbutilsValueCompare_neg_iff, not_lt]
  rw [hcompare, rank, rank, Prod.Lex.toLex_le_toLex]

theorem le_register_iff {v : ℤ} {x : Value} {w : Option ℤ} {y : Option Value} :
    register (some v) (some x) ≤ register w y ↔
      ∃ w' y', w = some w' ∧ y = some y' ∧ rank v x ≤ rank w' y' := by
  constructor
  · intro hle
    have hne : register w y ≠ ⊥ := fun hbot => WithBot.not_coe_le_bot _ (hbot ▸ hle)
    rw [Ne, register_eq_bot_iff, not_or] at hne
    rcases Option.ne_none_iff_exists'.mp hne.1 with ⟨w', rfl⟩
    rcases Option.ne_none_iff_exists'.mp hne.2 with ⟨y', rfl⟩
    exact ⟨w', y', rfl, rfl, WithBot.coe_le_coe.mp hle⟩
  · rintro ⟨w', y', rfl, rfl, hle⟩
    exact WithBot.coe_le_coe.mpr hle

namespace RowState
variable {table : TableContext} {s : RowState table}

theorem BelowMax.register_le (h : s.BelowMax) {t : RowState table} {col : Fin table.ncols}
    {dbVersion seq : ℤ} {x : Value} (hvalue : t.value col = some x)
    (hinfo : t.info (table.colName col) =
      some ⟨markVersion (s.info (table.colName col)) 1, dbVersion, 0, seq⟩) :
    s.summary.content col ≤ t.summary.content col := by
  have hversion : t.version col = some (markVersion (s.info (table.colName col)) 1) := by
    rw [version, hinfo]
    rfl
  rw [summary_content, summary_content, hversion, hvalue]
  exact register_le_of_lt (h.version_lt col) _ x

theorem Consistent.le_marked (h : s.Consistent) (hbelow : s.BelowMax) {oldRow : Row table}
    (hold : s.row = some oldRow) (row : Row table) (dbVersion : ℤ) (seq : String → ℤ) :
    s.summary ≤
      ((s.setRow (some row)).markColumns (changedColumns row oldRow) dbVersion seq).summary := by
  have hodd : s.localCl % 2 = 1 := h.alive_of_row hold
  have hrow : ((s.setRow (some row)).markColumns (changedColumns row oldRow) dbVersion seq).row =
      some row := rfl
  refine .inr ⟨(localCl_markColumns (s := s.setRow (some row)) hodd _ _ _).symm, fun col => ?_⟩
  by_cases hcol : col ∈ changedColumns row oldRow
  · exact hbelow.register_le (value_of_row hrow col) (markColumns_of_mem _ hcol _ _)
  · have hsame : dbutilsValueCompare (some (row col)) (some (oldRow col)) = 0 :=
      not_not.mp (mt mem_changedColumns.mpr hcol)
    apply le_of_eq
    rw [summary_content, summary_content, value_of_row hold, value_of_row hrow, version, version,
      markColumns_of_notMem]
    · exact (register_congr _ hsame).symm
    · exact fun col' hcol' he => hcol (table.colName_injective he ▸ hcol')

theorem BelowMax.le_inserted (hbelow : s.BelowMax) (row : Row table) (dbVersion seq₁ : ℤ)
    (seq : String → ℤ) :
    s.summary ≤ ((s.setRow (some row)).inserted dbVersion seq₁ seq).summary := by
  have hcl : ((s.setRow (some row)).inserted dbVersion seq₁ seq).localCl = bumpVersion s.sentinel :=
    inserted_localCl _ _ _ _
  rcases hbelow.localCl_le_bump.lt_or_eq with hlt | heq
  · exact Epoch.le_of_lt (hlt.trans_eq hcl.symm)
  · refine .inr ⟨heq.trans hcl.symm, fun col => ?_⟩
    apply hbelow.register_le (value_of_row (inserted_row _ _ _ _) col)
    rw [RowState.inserted, markColumns_of_mem _ (List.mem_finRange col)]
    have htomb := colName_ne_tombstone table col
    split_ifs
    · rw [RowState.markAlive, setInfo_info, if_neg htomb, setRow_info]
    · rw [RowState.bumpAlive]
      cases (s.setRow (some row)).sentinel with
      | none => rw [setRow_info]
      | some m => rw [RowState.markAlive, setInfo_info, if_neg htomb, setRow_info]

theorem BelowMax.le_deleted (hbelow : s.BelowMax) (dbVersion seq : ℤ) :
    s.summary ≤ ((s.setRow none).deleted dbVersion seq).summary := by
  have hcl : ((s.setRow none).deleted dbVersion seq).localCl = markVersion s.sentinel 2 := by
    apply localCl_of_sentinel (m := ⟨markVersion s.sentinel 2, dbVersion, 0, seq⟩)
    simp [RowState.deleted, RowState.markDeleted]
  exact Epoch.le_of_lt (hbelow.localCl_lt_mark.trans_eq hcl.symm)

theorem Consistent.le_arrived (h : s.Consistent) (hbelow : s.BelowMax)
    (hstarts : s.sentinel = none → s.row = none) (old : RowState table) (row : Row table)
    (cols : List (Fin table.ncols)) (dbVersion seq₂ seq₃ : ℤ) (seq : String → ℤ) :
    s.summary ≤ ((s.setRow (some row)).arrived old cols dbVersion seq₂ seq₃ seq).summary := by
  have hcl : ((s.setRow (some row)).arrived old cols dbVersion seq₂ seq₃ seq).localCl =
      bumpVersion s.sentinel := arrived_localCl _ _ _ _ _ _ _
  apply Epoch.le_of_lt
  refine lt_of_lt_of_eq ?_ hcl.symm
  by_cases hs : s.sentinel = none
  · have hdead : ¬ s.localCl % 2 = 1 := fun hodd => h.row_iff.mpr hodd (hstarts hs)
    have hle := localCl_le_one hs
    rw [summary_epoch, hs]
    change s.localCl < 1
    omega
  · exact hbelow.localCl_lt_bump hs

end RowState

namespace Replica
variable {n : ℕ} {schema : Fin n → TableContext}

/-- No clock of the rows a change names is at the end of its range, and a row that
moves to a key starts a life of that key. -/
def Ascends (r : Replica schema) : Event schema → Prop
  | .write i (.insert _ pk _) | .write i (.delete pk) => (r.rows i pk).BelowMax
  | .write i (.update _ oldpk pk _) => (r.rows i oldpk).BelowMax ∧ (r.rows i pk).BelowMax ∧
      (pk ≠ oldpk → (r.rows i pk).sentinel = none → (r.rows i pk).row = none)
  | .merge c => c.WellFormedFor (schema c.tbl)
  | .commit => True

instance (r : Replica schema) : (e : Event schema) → Decidable (r.Ascends e)
  | .write i (.insert _ pk _) | .write i (.delete pk) =>
    inferInstanceAs (Decidable (r.rows i pk).BelowMax)
  | .write i (.update _ oldpk pk _) =>
    inferInstanceAs (Decidable ((r.rows i oldpk).BelowMax ∧ (r.rows i pk).BelowMax ∧
      (pk ≠ oldpk → (r.rows i pk).sentinel = none → (r.rows i pk).row = none)))
  | .merge c => inferInstanceAs (Decidable (c.WellFormedFor (schema c.tbl)))
  | .commit => isTrue trivial

/-- The steps along which rows only grow. -/
def KeepsOrder (r : Replica schema) (e : Event schema) : Prop := r.KeepsParity e ∧ r.Ascends e

instance (r : Replica schema) (e : Event schema) : Decidable (r.KeepsOrder e) :=
  inferInstanceAs (Decidable (_ ∧ _))

def Sound (r : Replica schema) : Prop := r.AllRecording ∧ ∀ i pk, (r.rows i pk).Consistent

/-- Each row of `r'` is above that of `r`. -/
def Below (r r' : Replica schema) : Prop :=
  ∀ i pk, (r.rows i pk).summary ≤ (r'.rows i pk).summary

theorem Below.refl (r : Replica schema) : r.Below r := fun _ _ => le_rfl

theorem Below.trans {r r' r'' : Replica schema} (h : r.Below r') (h' : r'.Below r'') :
    r.Below r'' := fun i pk => (h i pk).trans (h' i pk)

theorem sound_of_reached (hcls : ∀ i, (schema i).algo = .crdtCls) {r : Replica schema}
    (h : Reached schema KeepsOrder r) : r.Sound := by
  refine h.recording_invariant hcls (I := fun i s => s.Consistent) (fun _ _ _ hc => hc.1.1)
    (fun _ _ hs => hs.localCl_nonneg) (fun _ => RowState.consistent_absent) ?_ ?_
  · rintro r i c dbVersion seq₀ rows' ⟨⟨-, hmax⟩, -⟩ hs hstep
    refine RowState.consistent_rowStep hstep ?_ hs
    rintro pk (⟨o, pk', row, rfl, hne⟩ | rfl)
    · exact hmax hne
    · exact hmax
  · exact fun r c st _ hwf hs => RowState.consistent_merged hs hwf st

theorem le_rowStep {r : Replica schema} {i : Fin n} (hr : ∀ pk, (r.rows i pk).Consistent)
    {c : RowChange (schema i)} (hascends : r.Ascends (.write i c)) {dbVersion seq₀ : ℤ}
    {rows' : Pk → RowState (schema i)} (hstep : RowStep dbVersion seq₀ (r.rows i) c rows')
    (pk : Pk) : (r.rows i pk).summary ≤ (rows' pk).summary := by
  cases hstep with
  | @insert orReplace pk' row hfree seq₁ seq hseq₁ hseq =>
    rw [Function.update_apply]
    split_ifs with hpk
    · subst hpk
      exact RowState.BelowMax.le_inserted hascends row dbVersion seq₁ seq
    · exact le_rfl
  | @update orReplace pk' row oldRow hold seq hseq =>
    rw [Function.update_apply]
    split_ifs with hpk
    · subst hpk
      exact (hr pk).le_marked hascends.1 hold row dbVersion seq
    · exact le_rfl
  | @move orReplace oldpk pk' hne row oldRow hold hfree seq₁ seq₂ seq₃ seq hseq₁ hseq₂ hseq₃ hseq =>
    rw [Function.update_apply, Function.update_apply]
    split_ifs with hpk hpk
    · subst hpk
      exact (hr pk).le_arrived hascends.2.1 (hascends.2.2 hne) _ row _ dbVersion seq₂ seq₃ seq
    · subst hpk
      exact hascends.1.le_deleted dbVersion seq₁
    · exact le_rfl
  | @delete pk' hold seq₁ hseq₁ =>
    rw [Function.update_apply]
    split_ifs with hpk
    · subst hpk
      exact RowState.BelowMax.le_deleted hascends dbVersion seq₁
    · exact le_rfl

/-- A merge whose statements succeed makes the abstract merge of the row it names, and
of no other. -/
theorem rows_merge (hcls : ∀ i, (schema i).algo = .crdtCls) {r : Replica schema} (hr : r.Sound)
    {c : Change n} (hwf : c.WellFormedFor (schema c.tbl)) (i : Fin n) (pk : Pk) :
    (((cloudsyncMergeInsert noFaults r c).2).rows i pk).summary =
      if c.tbl = i ∧ c.pk = pk then
        (r.rows i pk).summary.merge (c.summary (schema i))
      else (r.rows i pk).summary := by
  have hgos : (schema c.tbl).algo ≠ .crdtGos := by
    rw [hcls]
    decide
  rcases cloudsyncMergeInsert_merged r c hgos (hr.2 c.tbl c.pk).localCl_nonneg with ⟨st, hm⟩
  split_ifs with h
  · rcases h with ⟨rfl, rfl⟩
    rw [rows, hm.rewrites.here]
    exact (hr.2 c.tbl c.pk).summary_merged hwf st
  · by_cases hi : i = c.tbl
    · subst hi
      rw [rows, hm.rewrites.rows pk fun hpk => h ⟨rfl, hpk.symm⟩]
      rfl
    · rw [rows, hm.rewrites.tables i hi]
      rfl

theorem below_step (hcls : ∀ i, (schema i).algo = .crdtCls) {r r' : Replica schema} (hr : r.Sound)
    {e : Event schema} (he : r.KeepsOrder e) (h : r.step e = some r') : r.Below r' := by
  intro i pk
  cases e with
  | write j c =>
    rcases applyRowChange_rowStep (hr.1 j) he.1.1 h with ⟨rows', hstep, hholds⟩
    by_cases hj : i = j
    · subst hj
      have hrow : r'.rows i pk = rows' pk := hholds.rowAt pk
      rw [hrow]
      exact le_rowStep (hr.2 i) he.2 hstep pk
    · have hrow : r'.rows i pk = r.rows i pk := by
        rw [rows, hholds.tables i hj]
        rfl
      rw [hrow]
  | merge c =>
    rw [step, Option.ite_none_right_eq_some, Option.some.injEq] at h
    rcases h with ⟨-, rfl⟩
    rw [rows_merge hcls hr he.2]
    split_ifs
    · exact CausalRow.le_merge _ _
    · exact le_rfl
  | commit =>
    cases h
    exact le_rfl

theorem below_of_run (hcls : ∀ i, (schema i).algo = .crdtCls) {r r' : Replica schema}
    (h : Reached schema KeepsOrder r) (hrun : Reachable step (fun s => s = r) KeepsOrder r') :
    r.Below r' := by
  induction hrun with
  | start hs => exact hs ▸ Below.refl r
  | next hs e he ht ih => exact ih.trans (below_step hcls (sound_of_reached hcls (h.trans hs)) he ht)

def Knows (r : Replica schema) (c : Change n) : Prop :=
  c.summary (schema c.tbl) ≤ (r.rows c.tbl c.pk).summary

theorem Knows.mono {r r' : Replica schema} {c : Change n} (h : r.Knows c) (hle : r.Below r') :
    r'.Knows c := le_trans h (hle c.tbl c.pk)

theorem knows_merged (hcls : ∀ i, (schema i).algo = .crdtCls) {r : Replica schema} (hr : r.Sound)
    {c : Change n} (hwf : c.WellFormedFor (schema c.tbl)) :
    (cloudsyncMergeInsert noFaults r c).2.Knows c := by
  rw [Knows, rows_merge hcls hr hwf, if_pos ⟨rfl, rfl⟩]
  exact CausalRow.change_le_merge _ _

/-- A column the change does not beat is not won, whatever fails on the way. -/
theorem mergeDidCidWin_ne_true {r : Replica schema} {c : Change n} {col : Fin (schema c.tbl).ncols}
    (hcol : tableColumnLookup (schema c.tbl) c.name = some col)
    (hlose : ¬ (r.rows c.tbl c.pk).Beaten col c) (faults : Faults) :
    mergeDidCidWin faults r c.tbl c.pk c.colValue c.name c.colVersion ≠ .ok true := by
  intro hwin
  apply hlose
  simp only [mergeDidCidWin, Table.metaColVersion, hcol] at hwin
  intro m hm
  have hm' : (r.table c.tbl).metadata.get (c.pk, c.name) = some m := hm
  rw [hm'] at hwin
  cases hversion : faults .colVersion with
  | some err =>
    rw [hversion] at hwin
    cases hwin
  | none =>
    rw [hversion] at hwin
    simp only [Option.map_some] at hwin
    split_ifs at hwin with hnewer holder
    · exact .inl hnewer
    · cases hwin
    · refine .inr ⟨by omega, ?_⟩
      cases hvalue : faults .colValue with
      | some err =>
        rw [hvalue] at hwin
        cases hwin
      | none =>
        rw [hvalue] at hwin
        exact of_decide_eq_true (Except.ok.inj hwin)

theorem mergeColumn_of_not_beaten {r : Replica schema} {c : Change n}
    {col : Fin (schema c.tbl).ncols}
    (hcol : tableColumnLookup (schema c.tbl) c.name = some col)
    (hlose : ¬ (r.rows c.tbl c.pk).Beaten col c) (faults : Faults) :
    (mergeColumn faults r c false true).2 = r := by
  have hwin := mergeDidCidWin_ne_true hcol hlose faults
  rw [mergeColumn]
  cases hflag : mergeDidCidWin faults r c.tbl c.pk c.colValue c.name c.colVersion with
  | error err => rfl
  | ok flag =>
    have hfalse : flag = false := Bool.eq_false_iff.mpr fun h => hwin (h ▸ hflag)
    rw [hfalse]
    rfl

/-- A merge of what the replica knows ends at once, or with a column it does not win. -/
theorem Knows.cases {r : Replica schema} {c : Change n} (h : r.Knows c)
    (hcls : (schema c.tbl).algo ≠ .crdtGos) (hr : (r.rows c.tbl c.pk).Consistent)
    (hwf : c.WellFormedFor (schema c.tbl)) {faults : Faults} (hfaults : faults .localCl = none) :
    cloudsyncMergeInsert faults r c = (.ok (), r) ∨
      ∃ col, tableColumnLookup (schema c.tbl) c.name = some col ∧
        ¬ (r.rows c.tbl c.pk).Beaten col c ∧
        cloudsyncMergeInsert faults r c = mergeColumn faults r c false true := by
  have hlocal : (r.table c.tbl).metaLocalCl c.pk = (r.rows c.tbl c.pk).localCl :=
    Table.metaLocalCl_eq _ _
  have hpos := hr.localCl_nonneg
  have hle : c.cl ≤ (r.rows c.tbl c.pk).localCl := Epoch.epoch_le h
  simp only [cloudsyncMergeInsert, if_neg hcls, hfaults, hlocal, if_neg hpos.not_gt]
  rcases hle.lt_or_eq with hlt | heq
  · exact .inl (if_pos hlt)
  rw [if_neg heq.not_lt]
  rcases hwf with ⟨hname, -⟩ | ⟨⟨col, hname⟩, hodd, -⟩
  · rw [if_pos heq.symm, if_pos hname, if_pos heq.symm, ite_self]
    exact .inl rfl
  · have hmod : c.cl.tmod 2 = 1 := by
      rw [Int.tmod_eq_emod_of_nonneg (by omega), hodd]
    have hexists : (r.rows c.tbl c.pk).localCl ≠ 0 := by omega
    refine .inr ⟨col, by rw [hname, tableColumnLookup_colName],
      hr.not_beaten_of_le (heq ▸ hodd) h heq hname, ?_⟩
    rw [hmod, if_neg one_ne_zero, if_neg (hname ▸ colName_ne_tombstone _ col),
      decide_eq_false heq.not_gt, decide_eq_true hexists]
    rfl

/-- A merge of what the replica knows succeeds if its statements do, and changes nothing,
neither rows nor clock nor sites, whether they do or not. -/
theorem Knows.merge {r : Replica schema} {c : Change n} (h : r.Knows c)
    (hcls : (schema c.tbl).algo ≠ .crdtGos) (hr : (r.rows c.tbl c.pk).Consistent)
    (hwf : c.WellFormedFor (schema c.tbl)) :
    cloudsyncMergeInsert noFaults r c = (.ok (), r) ∧
      ∀ faults, (cloudsyncMergeInsert faults r c).2 = r := by
  constructor
  · rcases h.cases hcls hr hwf (noFaults_apply _) with heq | ⟨col, hcol, hlose, heq⟩
    · exact heq
    · exact heq.trans (mergeColumn_of_loses r c hcol hlose)
  · intro faults
    cases hfaults : faults .localCl with
    | some err => simp only [cloudsyncMergeInsert, if_neg hcls, hfaults]
    | none =>
      rcases h.cases hcls hr hwf hfaults with heq | ⟨col, hcol, hlose, heq⟩
      · rw [heq]
      · rw [heq]
        exact mergeColumn_of_not_beaten hcol hlose faults

/-- A change that was merged once changes nothing more, however late it comes again and
whatever was written and merged in between. -/
theorem redelivered (hcls : ∀ i, (schema i).algo = .crdtCls) {r r' : Replica schema}
    (h : Reached schema KeepsOrder r) {c : Change n} (hwf : c.WellFormedFor (schema c.tbl))
    (hrun : Reachable step (fun s => s = (cloudsyncMergeInsert noFaults r c).2) KeepsOrder r') :
    cloudsyncMergeInsert noFaults r' c = (.ok (), r') ∧
      ∀ faults, (cloudsyncMergeInsert faults r' c).2 = r' := by
  have hgos : (schema c.tbl).algo ≠ .crdtGos := by
    rw [hcls]
    decide
  have hmerged : Reached schema KeepsOrder (cloudsyncMergeInsert noFaults r c).2 :=
    h.next (.merge c) ⟨trivial, hwf⟩ (if_pos hwf.wellFormed)
  have hknows := knows_merged hcls (sound_of_reached hcls h) hwf
  have hsound := sound_of_reached hcls (hmerged.trans hrun)
  exact (hknows.mono (below_of_run hcls hmerged hrun)).merge hgos (hsound.2 c.tbl c.pk) hwf

/-- A row merged, updated here and beaten there, and then merged again. -/
theorem redelivered_updated : ∃ r' : Replica fun _ : Fin 1 => singleColumn,
    (r'.table 0).colValue [.integer 1] ⟨0, Nat.one_pos⟩ = some (.integer 12) ∧
      (cloudsyncMergeInsert noFaults r'
        ⟨0, [.integer 1], some "v", .integer 10, 1, 1, [2], 1, 0⟩).2 = r' := by
  rcases Reachable.exists_of_runs step
    (fun r : Replica fun _ : Fin 1 => singleColumn => r = (cloudsyncMergeInsert noFaults
      (empty _ [1]) ⟨0, [.integer 1], some "v", .integer 10, 1, 1, [2], 1, 0⟩).2) KeepsOrder rfl
    [.write 0 (.update false [.integer 1] [.integer 1] fun _ => .integer 11), .commit,
      .merge ⟨0, [.integer 1], some "v", .integer 12, 3, 4, [3], 1, 0⟩]
    (fun r => decide ((r.table 0).colValue [.integer 1] ⟨0, Nat.one_pos⟩ = some (.integer 12)))
    (by decide) with ⟨r', hr', hvalue⟩
  exact ⟨r', of_decide_eq_true hvalue, (redelivered (fun _ => rfl) (.start ⟨[1], rfl⟩)
    (by decide : Change.WellFormedFor singleColumn
      (⟨0, [.integer 1], some "v", .integer 10, 1, 1, [2], 1, 0⟩ : Change 1)) hr').2 noFaults⟩

/-- What a replica has sent once it knows for good: a merge of it is a step that does
nothing, however late it comes back. -/
theorem echoed (hcls : ∀ i, (schema i).algo = .crdtCls)
    (hdflt : ∀ i col, (schema i).dflt col ≠ CLOUDSYNC_RLS_RESTRICTED_VALUE) {r r' : Replica schema}
    (h : Reached schema (fun r e => r.KeepsFeed e ∧ r.Ascends e) r) {feed : List (Change n)}
    (hfeed : r.cloudsyncChanges = .ok feed) {c : Change n} (hc : c ∈ feed)
    (hrun : Reachable step (fun s => s = r) KeepsOrder r') :
    cloudsyncMergeInsert noFaults r' c = (.ok (), r') ∧
      ∀ faults, (cloudsyncMergeInsert faults r' c).2 = r' := by
  have hgos : (schema c.tbl).algo ≠ .crdtGos := by
    rw [hcls]
    decide
  have hrows := (complete_of_reached hcls hdflt (h.mono fun _ _ he => he.1)).2
  have horder : Reached schema KeepsOrder r := h.mono fun _ _ he => ⟨he.1.2.1, he.2⟩
  have hsends := sends_of_feed (fun i pk => (hrows i pk).1) (fun i pk => (hrows i pk).2) hfeed c hc
  have hwf := hsends.wellFormedFor (hrows c.tbl c.pk).1 (hrows c.tbl c.pk).2.clocks
  have hsound := sound_of_reached hcls (horder.trans hrun)
  have hknows : r.Knows c := hsends.summary_le
  exact (hknows.mono (below_of_run hcls horder hrun)).merge hgos (hsound.2 c.tbl c.pk) hwf

/-- A row written, and sent back after the next commit. -/
theorem echoed_written : ∃ (r : Replica fun _ : Fin 1 => singleColumn) (feed : List (Change 1))
    (c : Change 1), r.cloudsyncChanges = .ok feed ∧ c ∈ feed ∧
      (cloudsyncMergeInsert noFaults { r with data := cloudsyncCommitHook r.data } c).2 =
        { r with data := cloudsyncCommitHook r.data } := by
  rcases Reachable.exists_of_runs step
    (fun r : Replica fun _ : Fin 1 => singleColumn => ∃ site, r = empty _ site)
    (fun r e => r.KeepsFeed e ∧ r.Ascends e) ⟨[1], rfl⟩
    [.write 0 (.insert false [.integer 1] fun _ => .integer 10),
      .write 0 (.update false [.integer 1] [.integer 1] fun _ => .integer 11)]
    (fun r => decide (r.cloudsyncChanges.toOption =
      some [⟨0, [.integer 1], some "v", .integer 11, 2, 1, [1], 1, 1⟩])) (by decide) with
      ⟨r, hr, hsent⟩
  have hfeed := ok_of_toOption (of_decide_eq_true hsent)
  exact ⟨r, _, _, hfeed, .head [], (echoed (fun _ => rfl)
    (fun _ _ => (by decide : Value.null ≠ CLOUDSYNC_RLS_RESTRICTED_VALUE)) hr hfeed (.head [])
    (.next (.start rfl) .commit ⟨trivial, trivial⟩ rfl)).2 noFaults⟩

/-- The rows of a replica do not go back: a causal length never falls, and while it
stays, neither do the version of a column and the value under that version. -/
theorem never_older (hcls : ∀ i, (schema i).algo = .crdtCls) {r r' : Replica schema}
    (h : Reached schema KeepsOrder r) (hrun : Reachable step (fun s => s = r) KeepsOrder r')
    (i : Fin n) (pk : Pk) :
    (r.table i).metaLocalCl pk ≤ (r'.table i).metaLocalCl pk ∧
      ((r.table i).metaLocalCl pk = (r'.table i).metaLocalCl pk → ∀ col v x,
        (r.table i).metaColVersion pk ((schema i).colName col) = some v →
        (r.table i).colValue pk col = some x →
        ∃ v' x', (r'.table i).metaColVersion pk ((schema i).colName col) = some v' ∧
          (r'.table i).colValue pk col = some x' ∧
          (v < v' ∨ v = v' ∧ 0 ≤ dbutilsValueCompare (some x') (some x))) := by
  have hle := below_of_run hcls h hrun i pk
  rw [Table.metaLocalCl_eq, Table.metaLocalCl_eq]
  refine ⟨Epoch.epoch_le hle, fun heq col v x hv hx => ?_⟩
  have hregister := Epoch.content_le hle heq col
  have hversion : (r.rows i pk).version col = some v := hv
  have hvalue : (r.rows i pk).value col = some x := hx
  rw [RowState.summary_content, hversion, hvalue, RowState.summary_content] at hregister
  rcases le_register_iff.mp hregister with ⟨v', x', hv', hx', hrank⟩
  exact ⟨v', x', hv', hx', (rank_le_iff v v' x x').mp hrank⟩

/-- A row written, and then beaten by a merge. -/
theorem never_older_beaten : ∃ r' : Replica fun _ : Fin 1 => singleColumn,
    (r'.table 0).colValue [.integer 1] ⟨0, Nat.one_pos⟩ = some (.integer 12) ∧
      1 ≤ (r'.table 0).metaLocalCl [.integer 1] := by
  rcases Reachable.exists_of_runs step
    (fun r : Replica fun _ : Fin 1 => singleColumn => r = (cloudsyncMergeInsert noFaults
      (empty _ [1]) ⟨0, [.integer 1], some "v", .integer 10, 1, 1, [2], 1, 0⟩).2) KeepsOrder rfl
    [.write 0 (.update false [.integer 1] [.integer 1] fun _ => .integer 11), .commit,
      .merge ⟨0, [.integer 1], some "v", .integer 12, 3, 4, [3], 1, 0⟩]
    (fun r => decide ((r.table 0).colValue [.integer 1] ⟨0, Nat.one_pos⟩ = some (.integer 12)))
    (by decide) with ⟨r', hr', hvalue⟩
  have hmerged : Reached (fun _ : Fin 1 => singleColumn) KeepsOrder
      (cloudsyncMergeInsert noFaults (empty _ [1])
        ⟨0, [.integer 1], some "v", .integer 10, 1, 1, [2], 1, 0⟩).2 :=
    Reachable.next (.start ⟨[1], rfl⟩)
      (.merge ⟨0, [.integer 1], some "v", .integer 10, 1, 1, [2], 1, 0⟩) (by decide) rfl
  exact ⟨r', of_decide_eq_true hvalue, (never_older (fun _ => rfl) hmerged hr' 0 [.integer 1]).1⟩

end Replica
end SqliteSync.Store
