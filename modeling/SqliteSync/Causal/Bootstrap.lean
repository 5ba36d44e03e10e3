import SqliteSync.Causal.Delivery

/-!
# Bootstrapping an empty replica

The feed of a replica carries a row for each of its clocks, and a column without
a clock has its default. Merged into an empty replica, in whatever order, the
feed rebuilds the base rows, the causal lengths and the column versions.
-/
namespace SqliteSync.Store
open Library Clock

/-- No value of the change is the reserved text. -/
def RowChange.Plain {table : TableContext} : RowChange table → Prop
  | .insert _ _ row | .update _ _ _ row => ∀ col, row col ≠ CLOUDSYNC_RLS_RESTRICTED_VALUE
  | .delete _ => True

instance {table : TableContext} : (c : RowChange table) → Decidable c.Plain
  | .insert _ _ row | .update _ _ _ row =>
    inferInstanceAs (Decidable (∀ col, row col ≠ CLOUDSYNC_RLS_RESTRICTED_VALUE))
  | .delete _ => isTrue trivial

instance {n : ℕ} (table : TableContext) (c : Change n) : Decidable (c.WellFormedFor table) :=
  inferInstanceAs (Decidable (_ ∨ (∃ col, c.name = table.colName col) ∧ _))

namespace RowState
variable {table : TableContext} {n : ℕ} {s : RowState table}

/-- The clocks of the row are those of its sentinel and of its columns, and none
is negative. -/
def KnownClocks (s : RowState table) : Prop :=
  ∀ name m, s.info name = some m →
    (name = CLOUDSYNC_TOMBSTONE_VALUE ∨ ∃ col, name = table.colName col) ∧ 0 ≤ m.colVersion

namespace KnownClocks

theorem named (h : s.KnownClocks) : s.Named := by
  intro name hinfo
  rcases Option.ne_none_iff_exists'.mp hinfo with ⟨m, hm⟩
  exact (h name m hm).1

theorem setInfo (h : s.KnownClocks) {name : String} {m : MetaRow}
    (hname : name = CLOUDSYNC_TOMBSTONE_VALUE ∨ ∃ col, name = table.colName col)
    (hm : 0 ≤ m.colVersion) : (s.setInfo name m).KnownClocks := by
  intro name' m' hinfo
  rw [setInfo_info] at hinfo
  split_ifs at hinfo with heq
  · rw [heq, ← Option.some_inj.mp hinfo]
    exact ⟨hname, hm⟩
  · exact h name' m' hinfo

theorem markVersion_nonneg (h : s.KnownClocks) (name : String) {first : ℤ} (hfirst : 0 ≤ first) :
    0 ≤ markVersion (s.info name) first := by
  rw [markVersion]
  cases hinfo : s.info name with
  | none => exact hfirst
  | some m =>
    have hm := (h name m hinfo).2
    simp only [Option.map_some, Option.getD_some, sqlAdd, INT64_MAX]
    omega

theorem bumpVersion_nonneg (h : s.KnownClocks) : 0 ≤ bumpVersion s.sentinel := by
  rw [bumpVersion]
  cases hinfo : s.sentinel with
  | none => exact zero_le_one
  | some m => exact sentinelBump_nonneg (h _ m hinfo).2

theorem markAlive (h : s.KnownClocks) (dbVersion seq : ℤ) :
    (s.markAlive dbVersion seq).KnownClocks :=
  h.setInfo (.inl rfl) h.bumpVersion_nonneg

theorem markColumns (h : s.KnownClocks) (cols : List (Fin table.ncols)) (dbVersion : ℤ)
    (seq : String → ℤ) : (s.markColumns cols dbVersion seq).KnownClocks := by
  intro name m hinfo
  by_cases hmarked : ∃ col ∈ cols, table.colName col = name
  · rcases hmarked with ⟨col, hcol, rfl⟩
    rw [markColumns_of_mem _ hcol] at hinfo
    rw [← Option.some_inj.mp hinfo]
    exact ⟨.inr ⟨col, rfl⟩, h.markVersion_nonneg _ zero_le_one⟩
  · rw [markColumns_of_notMem _ fun col hcol heq => hmarked ⟨col, hcol, heq⟩] at hinfo
    exact h name m hinfo

theorem dropColumns (h : s.KnownClocks) : s.dropColumns.KnownClocks := by
  intro name m hinfo
  rw [dropColumns_info] at hinfo
  split_ifs at hinfo
  exact h name m hinfo

theorem zeroColumns (h : s.KnownClocks) (dbVersion : ℤ) :
    (s.zeroColumns dbVersion).KnownClocks := by
  intro name m hinfo
  rw [zeroColumns_info] at hinfo
  split_ifs at hinfo
  · exact h name m hinfo
  · rcases Option.map_eq_some_iff.mp hinfo with ⟨m', hm', rfl⟩
    exact ⟨(h name m' hm').1, le_rfl⟩

theorem receive (h : s.KnownClocks) {old : RowState table} (hold : old.KnownClocks)
    (dbVersion seq : ℤ) : (s.receive old dbVersion seq).KnownClocks := by
  intro name m hinfo
  rw [receive_info] at hinfo
  split_ifs at hinfo with htomb hnone
  · exact h name m hinfo
  · exact h name m hinfo
  · rcases Option.ne_none_iff_exists'.mp hnone with ⟨m', hm'⟩
    rw [← Option.some_inj.mp hinfo]
    exact ⟨(hold name m' hm').1, zero_le_one⟩

theorem bumpAlive (h : s.KnownClocks) (dbVersion seq : ℤ) :
    (s.bumpAlive dbVersion seq).KnownClocks := by
  rw [RowState.bumpAlive]
  cases s.sentinel with
  | none => exact h
  | some m => exact h.markAlive dbVersion seq

theorem inserted (h : s.KnownClocks) (dbVersion seq₀ : ℤ) (seq : String → ℤ) :
    (s.inserted dbVersion seq₀ seq).KnownClocks := by
  rw [RowState.inserted]
  split_ifs
  · exact (h.markAlive _ _).markColumns _ _ _
  · exact (h.bumpAlive _ _).markColumns _ _ _

end KnownClocks

/-- What a row holds can be told from the changes it sends: its clocks are known,
a column without a clock has its default, and no value is hidden. -/
structure Complete (s : RowState table) : Prop where
  clocks : s.KnownClocks
  default : ∀ row, s.row = some row → ∀ col, s.info (table.colName col) = none →
    row col = table.dflt col
  shown : ∀ row, s.row = some row → ∀ col, row col ≠ CLOUDSYNC_RLS_RESTRICTED_VALUE

theorem complete_absent : (absent table).Complete :=
  ⟨by rintro name m ⟨⟩, by rintro row ⟨⟩, by rintro row ⟨⟩⟩

theorem Complete.of_none (hclocks : s.KnownClocks) (hrow : s.row = none) : s.Complete := by
  refine ⟨hclocks, fun row hr => ?_, fun row hr => ?_⟩ <;>
  · rw [hrow] at hr
    cases hr

/-- Whatever the row, it holds the values of `row`, and a column of it without a
clock is one of the default. -/
theorem Complete.of_some (hclocks : s.KnownClocks) {row : Row table} (hrow : s.row = some row)
    (hdefault : ∀ col, s.info (table.colName col) = none → row col = table.dflt col)
    (hshown : ∀ col, row col ≠ CLOUDSYNC_RLS_RESTRICTED_VALUE) : s.Complete := by
  refine ⟨hclocks, fun row' hr => ?_, fun row' hr => ?_⟩
  · obtain rfl := Option.some_inj.mp (hrow.symm.trans hr)
    exact hdefault
  · obtain rfl := Option.some_inj.mp (hrow.symm.trans hr)
    exact hshown

/-- A value the comparison does not see change has a clock already, under the
old key or the new one. -/
def TracksValues (old new : RowState table) (row oldRow : Row table) : Prop :=
  ∀ col, row col ≠ oldRow col → col ∈ changedColumns row oldRow ∨
    old.info (table.colName col) ≠ none ∨ new.info (table.colName col) ≠ none

instance (old new : RowState table) (row oldRow : Row table) :
    Decidable (TracksValues old new row oldRow) :=
  inferInstanceAs (Decidable (∀ _, _))

theorem Complete.marked (h : s.Complete) {row oldRow : Row table} (hold : s.row = some oldRow)
    (hshown : ∀ col, row col ≠ CLOUDSYNC_RLS_RESTRICTED_VALUE) (htracks : TracksValues s s row oldRow)
    (dbVersion : ℤ) (seq : String → ℤ) :
    ((s.setRow (some row)).markColumns (changedColumns row oldRow) dbVersion seq).Complete := by
  have hclocks : (s.setRow (some row)).KnownClocks := h.clocks
  refine .of_some (hclocks.markColumns _ _ _) rfl (fun col hnone => ?_) hshown
  have hin : col ∉ changedColumns row oldRow := by
    intro hin
    rw [markColumns_of_mem _ hin] at hnone
    cases hnone
  have hinfo : s.info (table.colName col) = none := by
    rwa [markColumns_of_notMem] at hnone
    intro col' hcol' heq
    exact hin (table.colName_injective heq ▸ hcol')
  by_contra hne
  rcases htracks col fun heq => hne (heq.trans (h.default oldRow hold col hinfo)) with
    hchanged | hclock | hclock
  · exact hin hchanged
  · exact hclock hinfo
  · exact hclock hinfo

theorem Complete.inserted (h : s.Complete) {row : Row table}
    (hshown : ∀ col, row col ≠ CLOUDSYNC_RLS_RESTRICTED_VALUE) (dbVersion seq₀ : ℤ)
    (seq : String → ℤ) : ((s.setRow (some row)).inserted dbVersion seq₀ seq).Complete := by
  have hclocks : (s.setRow (some row)).KnownClocks := h.clocks
  refine .of_some (hclocks.inserted _ _ _) ?_ (fun col hnone => ?_) hshown
  · rw [RowState.inserted]
    split_ifs <;> simp
  · rw [RowState.inserted, markColumns_of_mem _ (List.mem_finRange col)] at hnone
    cases hnone

theorem Complete.arrived (h : s.Complete) {old : RowState table} (hold : old.Complete)
    {row oldRow : Row table} (hrow : old.row = some oldRow)
    (hshown : ∀ col, row col ≠ CLOUDSYNC_RLS_RESTRICTED_VALUE)
    (htracks : TracksValues old s row oldRow) (dbVersion seqMove seqAlive : ℤ)
    (seq : String → ℤ) :
    ((s.setRow (some row)).arrived old (changedColumns row oldRow) dbVersion seqMove seqAlive
      seq).Complete := by
  have hclocks : (s.setRow (some row)).KnownClocks := h.clocks
  refine .of_some (((hclocks.receive hold.clocks _ _).markAlive _ _).markColumns _ _ _) rfl
    (fun col hnone => ?_) hshown
  have htomb := colName_ne_tombstone table col
  have hin : col ∉ changedColumns row oldRow := by
    intro hin
    rw [RowState.arrived, markColumns_of_mem _ hin] at hnone
    cases hnone
  -- neither key had a clock for the column
  have hinfo : old.info (table.colName col) = none ∧ s.info (table.colName col) = none := by
    rw [RowState.arrived, markColumns_of_notMem, markAlive, setInfo_info, if_neg htomb, receive_info,
      if_neg htomb] at hnone
    · split_ifs at hnone with holdnone
      exact ⟨holdnone, hnone⟩
    · intro col' hcol' heq
      exact hin (table.colName_injective heq ▸ hcol')
  by_contra hne
  rcases htracks col fun heq => hne (heq.trans (hold.default oldRow hrow col hinfo.1)) with
    hchanged | hclock | hclock
  · exact hin hchanged
  · exact hclock hinfo.1
  · exact hclock hinfo.2

theorem Complete.deleted (h : s.Complete) (dbVersion seq : ℤ) :
    ((s.setRow none).deleted dbVersion seq).Complete := by
  have hclocks : (s.setRow none).KnownClocks := h.clocks
  exact .of_none (hclocks.setInfo (.inl rfl) (h.clocks.markVersion_nonneg _ zero_le_two)).dropColumns
    rfl

theorem complete_rowStep {rows rows' : Pk → RowState table} {dbVersion seq₀ : ℤ}
    {c : RowChange table} (hstep : RowStep dbVersion seq₀ rows c rows')
    (hplain : c.Plain)
    (htracks : ∀ o oldpk pk row oldRow, c = .update o oldpk pk row →
      (rows oldpk).row = some oldRow → TracksValues (rows oldpk) (rows pk) row oldRow)
    (h : ∀ pk, (rows pk).Complete) : ∀ pk, (rows' pk).Complete := by
  intro pk'
  cases hstep with
  | @insert orReplace pk row hfree seq₁ seq hseq₁ hseq =>
    rw [Function.update_apply]
    split_ifs
    · exact (h pk).inserted hplain dbVersion seq₁ seq
    · exact h pk'
  | @update orReplace pk row oldRow hold seq hseq =>
    rw [Function.update_apply]
    split_ifs
    · exact (h pk).marked hold hplain (htracks _ pk pk row oldRow rfl hold) dbVersion seq
    · exact h pk'
  | @move orReplace oldpk pk hne row oldRow hold hfree seq₁ seq₂ seq₃ seq hseq₁ hseq₂ hseq₃ hseq =>
    rw [Function.update_apply, Function.update_apply]
    split_ifs
    · exact (h pk).arrived (h oldpk) hold hplain (htracks _ oldpk pk row oldRow rfl hold) dbVersion
        seq₂ seq₃ seq
    · exact (h oldpk).deleted dbVersion seq₁
    · exact h pk'
  | @delete pk hold seq₁ hseq₁ =>
    rw [Function.update_apply]
    split_ifs
    · exact (h pk).deleted dbVersion seq₁
    · exact h pk'

section
variable {c : Change n}

theorem Complete.row_getD (h : s.Complete) (col : Fin table.ncols)
    (hnone : s.info (table.colName col) = none) :
    s.row.getD table.dflt col = table.dflt col := by
  cases hrow : s.row with
  | none => rfl
  | some row => exact h.default row hrow col hnone

theorem Complete.shown_getD (h : s.Complete)
    (hdflt : ∀ col, table.dflt col ≠ CLOUDSYNC_RLS_RESTRICTED_VALUE) (col : Fin table.ncols) :
    s.row.getD table.dflt col ≠ CLOUDSYNC_RLS_RESTRICTED_VALUE := by
  cases hrow : s.row with
  | none => exact hdflt col
  | some row => exact h.shown row hrow col

theorem Complete.resurrect (h : s.Complete)
    (hdflt : ∀ col, table.dflt col ≠ CLOUDSYNC_RLS_RESTRICTED_VALUE) {cl : ℤ} (hcl : 0 ≤ cl)
    (st : Stamps) : (s.resurrect cl c st).Complete := by
  have hclocks : (s.setRow (some (s.row.getD table.dflt))).KnownClocks := h.clocks
  refine .of_some ((hclocks.zeroColumns _).setInfo (.inl rfl) hcl) rfl (fun col hnone => ?_)
    (h.shown_getD hdflt)
  apply h.row_getD
  have htomb := colName_ne_tombstone table col
  rw [RowState.resurrect, setInfo_info, if_neg htomb, zeroColumns_info, if_neg htomb,
    Option.map_eq_none_iff] at hnone
  exact hnone

theorem Complete.prepared (h : s.Complete)
    (hdflt : ∀ col, table.dflt col ≠ CLOUDSYNC_RLS_RESTRICTED_VALUE) (hcl : 0 ≤ c.cl)
    (st : Stamps) : (s.prepared c st).Complete := by
  rw [RowState.prepared]
  split_ifs
  · exact h.resurrect hdflt hcl st
  · exact h

theorem Complete.take (h : s.Complete)
    (hdflt : ∀ col, table.dflt col ≠ CLOUDSYNC_RLS_RESTRICTED_VALUE) {col : Fin table.ncols}
    (hname : c.name = table.colName col) (hvalue : c.colValue ≠ CLOUDSYNC_RLS_RESTRICTED_VALUE)
    (hversion : 0 ≤ c.colVersion) (st : Stamps) : (s.take col c st).Complete := by
  have hclocks : (s.setRow (some (Function.update (s.row.getD table.dflt) col
    c.colValue))).KnownClocks := h.clocks
  refine .of_some (hclocks.setInfo (.inr ⟨col, hname⟩) hversion) rfl (fun col' hnone => ?_)
    fun col' => ?_
  · have hne : col' ≠ col := by
      rintro rfl
      rw [← hname, take_info_self] at hnone
      cases hnone
    rw [Function.update_of_ne hne]
    rw [(take_other hne hname st).1] at hnone
    exact h.row_getD col' hnone
  · rw [Function.update_apply]
    split_ifs
    · exact hvalue
    · exact h.shown_getD hdflt col'

theorem complete_merged (h : s.Complete) (hpos : 0 ≤ s.localCl)
    (hdflt : ∀ col, table.dflt col ≠ CLOUDSYNC_RLS_RESTRICTED_VALUE)
    (hwf : c.WellFormedFor table) (hvalue : c.colValue ≠ CLOUDSYNC_RLS_RESTRICTED_VALUE)
    (st : Stamps) : (s.merged c st).Complete := by
  have hknown : (c.name = CLOUDSYNC_TOMBSTONE_VALUE ∨ ∃ col, c.name = table.colName col) ∧
      0 ≤ c.colVersion := by
    rcases hwf with ⟨hname, hcl, hone⟩ | ⟨hname, _, hversion⟩
    · exact ⟨.inl hname, by omega⟩
    · exact ⟨.inr hname, hversion⟩
  rw [merged]
  split_ifs with hold heven heq htomb heq
  · exact h
  · exact h
  · have hclocks : (s.setRow none).KnownClocks := h.clocks
    exact .of_none (hclocks.setInfo hknown.1 hknown.2).dropColumns rfl
  · exact h
  · exact h.resurrect hdflt hknown.2 st
  · rcases hknown.1.resolve_left htomb with ⟨col, hname⟩
    have hcol : tableColumnLookup table c.name = some col := by
      rw [hname, tableColumnLookup_colName]
    by_cases hwin : s.localCl < c.cl ∨ s.Beaten col c
    · rw [columnMerged_of_wins hcol hwin]
      exact (h.prepared hdflt (by omega) st).take hdflt hname hvalue hknown.2 st
    · rw [columnMerged_of_loses hcol hwin]
      exact h

end
end RowState

namespace Replica
variable {n : ℕ} {schema : Fin n → TableContext}

/-- Changes as users and other replicas make them: no value is the reserved
text, and what is merged is a change of the table as a replica sends it. -/
def Admissible : Event schema → Prop
  | .write _ c => c.Plain
  | .merge c => c.WellFormedFor (schema c.tbl) ∧ c.colValue ≠ CLOUDSYNC_RLS_RESTRICTED_VALUE
  | .commit => True

def KeepsValues (r : Replica schema) : Event schema → Prop
  | .write i (.update _ oldpk pk row) => ∀ oldRow, (r.rows i oldpk).row = some oldRow →
      RowState.TracksValues (r.rows i oldpk) (r.rows i pk) row oldRow
  | _ => True

/-- The steps after which the feed still tells what the tables hold: the code
sees the key and the values that change, and the length of a row it deletes can grow. -/
def KeepsFeed (r : Replica schema) (e : Event schema) : Prop :=
  Admissible e ∧ r.KeepsParity e ∧ r.KeepsValues e

instance : (e : Event schema) → Decidable (Admissible e)
  | .write _ c => inferInstanceAs (Decidable c.Plain)
  | .merge c => inferInstanceAs (Decidable (c.WellFormedFor (schema c.tbl) ∧ _))
  | .commit => isTrue trivial

instance (r : Replica schema) : (e : Event schema) → Decidable (r.KeepsValues e)
  | .write i (.update _ oldpk pk row) =>
    decidable_of_iff (∀ oldRow ∈ (r.rows i oldpk).row.toList,
      RowState.TracksValues (r.rows i oldpk) (r.rows i pk) row oldRow) (by
        simp [KeepsValues])
  | .write _ (.insert ..) | .write _ (.delete _) | .merge _ | .commit => isTrue trivial

instance (r : Replica schema) (e : Event schema) : Decidable (r.KeepsFeed e) :=
  inferInstanceAs (Decidable (_ ∧ _ ∧ _))

/-- The whole feed, merged in any order into an empty replica, rebuilds the base
rows, the causal lengths and the column versions. -/
def Bootstraps (r : Replica schema) : Prop :=
  ∃ feed, r.cloudsyncChanges = .ok feed ∧ ∀ site D, D.Perm feed → ∀ i pk,
    (((empty schema site).deliver D).table i).base.get pk = (r.table i).base.get pk ∧
    (((empty schema site).deliver D).table i).metaLocalCl pk = (r.table i).metaLocalCl pk ∧
    ∀ col, (((empty schema site).deliver D).table i).metaColVersion pk ((schema i).colName col) =
      (r.table i).metaColVersion pk ((schema i).colName col)

/-- The feed can be read, and what it says of a row, at the db versions picked, is
the names with a clock of such a version. -/
theorem sentNames_feed {r : Replica schema} (hconsistent : ∀ i pk, (r.rows i pk).Consistent)
    (hcomplete : ∀ i pk, (r.rows i pk).Complete) :
    ∃ feed, r.cloudsyncChanges = .ok feed ∧ (∀ c ∈ feed, (r.rows c.tbl c.pk).Sends c) ∧
      ∀ (p : ℤ → Bool) D, D.Perm (feed.filter fun c => p c.dbVersion) → ∀ i pk,
        sentNames D i pk = {name | ∃ m, (r.rows i pk).info name = some m ∧ p m.dbVersion} := by
  rcases cloudsyncChanges_ok (r := r) fun i pk => (hcomplete i pk).clocks.named with
    ⟨feed, hfeed, hmem⟩
  -- a column with a clock belongs to a living row
  have halive : ∀ i (k : Pk × String) m, (r.table i).metadata.get k = some m →
      ∀ col, k.2 = (schema i).colName col → (r.table i).base.get k.1 ≠ none := by
    rintro i ⟨pk, name⟩ m hm col rfl
    apply (hconsistent i pk).row_iff.mpr
    by_contra heven
    have hnone := (hconsistent i pk).dead (by omega) _ (colName_ne_tombstone (schema i) col)
    exact Option.some_ne_none m (hm.symm.trans hnone)
  have hsends : ∀ i k m, (r.table i).metadata.get k = some m →
      (r.rows i k.1).Sends (r.changeOf i k m (r.feedValue i k)) :=
    fun i k m hm => changeOf_sends hm (halive i k m hm)
  refine ⟨feed, hfeed, fun c hc => ?_, fun p D hD i pk => ?_⟩
  · rcases (hmem c).mp hc with ⟨_, i, k, m, hm, rfl⟩
    exact hsends i k m hm
  · ext name
    simp only [sentNames, changesOf, Set.mem_image, Set.mem_ofPred_eq]
    constructor
    · rintro ⟨c, ⟨hc, rfl, rfl⟩, rfl⟩
      rcases List.mem_filter.mp (hD.mem_iff.mp hc) with ⟨hc, hp⟩
      rcases (hmem c).mp hc with ⟨_, i, k, m, hm, rfl⟩
      exact ⟨m, hm, hp⟩
    · rintro ⟨m, hm, hp⟩
      refine ⟨r.changeOf i (pk, name) m (r.feedValue i (pk, name)), ⟨?_, rfl, rfl⟩, rfl⟩
      refine hD.mem_iff.mpr (List.mem_filter.mpr ⟨(hmem _).mpr ⟨?_, i, (pk, name), m, hm, rfl⟩, hp⟩)
      -- no value of a living row is hidden, and a tombstone has none
      rcases ((hcomplete i pk).clocks name m hm).1 with rfl | ⟨col, rfl⟩
      · have hvalue : r.feedValue i (pk, CLOUDSYNC_TOMBSTONE_VALUE) = .null := by
          simp [feedValue, Table.cloudsyncColValue]
        rw [changeOf, hvalue]
        exact (by decide : Value.null ≠ CLOUDSYNC_RLS_RESTRICTED_VALUE)
      · rcases (hsends i _ m hm).value col rfl with ⟨row, hrow, hvalue⟩
        rw [hvalue]
        exact (hcomplete i pk).shown row hrow col

theorem overtakes_absent {table : TableContext} {t : RowState table} (ht : t.Consistent)
    (hodd : t.localCl % 2 = 1) {col : Fin table.ncols} (hinfo : t.info (table.colName col) ≠ none) :
    t.Overtakes ((RowState.absent table).ground t.localCl) col := by
  have hpos := ht.localCl_nonneg
  have hlt : (RowState.absent table).localCl < t.localCl := by
    rw [RowState.localCl_absent]
    omega
  rcases Option.ne_none_iff_exists'.mp (ht.row_iff.mpr hodd) with ⟨row, hrow⟩
  rcases Option.ne_none_iff_exists'.mp hinfo with ⟨m, hm⟩
  refine ⟨m.colVersion, row, ?_, hrow, fun v' hv' => ?_⟩
  · rw [RowState.version, hm]
    rfl
  · rw [RowState.ground_version_of_lt hlt] at hv'
    cases hv'

theorem delivers_absent {table : TableContext} {t : RowState table} (ht : t.Consistent)
    (hcomplete : t.Complete) :
    (RowState.absent table).Delivers t {name | t.info name ≠ none} := by
  have hpos := ht.localCl_nonneg
  have hreach : (RowState.absent table).localCl = t.localCl ∨
      (RowState.absent table).localCl < t.localCl ∧ {name | t.info name ≠ none}.Nonempty := by
    rw [RowState.localCl_absent]
    by_cases hzero : t.localCl = 0
    · exact .inl hzero.symm
    · refine .inr ⟨by omega, ?_⟩
      by_contra hempty
      apply hzero
      apply RowState.localCl_of_none
      intro name
      by_contra hinfo
      exact hempty ⟨name, hinfo⟩
  rcases Int.emod_two_eq_zero_or_one t.localCl with heven | hodd
  · exact .dead heven hreach
  · refine .alive hodd hreach fun col => ?_
    by_cases hinfo : t.info (table.colName col) = none
    · right
      rcases Option.ne_none_iff_exists'.mp (ht.row_iff.mpr hodd) with ⟨row, hrow⟩
      have hlt : (RowState.absent table).localCl < t.localCl := by
        rw [RowState.localCl_absent]
        omega
      rw [RowState.ground_value_of_lt hlt, RowState.value, hrow]
      exact congrArg some (hcomplete.default row hrow col hinfo)
    · exact .inl ⟨hinfo, overtakes_absent ht hodd hinfo⟩

/-- In every run of changes the code sees, rows are consistent and complete, and
stay recorded. -/
theorem complete_of_reached (hcls : ∀ i, (schema i).algo = .crdtCls)
    (hdflt : ∀ i col, (schema i).dflt col ≠ CLOUDSYNC_RLS_RESTRICTED_VALUE) {r : Replica schema}
    (h : Reached schema KeepsFeed r) :
    r.AllRecording ∧ ∀ i pk, (r.rows i pk).Consistent ∧ (r.rows i pk).Complete := by
  refine h.recording_invariant hcls (I := fun i s => s.Consistent ∧ s.Complete)
    (fun _ _ _ hc => hc.2.1.1) (fun _ _ hs => hs.1.localCl_nonneg)
    (fun _ => ⟨RowState.consistent_absent, RowState.complete_absent⟩) ?_ ?_
  · rintro r i c dbVersion seq₀ rows' ⟨hplain, ⟨_, hmax⟩, hvalues⟩ hs hstep pk
    refine ⟨RowState.consistent_rowStep hstep ?_ (fun pk => (hs pk).1) pk,
      RowState.complete_rowStep hstep hplain ?_ (fun pk => (hs pk).2) pk⟩
    · rintro pk (⟨o, pk', row, rfl, hne⟩ | rfl)
      · exact hmax hne
      · exact hmax
    · rintro o oldpk pk row oldRow rfl hold
      exact hvalues oldRow hold
  · rintro r c st ⟨⟨hwf, hvalue⟩, _⟩ _ hs
    exact ⟨RowState.consistent_merged hs.1 hwf.wellFormed st,
      RowState.complete_merged hs.2 hs.1.localCl_nonneg (hdflt c.tbl) hwf hvalue st⟩

/-- In every run of changes the code sees, the feed bootstraps an empty replica. -/
theorem bootstraps_of_reached (hcls : ∀ i, (schema i).algo = .crdtCls)
    (hdflt : ∀ i col, (schema i).dflt col ≠ CLOUDSYNC_RLS_RESTRICTED_VALUE) (r : Replica schema)
    (h : Reached schema KeepsFeed r) : r.Bootstraps := by
  have hrows := (complete_of_reached hcls hdflt h).2
  rcases sentNames_feed (fun i pk => (hrows i pk).1) fun i pk => (hrows i pk).2 with
    ⟨feed, hfeed, hsends, hsent⟩
  refine ⟨feed, hfeed, fun site D hD i pk => ?_⟩
  have hnames : ∀ i pk, sentNames D i pk = {name | (r.rows i pk).info name ≠ none} := by
    intro i pk
    rw [hsent (fun _ => true) D (by rwa [List.filter_true]) i pk]
    ext name
    simp [Option.ne_none_iff_exists']
  rcases hrows i pk with ⟨hconsistent, hcomplete⟩
  have hdelivers : ∀ i pk, ((empty schema site).rows i pk).Delivers (r.rows i pk)
      (sentNames D i pk) := by
    intro i pk
    rw [hnames]
    exact delivers_absent (hrows i pk).1 (hrows i pk).2
  rcases deliver_received hcls (r := empty schema site) (t := r.rows)
    (fun i pk => RowState.consistent_absent) (fun i pk => (hrows i pk).1)
    (fun i pk => (hrows i pk).2.clocks.named) (fun c hc => hsends c (hD.mem_iff.mp hc)) hdelivers i pk with
      ⟨hs, hreceived⟩
  rcases hreceived.finish hconsistent hs (hdelivers i pk) with ⟨hrow, hcl, hcol⟩
  refine ⟨hrow, ?_, fun col => ?_⟩
  · rw [Table.metaLocalCl_eq, Table.metaLocalCl_eq]
    exact hcl
  · change (((empty schema site).deliver D).rows i pk).version col = (r.rows i pk).version col
    by_cases hodd : (r.rows i pk).localCl % 2 = 1
    · have hcolumn := hcol hodd col
      rw [hnames] at hcolumn
      by_cases hinfo : (r.rows i pk).info ((schema i).colName col) = none
      · have hlt : (RowState.absent (schema i)).localCl < (r.rows i pk).localCl := by
          have hpos := hconsistent.localCl_nonneg
          rw [RowState.localCl_absent]
          omega
        have hnone : (r.rows i pk).version col = none := by
          rw [RowState.version, hinfo]
          rfl
        rw [hnone]
        exact (hcolumn.unseen (not_not.mpr hinfo)).2.trans (RowState.ground_version_of_lt hlt col)
      · exact hcolumn.version hinfo (overtakes_absent hconsistent hodd hinfo)
    · have htomb := colName_ne_tombstone (schema i) col
      rw [RowState.version, RowState.version, hs.dead (by omega) _ htomb,
        hconsistent.dead (by omega) _ htomb]

/-- A primary key changed behind a NUL byte: the clock of the row stays under the
old key, where it has no value to send. -/
theorem not_bootstraps : ¬ ∀ (n : ℕ) (schema : Fin n → TableContext),
    (∀ i, (schema i).algo = .crdtCls) →
    (∀ i col, (schema i).dflt col ≠ CLOUDSYNC_RLS_RESTRICTED_VALUE) →
      ∀ r, Reached schema (fun _ e => Admissible e) r → r.Bootstraps := by
  intro h
  rcases Reachable.exists_of_runs step
    (fun r : Replica fun _ : Fin 1 => singleColumn => ∃ site, r = empty _ site)
    (fun _ e => Admissible e) ⟨[1], rfl⟩
    [.write ⟨0, Nat.one_pos⟩ (.insert false [.text ⟨[0x61, 0, 0x62], by decide⟩] fun _ => .null),
      .write ⟨0, Nat.one_pos⟩ (.update false [.text ⟨[0x61, 0, 0x62], by decide⟩]
        [.text ⟨[0x61, 0, 0x63], by decide⟩] fun _ => .null)]
    (fun r => decide ((r.table ⟨0, Nat.one_pos⟩).base.get [.text ⟨[0x61, 0, 0x63], by decide⟩] ≠ none)
      && (match r.cloudsyncChanges with
        | .ok feed => feed.isEmpty
        | .error _ => false)) (by decide)
    with ⟨r, hr, hbad⟩
  rw [Bool.and_eq_true, decide_eq_true_eq] at hbad
  rcases h 1 _ (fun _ => rfl) (fun _ _ => (by decide : Value.null ≠ CLOUDSYNC_RLS_RESTRICTED_VALUE))
    r hr with ⟨feed, hfeed, hall⟩
  rw [hfeed] at hbad
  obtain rfl : feed = [] := List.isEmpty_iff.mp hbad.2
  exact hbad.1 (hall [] [] (.refl _) ⟨0, Nat.one_pos⟩ [.text ⟨[0x61, 0, 0x63], by decide⟩]).1.symm

end Replica

namespace Declared
variable {n : ℕ} {schema : Fin n → TableContext} {decl : (i : Fin n) → Declaration (schema i)}
  {cells : (i : Fin n) → Cells (schema i)}

/-- The whole feed of declared tables, merged in any order into an empty replica of
them, rebuilds the base rows, the causal lengths and the column versions. -/
def Bootstraps (decl : (i : Fin n) → Declaration (schema i)) (r : Replica schema) : Prop :=
  ∃ feed, cloudsyncChanges decl r = .ok feed ∧ ∀ site D, D.Perm feed → ∀ i pk,
    ((deliver decl (.empty schema site) D).table i).base.get pk = (r.table i).base.get pk ∧
    ((deliver decl (.empty schema site) D).table i).metaLocalCl pk = (r.table i).metaLocalCl pk ∧
    ∀ col, ((deliver decl (.empty schema site) D).table i).metaColVersion pk
      ((schema i).colName col) = (r.table i).metaColVersion pk ((schema i).colName col)

/-- In every run on tables that take its keys and values as they are the feed bootstraps. -/
theorem bootstraps_of_within (hcls : ∀ i, (schema i).algo = .crdtCls)
    (hdflt : ∀ i col, (schema i).dflt col ≠ CLOUDSYNC_RLS_RESTRICTED_VALUE)
    (hplain : ∀ i, (decl i).Plain (cells i)) (r : Replica schema)
    (h : Reached decl (fun r e => e.Within cells ∧ r.KeepsFeed e) r) : Bootstraps decl r := by
  rcases reached_of_within hplain h with ⟨hwithin, hreached⟩
  rcases Replica.bootstraps_of_reached hcls hdflt r hreached with ⟨feed, hfeed, hall⟩
  have hgos : ∀ c : Change n, (schema c.tbl).algo = .crdtGos → c.name ≠ CLOUDSYNC_TOMBSTONE_VALUE :=
    fun c hgos => absurd ((hcls c.tbl).symm.trans hgos) (by decide)
  refine ⟨feed, (cloudsyncChanges_eq hplain hwithin).trans hfeed, fun site D hD => ?_⟩
  rw [deliver_eq hplain (Replica.Within.empty cells site)
    fun c hc => hwithin.feed hfeed (hD.mem_iff.mp hc) (hgos c)]
  exact hall site D hD

/-- A run that inserts a row, writes it, moves it to another key, deletes it there
and merges it back to life. -/
theorem bootstraps_of_within_moved : ∃ r : Replica fun _ : Fin 1 => singleColumn,
    (r.table ⟨0, Nat.one_pos⟩).metaLocalCl (letterKey 0x62) = 3 ∧
      Bootstraps (fun _ => foldedKey) r := by
  rcases Reachable.exists_of_runs (step fun _ : Fin 1 => foldedKey)
    (fun r => ∃ site, r = Replica.empty _ site)
    (fun r e => e.Within (fun _ => letterCells) ∧ r.KeepsFeed e) ⟨[1], rfl⟩
    [.write ⟨0, Nat.one_pos⟩ (.insert false (letterKey 0x61) fun _ => .integer 10),
      .write ⟨0, Nat.one_pos⟩ (.update false (letterKey 0x61) (letterKey 0x61) fun _ => .integer 11),
      .write ⟨0, Nat.one_pos⟩ (.update false (letterKey 0x61) (letterKey 0x62) fun _ => .integer 11),
      .commit, .write ⟨0, Nat.one_pos⟩ (.delete (letterKey 0x62)),
      .merge ⟨⟨0, Nat.one_pos⟩, letterKey 0x62, some "v", .integer 11, 1, 7, [2], 3, 0⟩]
    (fun r => decide ((r.table ⟨0, Nat.one_pos⟩).metaLocalCl (letterKey 0x62) = 3)) (by decide) with
      ⟨r, hr, hcl⟩
  exact ⟨r, of_decide_eq_true hcl, bootstraps_of_within (fun _ => rfl)
    (fun _ _ => (by decide : Value.null ≠ CLOUDSYNC_RLS_RESTRICTED_VALUE)) (fun _ => foldedKey_plain)
      r hr⟩

end Declared
end SqliteSync.Store
