import SqliteSync.Library.Epoch
import SqliteSync.Causal.Bootstrap

/-!
# What a row says

A row, read as registers under its causal length: the rows of a table are then
elements of a semilattice, and a merge is the abstract merge of registers. A change
the row has taken in already is one that a further merge ignores altogether.
-/
namespace SqliteSync.Store
open Library Clock

abbrev ValueKey := ℤ ×ₗ ℤ ×ₗ List ℕ

def register : Option ℤ → Option Value → Register ValueKey
  | some v, some x => (rank v x : ℤ ×ₗ ValueKey)
  | _, _ => ⊥

@[simp] theorem register_some (v : ℤ) (x : Value) :
    register (some v) (some x) = ((rank v x : ℤ ×ₗ ValueKey) : Register ValueKey) := rfl

@[simp] theorem register_none_left (x : Option Value) : register none x = ⊥ := rfl

@[simp] theorem register_none_right (v : Option ℤ) : register v none = ⊥ := by
  cases v <;> rfl

theorem restart_register {v : Option ℤ} {x y : Option Value}
    (hxy : v ≠ none → y = x ∧ x ≠ none) :
    CausalRow.restartRegister (register v x) = register (v.map fun _ => 0) y := by
  cases v with
  | none => rfl
  | some v =>
    rcases hxy (Option.some_ne_none v) with ⟨rfl, hx⟩
    rcases Option.ne_none_iff_exists'.mp hx with ⟨x, rfl⟩
    rfl

theorem register_eq_bot_iff {v : Option ℤ} {x : Option Value} :
    register v x = ⊥ ↔ v = none ∨ x = none := by
  cases v <;> cases x <;> simp

/-- Two registers that hold the same hold one version, and values that compare equal. -/
theorem register_eq_iff {v w : ℤ} {x y : Value} :
    register (some v) (some x) = register (some w) (some y) ↔
      v = w ∧ dbutilsValueCompare (some x) (some y) = 0 := by
  rw [register_some, register_some, WithBot.coe_inj, rank_eq_iff]

namespace Change
variable {table : TableContext} {n : ℕ} {c : Change n}

def summary (table : TableContext) (c : Change n) : CausalRow (Fin table.ncols) ValueKey where
  epoch := c.cl
  content col :=
    if c.name = table.colName col then register (some c.colVersion) (some c.colValue) else ⊥

@[simp] theorem summary_epoch (table : TableContext) (c : Change n) :
    (c.summary table).epoch = c.cl := rfl

theorem summary_content_self {col : Fin table.ncols} (h : c.name = table.colName col) :
    (c.summary table).content col = register (some c.colVersion) (some c.colValue) := if_pos h

theorem summary_content_of_ne {col : Fin table.ncols} (h : c.name ≠ table.colName col) :
    (c.summary table).content col = ⊥ := if_neg h

theorem content_of_other {col col' : Fin table.ncols} (hname : c.name = table.colName col)
    (hne : col' ≠ col) : (c.summary table).content col' = ⊥ := by
  apply summary_content_of_ne
  rw [hname]
  exact fun he => hne (table.colName_injective he.symm)

theorem summary_of_tombstone (h : c.name = CLOUDSYNC_TOMBSTONE_VALUE) :
    (c.summary table).content = ⊥ := by
  funext col
  exact summary_content_of_ne (h ▸ (colName_ne_tombstone table col).symm)

end Change

namespace RowState
variable {table : TableContext} {n : ℕ} {s : RowState table} {c : Change n}

noncomputable def summary (s : RowState table) : CausalRow (Fin table.ncols) ValueKey where
  epoch := s.localCl
  content col := register (s.version col) (s.value col)

@[simp] theorem summary_epoch (s : RowState table) : s.summary.epoch = s.localCl := rfl

@[simp] theorem summary_content (s : RowState table) (col : Fin table.ncols) :
    s.summary.content col = register (s.version col) (s.value col) := rfl

theorem Consistent.version_of_even (h : s.Consistent) (heven : s.localCl % 2 = 0)
    (col : Fin table.ncols) : s.version col = none := by
  rw [version, h.dead heven _ (colName_ne_tombstone table col)]
  rfl

theorem Consistent.row_of_version (h : s.Consistent) {col : Fin table.ncols}
    (hv : s.version col ≠ none) : s.row ≠ none := by
  apply h.row_iff.mpr
  by_contra heven
  exact hv (h.version_of_even (by omega) col)

theorem Consistent.content_eq_bot_iff (h : s.Consistent) (col : Fin table.ncols) :
    s.summary.content col = ⊥ ↔ s.version col = none := by
  rw [summary_content, register_eq_bot_iff]
  constructor
  · rintro (hv | hvalue)
    · exact hv
    · by_contra hv
      rcases Option.ne_none_iff_exists'.mp (h.row_of_version hv) with ⟨row, hrow⟩
      rw [value, hrow] at hvalue
      cases hvalue
  · exact .inl

theorem Consistent.register_restarted (h : s.Consistent) (col : Fin table.ncols) :
    register ((s.version col).map fun _ => 0) (some (s.row.getD table.dflt col)) =
      CausalRow.restartRegister (s.summary.content col) := by
  rw [summary_content, restart_register]
  intro hv
  rcases Option.ne_none_iff_exists'.mp (h.row_of_version hv) with ⟨row, hrow⟩
  rw [value, hrow]
  exact ⟨rfl, Option.some_ne_none _⟩

theorem Consistent.beaten_iff_content (h : s.Consistent) (hodd : s.localCl % 2 = 1)
    {col : Fin table.ncols} (hname : c.name = table.colName col) :
    s.Beaten col c ↔ s.summary.content col < (c.summary table).content col := by
  rcases Option.ne_none_iff_exists'.mp (h.row_iff.mpr hodd) with ⟨row, hrow⟩
  rw [Change.summary_content_self hname, summary_content, value, hrow]
  cases hinfo : s.info (table.colName col) with
  | none =>
    rw [version, hinfo]
    exact iff_of_true (beaten_of_none (hname ▸ hinfo) col) (WithBot.bot_lt_coe _)
  | some m =>
    rw [beaten_iff_rank hname hinfo hrow, version, hinfo]
    exact WithBot.coe_lt_coe.symm

theorem Consistent.summary_take (h : s.Consistent) (hodd : s.localCl % 2 = 1)
    (hcl : c.cl = s.localCl) {col : Fin table.ncols} (hname : c.name = table.colName col)
    (hbeaten : s.Beaten col c) (st : Stamps) :
    (s.take col c st).summary = s.summary ⊔ c.summary table := by
  rcases Option.ne_none_iff_exists'.mp (h.row_iff.mpr hodd) with ⟨row, hrow⟩
  rw [Epoch.sup_of_eq (show s.summary.epoch = (c.summary table).epoch from hcl.symm)]
  apply Epoch.ext
  · exact localCl_take_of_alive hodd hname st
  · funext col'
    change _ = s.summary.content col' ⊔ (c.summary table).content col'
    by_cases hcol : col' = col
    · subst hcol
      rw [sup_eq_right.mpr ((h.beaten_iff_content hodd hname).mp hbeaten).le, summary_content,
        take_value_self, take_version_self hname, Change.summary_content_self hname]
    · rw [Change.content_of_other hname hcol, sup_bot_eq, summary_content, summary_content,
        take_version_of_ne hcol hname, take_value_of_ne hcol, value, hrow]
      rfl

theorem Consistent.change_le (h : s.Consistent) (hodd : s.localCl % 2 = 1) (hcl : c.cl = s.localCl)
    {col : Fin table.ncols} (hname : c.name = table.colName col) (hlose : ¬ s.Beaten col c) :
    c.summary table ≤ s.summary := by
  refine .inr ⟨hcl, fun col' => ?_⟩
  by_cases hcol : col' = col
  · subst hcol
    exact not_lt.mp fun hlt => hlose ((h.beaten_iff_content hodd hname).mpr hlt)
  · rw [Change.content_of_other hname hcol]
    exact bot_le

theorem Consistent.summary_bury (h : s.Consistent) (hname : c.name = CLOUDSYNC_TOMBSTONE_VALUE)
    (hcl : c.colVersion = c.cl) (heven : c.cl % 2 = 0) (hlt : s.localCl < c.cl) (st : Stamps) :
    (s.bury c st).summary = s.summary.merge (c.summary table) := by
  have hburied := h.bury hname hcl heven hlt st
  have hlocal : (s.bury c st).localCl = c.cl := by
    rw [← hcl]
    apply localCl_of_sentinel (m := ⟨c.colVersion, st.sentinel, st.site, c.seq⟩)
    rw [RowState.bury, hname, dropColumns_sentinel, setInfo_tombstone_sentinel]
  have hepoch : s.summary.epoch < (c.summary table).epoch := hlt
  apply Epoch.ext
  · exact hlocal.trans (CausalRow.merge_epoch_of_lt hepoch).symm
  · funext col
    rw [CausalRow.merge_content_dead hepoch heven (congrFun (Change.summary_of_tombstone hname) col)]
    exact (hburied.content_eq_bot_iff col).mpr (hburied.version_of_even (hlocal ▸ heven) col)

theorem Consistent.summary_resurrect (h : s.Consistent) (hname : c.name = CLOUDSYNC_TOMBSTONE_VALUE)
    (hcl : c.colVersion = c.cl) (hodd : c.cl % 2 = 1) (hlt : s.localCl < c.cl) (st : Stamps) :
    (s.resurrect c.colVersion c st).summary = s.summary.merge (c.summary table) := by
  have hepoch : s.summary.epoch < (c.summary table).epoch := hlt
  have hlocal : (s.resurrect c.colVersion c st).localCl = c.colVersion := localCl_of_alive _ _
  apply Epoch.ext
  · rw [CausalRow.merge_epoch_of_lt hepoch]
    exact hlocal.trans hcl
  · funext col
    rw [CausalRow.merge_content_restarted hepoch hodd
      (congrFun (Change.summary_of_tombstone hname) col), summary_content, resurrect_version,
      resurrect_value]
    exact h.register_restarted col

/-- A column change of a later length starts the row over and writes its column. -/
theorem Consistent.summary_start (h : s.Consistent) (hodd : c.cl % 2 = 1) (hlt : s.localCl < c.cl)
    {col : Fin table.ncols} (hname : c.name = table.colName col) (st : Stamps) :
    ((s.prepared c st).take col c st).summary = s.summary.merge (c.summary table) := by
  rcases prepared_of_lt h hlt st with ⟨hrow, hversion, hsentinel⟩
  have hepoch : s.summary.epoch < (c.summary table).epoch := hlt
  apply Epoch.ext
  · rw [CausalRow.merge_epoch_of_lt hepoch]
    exact (localCl_take hname st).trans hsentinel
  · funext col'
    by_cases hcol : col' = col
    · subst hcol
      have hwritten : (c.summary table).content col' =
          register (some c.colVersion) (some c.colValue) := Change.summary_content_self hname
      rw [CausalRow.merge_content_written hepoch (hwritten ▸ WithBot.coe_ne_bot), hwritten,
        summary_content, take_value_self, take_version_self hname]
    · rw [CausalRow.merge_content_restarted hepoch hodd (Change.content_of_other hname hcol),
        summary_content, take_version_of_ne hcol hname, take_value_of_ne hcol, hversion, hrow]
      exact h.register_restarted col'

theorem Consistent.summary_merged (h : s.Consistent) (hwf : c.WellFormedFor table) (st : Stamps) :
    (s.merged c st).summary = s.summary.merge (c.summary table) := by
  have hskip : c.summary table ≤ s.summary → s.summary = s.summary.merge (c.summary table) :=
    fun hle => (CausalRow.merge_eq_self_iff.mpr hle).symm
  have htombstone : c.name = CLOUDSYNC_TOMBSTONE_VALUE → c.cl = s.localCl →
      c.summary table ≤ s.summary := by
    intro hname hcl
    exact .inr ⟨hcl, (Change.summary_of_tombstone hname).trans_le bot_le⟩
  rw [merged]
  by_cases hold : c.cl < s.localCl
  · rw [if_pos hold]
    exact hskip (.inl hold)
  rw [if_neg hold]
  rcases hwf with ⟨hname, hcl, -⟩ | ⟨⟨col, hname⟩, hodd, -⟩
  · by_cases heq : s.localCl = c.cl
    · rw [if_pos hname, if_pos heq, if_pos heq, ite_self]
      exact hskip (htombstone hname heq.symm)
    · have hlt : s.localCl < c.cl := by omega
      rw [if_pos hname, if_neg heq, if_neg heq]
      split_ifs with heven
      · exact h.summary_bury hname hcl heven hlt st
      · exact h.summary_resurrect hname hcl (by omega) hlt st
  · have hlookup : tableColumnLookup table c.name = some col := by
      rw [hname, tableColumnLookup_colName]
    rw [if_neg (by omega), if_neg (hname ▸ colName_ne_tombstone table col)]
    by_cases hlt : s.localCl < c.cl
    · rw [columnMerged_of_wins hlookup (.inl hlt)]
      exact h.summary_start hodd hlt hname st
    · have hcl : c.cl = s.localCl := by omega
      by_cases hbeaten : s.Beaten col c
      · have hprep : s.prepared c st = s := if_neg fun hlater => hlt hlater.1
        rw [columnMerged_of_wins hlookup (.inr hbeaten), hprep,
          h.summary_take (hcl ▸ hodd) hcl hname hbeaten st]
        exact (CausalRow.merge_of_le hcl.le).symm
      · rw [columnMerged_of_loses hlookup (not_or.mpr ⟨hlt, hbeaten⟩)]
        exact hskip (h.change_le (hcl ▸ hodd) hcl hname hbeaten)

theorem Consistent.not_beaten_of_le (h : s.Consistent) (hodd : s.localCl % 2 = 1)
    (hle : c.summary table ≤ s.summary) (hcl : c.cl = s.localCl) {col : Fin table.ncols}
    (hname : c.name = table.colName col) : ¬ s.Beaten col c := by
  rw [h.beaten_iff_content hodd hname]
  exact (Epoch.content_le hle hcl col).not_gt

theorem Sends.wellFormedFor (hc : s.Sends c) (h : s.Consistent) (hclocks : s.KnownClocks) :
    c.WellFormedFor table := by
  rcases hc.version with ⟨m, hm, hv, -⟩
  rcases hclocks c.name m hm with ⟨hname | hname, hpos⟩
  · have hversion := hc.colVersion_of_tombstone hname
    have hsentinel : s.sentinel = some m := by
      rw [sentinel, ← hname, hm]
    have hone := h.pos m hsentinel
    have hcl := hc.cl
    exact .inl ⟨hname, hversion.trans hcl.symm, by omega⟩
  · rcases hname with ⟨col, hname⟩
    have halive : s.localCl % 2 = 1 := by
      by_contra heven
      have hnone := h.dead (by omega) c.name (hname ▸ colName_ne_tombstone table col)
      exact Option.some_ne_none m (hm.symm.trans hnone)
    exact .inr ⟨⟨col, hname⟩, hc.cl ▸ halive, hv ▸ hpos⟩

theorem Sends.content_eq (hc : s.Sends c) {col : Fin table.ncols} (hname : c.name = table.colName col) :
    (c.summary table).content col = s.summary.content col := by
  rcases hc.version with ⟨m, hm, hv, -⟩
  rcases hc.value col hname with ⟨row, hrow, hvalue⟩
  rw [Change.summary_content_self hname, summary_content, RowState.version, ← hname, hm,
    RowState.value, hrow, hv, hvalue]
  rfl

theorem Sends.summary_le (hc : s.Sends c) : c.summary table ≤ s.summary := by
  refine .inr ⟨hc.cl, fun col => ?_⟩
  by_cases hname : c.name = table.colName col
  · exact (hc.content_eq hname).le
  · rw [Change.summary_content_of_ne hname]
    exact bot_le

end RowState

theorem sends_of_feed {n : ℕ} {schema : Fin n → TableContext} {r : Replica schema}
    (hconsistent : ∀ i pk, (r.rows i pk).Consistent) (hcomplete : ∀ i pk, (r.rows i pk).Complete)
    {feed : List (Change n)} (hfeed : r.cloudsyncChanges = .ok feed) :
    ∀ c ∈ feed, (r.rows c.tbl c.pk).Sends c := by
  rcases Replica.sentNames_feed hconsistent hcomplete with ⟨feed', hfeed', hsends, -⟩
  rw [hfeed, Except.ok.injEq] at hfeed'
  exact hfeed' ▸ hsends

end SqliteSync.Store
