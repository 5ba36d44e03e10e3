import SqliteSync.Causal.Agreement

/-!
# What a row tells, and under which stamps

A metadata row tells the causal length of its row and the register of its column. A
step tells anew only under the db versions it was given: whatever has another one was
there before and tells what it told, and in the place of what is gone there is
something new.
-/
namespace SqliteSync.Store
open Library Clock

namespace RowState
variable {table : TableContext} {n : ℕ} {s t u : RowState table} {c : Change n} {P Q : ℤ → Prop}

/-- What a row tells under one of its names. -/
noncomputable def told (s : RowState table) (name : String) :
    CausalRow (Fin table.ncols) ValueKey where
  epoch := s.localCl
  content col := if name = table.colName col then s.summary.content col else ⊥

theorem told_congr {name : String} (hcl : t.localCl = s.localCl)
    (hcontent : ∀ col, name = table.colName col → t.summary.content col = s.summary.content col) :
    t.told name = s.told name := by
  apply Epoch.ext
  · exact hcl
  · funext col
    simp only [told]
    split_ifs with hname
    · exact hcontent col hname
    · rfl

theorem Sends.summary_eq (h : s.Sends c) : c.summary table = s.told c.name := by
  apply Epoch.ext
  · exact h.cl
  · funext col
    simp only [told]
    split_ifs with hname
    · exact h.content_eq hname
    · exact Change.summary_content_of_ne hname

theorem localCl_congr (hsentinel : t.sentinel = s.sentinel) {name : String}
    (hs : s.info name ≠ none) (ht : t.info name ≠ none) : t.localCl = s.localCl := by
  cases hm : s.sentinel with
  | some m => rw [localCl_of_sentinel hm, localCl_of_sentinel (hsentinel.trans hm)]
  | none => rw [localCl_of_info hm hs, localCl_of_info (hsentinel.trans hm) ht]

theorem Consistent.info_eq_none (h : s.Consistent) (hcl : s.localCl = 0) (name : String) :
    s.info name = none := by
  by_cases hname : name = CLOUDSYNC_TOMBSTONE_VALUE
  · subst hname
    cases hm : s.sentinel with
    | none => exact hm
    | some m =>
      have hpos := h.pos m hm
      rw [localCl_of_sentinel hm] at hcl
      omega
  · exact h.dead (by omega) name hname

/-- From `s` a step of the stamps `P` has led to `t`. -/
structure Retells (P : ℤ → Prop) (s t : RowState table) : Prop where
  kept : ∀ name m, t.info name = some m →
    P m.dbVersion ∨ s.info name = some m ∧ t.told name = s.told name
  gone : ∀ name m, s.info name = some m →
    t.info name = some m ∨ ∃ name' m', t.info name' = some m' ∧ P m'.dbVersion

namespace Retells

theorem refl (P : ℤ → Prop) (s : RowState table) : s.Retells P s :=
  ⟨fun _ _ hm => .inr ⟨hm, rfl⟩, fun _ _ hm => .inl hm⟩

theorem of_all (h : ∀ name m, t.info name = some m → P m.dbVersion)
    (hsome : ∃ name, t.info name ≠ none) : s.Retells P t := by
  refine ⟨fun name m hm => .inl (h name m hm), fun _ _ _ => .inr ?_⟩
  rcases hsome with ⟨name, hname⟩
  rcases Option.ne_none_iff_exists'.mp hname with ⟨m, hm⟩
  exact ⟨name, m, hm, h name m hm⟩

theorem marked {row oldRow : Row table} (hold : s.row = some oldRow) {v : ℤ} (hv : P v)
    (seq : String → ℤ) :
    s.Retells P ((s.setRow (some row)).markColumns (changedColumns row oldRow) v seq) := by
  constructor
  · intro name m hm
    by_cases hname : ∃ col ∈ changedColumns row oldRow, table.colName col = name
    · rcases hname with ⟨col, hcol, rfl⟩
      rw [markColumns_of_mem _ hcol, Option.some.injEq] at hm
      exact .inl (hm ▸ hv)
    have hinfo := hm
    rw [markColumns_of_notMem _ fun col hcol he => hname ⟨col, hcol, he⟩] at hinfo
    have hinfo : s.info name = some m := hinfo
    refine .inr ⟨hinfo, told_congr ?_ fun col hcol => ?_⟩
    · exact localCl_congr (markColumns_sentinel _ _ _ _) (hinfo ▸ Option.some_ne_none m)
        (hm ▸ Option.some_ne_none m)
    -- an unmarked column has its version, and a value that compares equal
    · have hequal : dbutilsValueCompare (some (row col)) (some (oldRow col)) = 0 := by
        by_contra hne
        exact hname ⟨col, mem_changedColumns.mpr hne, hcol.symm⟩
      have hvalue : ((s.setRow (some row)).markColumns (changedColumns row oldRow) v seq).value col =
          some (row col) := rfl
      rw [summary_content, summary_content, version, version, ← hcol, hm, hinfo, hvalue,
        value_of_row hold col]
      exact register_congr _ hequal
  · intro name m hm
    by_cases hname : ∃ col ∈ changedColumns row oldRow, table.colName col = name
    · rcases hname with ⟨col, hcol, -⟩
      exact .inr ⟨_, _, markColumns_of_mem _ hcol v seq, hv⟩
    · left
      rw [markColumns_of_notMem _ fun col hcol he => hname ⟨col, hcol, he⟩]
      exact hm

theorem inserted (hs : s.KnownClocks) (row : Row table) {v : ℤ} (hv : P v) (seq₀ : ℤ)
    (seq : String → ℤ) : s.Retells P ((s.setRow (some row)).inserted v seq₀ seq) := by
  have halive : ∀ name m, ((s.setRow (some row)).markAlive v seq₀).info name = some m →
      P m.dbVersion ∨ ∃ col, name = table.colName col := by
    intro name m hm
    rw [markAlive, setInfo_info] at hm
    split_ifs at hm with hname
    · exact .inl (Option.some_inj.mp hm ▸ hv)
    · exact .inr ((hs name m hm).1.resolve_left hname)
  have hbump : ∀ name m, ((s.setRow (some row)).bumpAlive v seq₀).info name = some m →
      P m.dbVersion ∨ ∃ col, name = table.colName col := by
    rw [bumpAlive]
    cases hsentinel : (s.setRow (some row)).sentinel with
    | some _ => exact halive
    | none =>
      intro name m hm
      refine .inr ((hs name m hm).1.resolve_left fun hname => ?_)
      subst hname
      exact Option.some_ne_none m (hm.symm.trans hsentinel)
  rw [RowState.inserted]
  apply of_all
  · intro name m hm
    by_cases hname : ∃ col ∈ List.finRange table.ncols, table.colName col = name
    · rcases hname with ⟨col, hcol, rfl⟩
      rw [markColumns_of_mem _ hcol, Option.some.injEq] at hm
      exact hm ▸ hv
    · rw [markColumns_of_notMem _ fun col hcol he => hname ⟨col, hcol, he⟩] at hm
      have hcases : P m.dbVersion ∨ ∃ col, name = table.colName col := by
        split_ifs at hm
        · exact halive name m hm
        · exact hbump name m hm
      apply hcases.resolve_right
      rintro ⟨col, rfl⟩
      exact hname ⟨col, List.mem_finRange col, rfl⟩
  · by_cases hcols : table.ncols = 0
    · refine ⟨CLOUDSYNC_TOMBSTONE_VALUE, ?_⟩
      rw [if_pos hcols, markColumns_of_notMem _ fun col _ => colName_ne_tombstone table col, markAlive,
        setInfo_info, if_pos rfl]
      exact Option.some_ne_none _
    · refine ⟨table.colName ⟨0, Nat.pos_of_ne_zero hcols⟩, ?_⟩
      rw [markColumns_of_mem _ (List.mem_finRange _)]
      exact Option.some_ne_none _

theorem deleted (s : RowState table) {v : ℤ} (hv : P v) (seq : ℤ) :
    s.Retells P ((s.setRow none).deleted v seq) := by
  apply of_all
  · intro name m hm
    rw [RowState.deleted, dropColumns_info] at hm
    split_ifs at hm with hname
    rw [markDeleted, setInfo_info, if_pos hname, Option.some.injEq] at hm
    exact hm ▸ hv
  · refine ⟨CLOUDSYNC_TOMBSTONE_VALUE, ?_⟩
    rw [RowState.deleted, dropColumns_info, if_pos rfl, markDeleted, setInfo_info, if_pos rfl]
    exact Option.some_ne_none _

end Retells

/-- A row that moves to a key brings or gives a clock to each column that has one there. -/
def BringsClocks (old new : RowState table) (row oldRow : Row table) : Prop :=
  ∀ col, col ∈ changedColumns row oldRow ∨ old.info (table.colName col) ≠ none ∨
    new.info (table.colName col) = none

instance (old new : RowState table) (row oldRow : Row table) :
    Decidable (BringsClocks old new row oldRow) := inferInstanceAs (Decidable (∀ _, _))

namespace Retells

theorem arrived (hs : s.KnownClocks) {old : RowState table} {row oldRow : Row table}
    (hbrings : BringsClocks old s row oldRow) {v : ℤ} (hv : P v) (seqMove seqAlive : ℤ)
    (seq : String → ℤ) :
    s.Retells P ((s.setRow (some row)).arrived old (changedColumns row oldRow) v seqMove seqAlive
      seq) := by
  rw [RowState.arrived]
  apply of_all
  · intro name m hm
    by_cases hname : ∃ col ∈ changedColumns row oldRow, table.colName col = name
    · rcases hname with ⟨col, hcol, rfl⟩
      rw [markColumns_of_mem _ hcol, Option.some.injEq] at hm
      exact hm ▸ hv
    rw [markColumns_of_notMem _ fun col hcol he => hname ⟨col, hcol, he⟩, markAlive, setInfo_info,
      receive_info] at hm
    split_ifs at hm with htomb hnone
    · exact Option.some_inj.mp hm ▸ hv
    -- a clock of the new key would have been replaced
    · have hinfo : s.info name = some m := hm
      rcases (hs name m hinfo).1.resolve_left htomb with ⟨col, rfl⟩
      rcases hbrings col with hcol | hclock | hclock
      · exact absurd ⟨col, hcol, rfl⟩ hname
      · exact absurd hnone hclock
      · exact absurd (hinfo.symm.trans hclock) (Option.some_ne_none m)
    · exact Option.some_inj.mp hm ▸ hv
  · refine ⟨CLOUDSYNC_TOMBSTONE_VALUE, ?_⟩
    rw [markColumns_of_notMem _ fun col _ => colName_ne_tombstone table col, markAlive, setInfo_info,
      if_pos rfl]
    exact Option.some_ne_none _

theorem resurrect_anew (s : RowState table) (cl : ℤ) {st : Stamps} (hzero : P st.zero)
    (hsentinel : P st.sentinel) :
    ∀ name m, (s.resurrect cl c st).info name = some m → P m.dbVersion := by
  intro name m hm
  rw [RowState.resurrect, setInfo_info] at hm
  split_ifs at hm with hname
  · exact Option.some_inj.mp hm ▸ hsentinel
  · rw [zeroColumns_info, if_neg hname, Option.map_eq_some_iff] at hm
    rcases hm with ⟨m', -, rfl⟩
    exact hzero

theorem resurrect (s : RowState table) (cl : ℤ) {st : Stamps} (hzero : P st.zero)
    (hsentinel : P st.sentinel) : s.Retells P (s.resurrect cl c st) := by
  apply of_all
  · exact resurrect_anew s cl hzero hsentinel
  · refine ⟨CLOUDSYNC_TOMBSTONE_VALUE, ?_⟩
    rw [RowState.resurrect, setInfo_info, if_pos rfl]
    exact Option.some_ne_none _

theorem bury (s : RowState table) (hname : c.name = CLOUDSYNC_TOMBSTONE_VALUE) {st : Stamps}
    (hsentinel : P st.sentinel) : s.Retells P (s.bury c st) := by
  apply of_all
  · intro name m hm
    rw [RowState.bury, dropColumns_info] at hm
    split_ifs at hm with htomb
    rw [setInfo_info, if_pos (htomb.trans hname.symm), Option.some.injEq] at hm
    exact hm ▸ hsentinel
  · refine ⟨CLOUDSYNC_TOMBSTONE_VALUE, ?_⟩
    rw [RowState.bury, dropColumns_info, if_pos rfl, setInfo_info, if_pos hname.symm]
    exact Option.some_ne_none _

theorem take_anew (h : ∀ name m, s.info name = some m → P m.dbVersion) (col : Fin table.ncols)
    {st : Stamps} (hcolumn : P st.column) : u.Retells P (s.take col c st) := by
  apply of_all
  · intro name m hm
    by_cases hname : name = c.name
    · subst hname
      rw [take_info_self, Option.some.injEq] at hm
      exact hm ▸ hcolumn
    · rw [take_info_of_ne s col hname] at hm
      exact h name m hm
  · exact ⟨c.name, by rw [take_info_self]; exact Option.some_ne_none _⟩

theorem take (hs : s.Consistent) (hodd : s.localCl % 2 = 1) {col : Fin table.ncols}
    (hname : c.name = table.colName col) {st : Stamps} (hcolumn : P st.column) :
    s.Retells P (s.take col c st) := by
  rcases Option.ne_none_iff_exists'.mp (hs.row_iff.mpr hodd) with ⟨row, hrow⟩
  constructor
  · intro name m hm
    by_cases heq : name = c.name
    · subst heq
      rw [take_info_self, Option.some.injEq] at hm
      exact .inl (hm ▸ hcolumn)
    rw [take_info_of_ne s col heq] at hm
    refine .inr ⟨hm, told_congr (localCl_take_of_alive hodd hname st) fun col' hcol' => ?_⟩
    have hne : col' ≠ col := fun he => heq (hcol'.trans (he ▸ hname.symm))
    rw [summary_content, summary_content, take_version_of_ne hne hname, take_value_of_ne hne, hrow,
      Option.getD_some, value_of_row hrow]
  · intro name m hm
    by_cases heq : name = c.name
    · exact .inr ⟨c.name, _, take_info_self s col c st, hcolumn⟩
    · rw [take_info_of_ne s col heq]
      exact .inl hm

theorem merged (hs : s.Consistent) (hwf : c.WellFormedFor table) {st : Stamps}
    (hzero : P st.zero) (hsentinel : P st.sentinel) (hcolumn : P st.column) :
    s.Retells P (s.merged c st) := by
  rw [RowState.merged]
  by_cases hold : c.cl < s.localCl
  · rw [if_pos hold]
    exact refl P s
  rw [if_neg hold]
  rcases hwf with ⟨hname, -⟩ | ⟨⟨col, hname⟩, hodd, -⟩
  · rw [if_pos hname]
    split_ifs
    · exact refl P s
    · exact bury s hname hsentinel
    · exact refl P s
    · exact resurrect s _ hzero hsentinel
  · have hlookup : tableColumnLookup table c.name = some col := by
      rw [hname, tableColumnLookup_colName]
    rw [if_neg (by omega), if_neg (hname ▸ colName_ne_tombstone table col)]
    by_cases hlt : s.localCl < c.cl
    · rw [columnMerged_of_wins hlookup (.inl hlt)]
      apply take_anew _ col hcolumn
      intro name m hm
      rw [prepared] at hm
      split_ifs at hm with hlater
      · exact resurrect_anew s _ hzero hsentinel name m hm
      -- a row that never was has nothing to tell
      · have hnever : s.localCl = 0 := by
          by_contra hne
          exact hlater ⟨hlt, .inl hne⟩
        rw [hs.info_eq_none hnever] at hm
        cases hm
    · have hcl : c.cl = s.localCl := by omega
      by_cases hbeaten : s.Beaten col c
      · have hprep : s.prepared c st = s := if_neg fun hlater => hlt hlater.1
        rw [columnMerged_of_wins hlookup (.inr hbeaten), hprep]
        exact take hs (hcl ▸ hodd) hname hcolumn
      · rw [columnMerged_of_loses hlookup (not_or.mpr ⟨hlt, hbeaten⟩)]
        exact refl P s

theorem rowStep {rows rows' : Pk → RowState table} (hrows : ∀ pk, (rows pk).KnownClocks) {v seq₀ : ℤ}
    (hv : P v) {e : RowChange table}
    (hbrings : ∀ o oldpk pk row oldRow, e = .update o oldpk pk row → pk ≠ oldpk →
      (rows oldpk).row = some oldRow → BringsClocks (rows oldpk) (rows pk) row oldRow)
    (h : RowStep v seq₀ rows e rows') (pk : Pk) : (rows pk).Retells P (rows' pk) := by
  cases h with
  | @insert orReplace pk' row hfree seq₁ seq hseq₁ hseq =>
    rw [Function.update_apply]
    split_ifs with hpk
    · subst hpk
      exact inserted (hrows pk) row hv seq₁ seq
    · exact refl P _
  | @update orReplace pk' row oldRow hold seq hseq =>
    rw [Function.update_apply]
    split_ifs with hpk
    · subst hpk
      exact marked hold hv seq
    · exact refl P _
  | @move orReplace oldpk pk' hne row oldRow hold hfree seq₁ seq₂ seq₃ seq hseq₁ hseq₂ hseq₃ hseq =>
    rw [Function.update_apply, Function.update_apply]
    split_ifs with hpk hpk
    · subst hpk
      exact arrived (hrows pk) (hbrings _ oldpk pk row oldRow rfl hne hold) hv seq₂ seq₃ seq
    · subst hpk
      exact deleted _ hv seq₁
    · exact refl P _
  | @delete pk' hold seq₁ hseq₁ =>
    rw [Function.update_apply]
    split_ifs with hpk
    · subst hpk
      exact deleted _ hv seq₁
    · exact refl P _

end Retells
end RowState
end SqliteSync.Store
