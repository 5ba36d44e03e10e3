import SqliteSync.Library.Pulling
import SqliteSync.Causal.Told
import SqliteSync.Causal.Rounds
import SqliteSync.Causal.Transaction

/-!
# Versions left behind

The clock stamps what it writes above every version it counts as committed. So a
metadata row of such a version was there before, and tells what it told: to those who
read the feed above a cursor, a replica is a log.
-/
namespace SqliteSync.Store
open Library Clock

variable {n : ℕ} {schema : Fin n → TableContext}

namespace Replica
variable {r r' : Replica schema} {versions : List ℤ} {v : ℤ}

/-- A step that was given `versions` has led from `r` to `r'`. -/
structure Stamped (r r' : Replica schema) (versions : List ℤ) : Prop where
  clocked : Clocked r r' versions
  rows : ∀ i pk, (r.rows i pk).Retells (· ∈ versions) (r'.rows i pk)

/-- A row that moves to a live one brings a clock for each of its columns that has one. -/
def KeepsClocks (r : Replica schema) : Event schema → Prop
  | .write i (.update _ oldpk pk row) => pk ≠ oldpk → ∀ oldRow, (r.rows i oldpk).row = some oldRow →
      RowState.BringsClocks (r.rows i oldpk) (r.rows i pk) row oldRow
  | _ => True

instance (r : Replica schema) : (e : Event schema) → Decidable (r.KeepsClocks e)
  | .write i (.update _ oldpk pk row) =>
    decidable_of_iff (pk ≠ oldpk → ∀ oldRow ∈ (r.rows i oldpk).row.toList,
      RowState.BringsClocks (r.rows i oldpk) (r.rows i pk) row oldRow) (by
        simp [KeepsClocks])
  | .write _ (.insert ..) | .write _ (.delete _) | .merge _ | .commit => isTrue trivial

theorem stamped_write (hr : r.Faithful) {i : Fin n} {c : RowChange (schema i)}
    (hkey : c.KeyDetected) (hclocks : r.KeepsClocks (.write i c))
    (h : applyRowChange r i c = some r') : ∃ versions, r.Stamped r' versions := by
  rcases applyRowChange_rowStep (hr.1 i) hkey h with ⟨rows', hstep, hholds⟩
  refine ⟨_, hholds.clocked, fun j pk => ?_⟩
  by_cases hj : j = i
  · subst hj
    have hrow : r'.rows j pk = rows' pk := hholds.rowAt pk
    rw [hrow]
    apply RowState.Retells.rowStep (fun pk => (hr.2 j pk).2.clocks) (List.mem_singleton_self _) _ hstep
    rintro o oldpk pk row oldRow rfl hne hold
    exact hclocks hne oldRow hold
  · have hrow : r'.rows j pk = r.rows j pk := by
      rw [rows, hholds.tables j hj]
      rfl
    rw [hrow]
    exact .refl _ _

theorem stamped_merge (hcls : ∀ i, (schema i).algo = .crdtCls) (hr : r.Sound) {c : Change n}
    (hwf : c.WellFormedFor (schema c.tbl)) :
    ∃ versions, r.Stamped (cloudsyncMergeInsert noFaults r c).2 versions := by
  have hgos : (schema c.tbl).algo ≠ .crdtGos := by
    rw [hcls]
    decide
  rcases cloudsyncMergeInsert_merged r c hgos (hr.2 c.tbl c.pk).localCl_nonneg with ⟨st, hm⟩
  rcases hm.clocked with hsame | ⟨versions, -, hclocked, hzero, hsentinel, hcolumn⟩
  · rw [hsame]
    exact ⟨[], .refl r, fun _ _ => .refl _ _⟩
  · refine ⟨versions, hclocked, fun i pk => ?_⟩
    by_cases hi : i = c.tbl
    · subst hi
      by_cases hpk : pk = c.pk
      · subst hpk
        have hrow : (cloudsyncMergeInsert noFaults r c).2.rows c.tbl c.pk =
            (r.rows c.tbl c.pk).merged c st := hm.rewrites.here
        rw [hrow]
        exact .merged (hr.2 c.tbl c.pk) hwf hzero hsentinel hcolumn
      · have hrow : (cloudsyncMergeInsert noFaults r c).2.rows c.tbl pk = r.rows c.tbl pk :=
          hm.rewrites.rows pk hpk
        rw [hrow]
        exact .refl _ _
    · have hrow : (cloudsyncMergeInsert noFaults r c).2.rows i pk = r.rows i pk := by
        rw [rows, hm.rewrites.tables i hi]
        rfl
      rw [hrow]
      exact .refl _ _

theorem mem_stored_rows :
    v ∈ r.view.stored ↔ ∃ i pk name m, (r.rows i pk).info name = some m ∧ m.dbVersion = v := by
  rw [Transaction.mem_stored]
  constructor
  · rintro ⟨⟨i, pk, name⟩, m, hm, hv⟩
    exact ⟨i, pk, name, m, hm, hv⟩
  · rintro ⟨i, pk, name, m, hm, hv⟩
    exact ⟨(i, pk, name), m, hm, hv⟩

theorem checked_dbVersion (r : Replica schema) : r.checked.dbVersion =
    if r.data.dbVersion ≠ CLOUDSYNC_VALUE_NOTSET ∧ r.dataVersion = r.data.dataVersion then
      r.data.dbVersion
    else r.view.maxDbVersion := by
  rw [checked, dbVersionCheckUptodate]
  change (if r.data.dbVersion ≠ _ ∧ r.dataVersion = _ then _ else _ : Context).dbVersion = _
  split_ifs <;> rfl

/-- Whatever the clock stamps from now on is above `v`. -/
structure Past (r : Replica schema) (v : ℤ) : Prop where
  nonneg : 0 ≤ v
  pending : r.dataVersion = r.data.dataVersion →
    r.data.pendingDbVersion = CLOUDSYNC_VALUE_NOTSET ∨
      r.data.dbVersion ≠ CLOUDSYNC_VALUE_NOTSET ∧ r.data.dbVersion < r.data.pendingDbVersion
  checked : v ≤ r.checked.dbVersion
  stored : r.view.stored = [] ∧ v = 0 ∨ ∃ w ∈ r.view.stored, v ≤ w

namespace Past

theorem le_max (h : r.Past v) : v ≤ r.view.maxDbVersion := by
  rcases h.stored with ⟨hnil, rfl⟩ | ⟨w, hw, hle⟩
  · rw [DbView.maxDbVersion, hnil]
    exact le_rfl
  · exact hle.trans (le_maxDbVersion r.view hw)

theorem settled (h : r.Past v) (hsucc : HasSuccessor r.checked) : r.Settled := by
  refine ⟨?_, hsucc⟩
  have hnonneg := h.nonneg.trans h.checked
  rw [CLOUDSYNC_VALUE_NOTSET]
  omega

theorem lt_of_mem (h : r.Past v) (hs : r.Stamped r' versions) (hsucc : HasSuccessor r.checked)
    {w : ℤ} (hw : w ∈ versions) : v < w := by
  have hasked := hs.clocked.asked (List.ne_nil_of_mem hw) (h.settled hsucc)
  exact h.checked.trans_lt (hasked.2.2 w hw).1

theorem stored_of_stamped (h : r.Past v) (hs : r.Stamped r' versions)
    (hsucc : HasSuccessor r.checked) :
    r'.view.stored = [] ∧ v = 0 ∨ ∃ w ∈ r'.view.stored, v ≤ w := by
  rcases h.stored with ⟨hnil, hzero⟩ | ⟨w, hw, hle⟩
  · by_cases hempty : r'.view.stored = []
    · exact .inl ⟨hempty, hzero⟩
    rcases List.exists_mem_of_ne_nil _ hempty with ⟨w, hw⟩
    rcases mem_stored_rows.mp hw with ⟨i, pk, name, m, hm, rfl⟩
    rcases (hs.rows i pk).kept name m hm with hnew | ⟨hold, -⟩
    · exact .inr ⟨_, hw, (h.lt_of_mem hs hsucc hnew).le⟩
    · have hin := mem_stored_rows.mpr ⟨i, pk, name, m, hold, rfl⟩
      rw [hnil] at hin
      cases hin
  · rcases mem_stored_rows.mp hw with ⟨i, pk, name, m, hm, rfl⟩
    rcases (hs.rows i pk).gone name m hm with hold | ⟨name', m', hm', hnew⟩
    · exact .inr ⟨_, mem_stored_rows.mpr ⟨i, pk, name, m, hold, rfl⟩, hle⟩
    · exact .inr ⟨_, mem_stored_rows.mpr ⟨i, pk, name', m', hm', rfl⟩,
        (h.lt_of_mem hs hsucc hnew).le⟩

theorem stamped (h : r.Past v) (hs : r.Stamped r' versions) (hsucc : HasSuccessor r.checked) :
    r'.Past v := by
  have hstored := h.stored_of_stamped hs hsucc
  have hsettled := h.settled hsucc
  by_cases hnil : versions = []
  · rcases hs.clocked.fresh hnil with ⟨hview, hdb, hpending, hcached⟩
    refine ⟨h.nonneg, ?_, ?_, hstored⟩
    · rw [hs.clocked.dataVersion, hcached, hpending, hdb]
      exact h.pending
    · have hchecked := h.checked
      rw [checked_dbVersion] at hchecked ⊢
      rw [hs.clocked.dataVersion, hcached, hdb, hview]
      exact hchecked
  · rcases hs.clocked.asked hnil hsettled with ⟨hdb, hcached, hversions⟩
    have hmatched := hs.clocked.dataVersion.trans hcached.symm
    have hset : r'.data.dbVersion ≠ CLOUDSYNC_VALUE_NOTSET := by
      rw [hdb]
      exact hsettled.1
    refine ⟨h.nonneg, fun _ => .inr ⟨hset, ?_⟩, ?_, hstored⟩
    · rcases List.exists_mem_of_ne_nil _ hnil with ⟨w, hw⟩
      rw [hdb]
      exact (hversions w hw).1.trans_le (hversions w hw).2.2
    · rw [checked_dbVersion, if_pos ⟨hset, hmatched⟩, hdb]
      exact h.checked

/-- A commit counts the pending version as committed, or forgets the version. -/
theorem commit (h : r.Past v) : Past { r with data := cloudsyncCommitHook r.data } v := by
  refine ⟨h.nonneg, fun _ => .inl rfl, ?_, h.stored⟩
  rw [checked_dbVersion]
  split_ifs with hcurrent
  · rcases hcurrent with ⟨hset, hmatched⟩
    rcases (h.pending hmatched).resolve_left hset with ⟨hdb, hlt⟩
    have hchecked := h.checked
    rw [checked_dbVersion, if_pos ⟨hdb, hmatched⟩] at hchecked
    exact hchecked.trans hlt.le
  · exact h.le_max

theorem settle (h : r.Past v) (autocommit : Bool) : (r.settle autocommit).Past v := by
  rw [Replica.settle]
  split_ifs
  · exact h.commit
  · exact h

theorem empty (schema : Fin n → TableContext) (site : SiteId) : (empty schema site).Past 0 := by
  have hstored : (Replica.empty schema site).view.stored = [] := by
    apply List.eq_nil_iff_forall_not_mem.mpr
    intro w hw
    rcases mem_stored_rows.mp hw with ⟨i, pk, name, m, hm, -⟩
    cases hm
  refine ⟨le_rfl, fun h => absurd h.symm Int.zero_ne_one, ?_, .inl ⟨hstored, rfl⟩⟩
  rw [checked_dbVersion, if_neg fun h => Int.zero_ne_one h.2.symm, DbView.maxDbVersion, hstored]
  exact le_rfl

end Past
end Replica

/-! ## A replica as a log -/

/-- What a metadata row tells of its row, under a db version. -/
structure Fact (schema : Fin n → TableContext) where
  tbl : Fin n
  pk : Pk
  dbVersion : ℤ
  content : CausalRow (Fin (schema tbl).ncols) ValueKey

def Change.fact (schema : Fin n → TableContext) (c : Change n) : Fact schema :=
  ⟨c.tbl, c.pk, c.dbVersion, c.summary (schema c.tbl)⟩

namespace Replica
variable {r r' : Replica schema} {versions : List ℤ}

/-- A replica as its readers see it. -/
def log (schema : Fin n → TableContext) : Log (Replica schema) (Fact schema) ℤ where
  stamp f := f.dbVersion
  entry r f := ∃ name m, (r.rows f.tbl f.pk).info name = some m ∧ m.dbVersion = f.dbVersion ∧
    (r.rows f.tbl f.pk).told name = f.content
  past := Past
  knows r f := f.content ≤ (r.rows f.tbl f.pk).summary

theorem entry_of_sends {c : Change n} (h : (r.rows c.tbl c.pk).Sends c) :
    (log schema).entry r (c.fact schema) := by
  rcases h.version with ⟨m, hm, -, hversion⟩
  exact ⟨c.name, m, hm, hversion.symm, h.summary_eq.symm⟩

theorem Faithful.exists_change (hr : r.Faithful) {feed : List (Change n)}
    (hfeed : r.cloudsyncChanges = .ok feed) {f : Fact schema} (hf : (log schema).entry r f) :
    ∃ c ∈ feed, c.fact schema = f := by
  rcases f with ⟨i, pk, v, content⟩
  have hrow : ∃ name m, (r.rows i pk).info name = some m ∧ m.dbVersion = v ∧
      (r.rows i pk).told name = content := hf
  rcases hrow with ⟨name, m, hm, rfl, rfl⟩
  rcases hr.feed with ⟨feed', hfeed', -, htells⟩
  rw [hfeed, Except.ok.injEq] at hfeed'
  subst hfeed'
  rcases (htells feed (.refl feed) i pk).names name (hm ▸ Option.some_ne_none m) with
    ⟨c, ⟨hc, rfl, rfl⟩, rfl⟩
  have hsends := (htells feed (.refl feed) c.tbl c.pk).sends c ⟨hc, rfl, rfl⟩
  rcases hsends.version with ⟨m', hm', -, hversion⟩
  rw [hm, Option.some_inj] at hm'
  subst hm'
  refine ⟨c, hc, ?_⟩
  rw [Change.fact, hversion, hsends.summary_eq]

theorem Stamped.advances (hs : r.Stamped r' versions) (hsucc : HasSuccessor r.checked)
    (hle : r.Below r') : (log schema).Advances r r' where
  past _ hv := hv.stamped hs hsucc
  entry v f hv hf hfv := by
    rcases hf with ⟨name, m, hm, hversion, htold⟩
    rcases (hs.rows f.tbl f.pk).kept name m hm with hnew | ⟨hold, hsame⟩
    · have hlt := hv.lt_of_mem hs hsucc hnew
      rw [hversion] at hlt
      exact absurd hfv hlt.not_ge
    · exact ⟨name, m, hold, hversion, hsame.symm.trans htold⟩
  knows f hf := le_trans hf (hle f.tbl f.pk)

theorem advances_settle (r : Replica schema) (autocommit : Bool) :
    (log schema).Advances r (r.settle autocommit) where
  past _ hv := hv.settle autocommit
  entry _ _ _ hf _ := by
    change ∃ _, _ at hf
    rw [settle_rows] at hf
    exact hf
  knows _ hf := by
    change _ ≤ _
    rw [settle_rows]
    exact hf

def KeepsCursors (r : Replica schema) (e : Event schema) : Prop :=
  r.KeepsFeed e ∧ r.Ascends e ∧ r.KeepsClocks e ∧ HasSuccessor r.checked

instance (r : Replica schema) (e : Event schema) : Decidable (r.KeepsCursors e) :=
  inferInstanceAs (Decidable (_ ∧ _ ∧ _ ∧ _))

theorem advances_step (hcls : ∀ i, (schema i).algo = .crdtCls) (hr : r.Faithful) {e : Event schema}
    (he : r.KeepsCursors e) (h : r.step e = some r') : (log schema).Advances r r' := by
  rcases he with ⟨⟨-, hparity, -⟩, hascends, hclocks, hsucc⟩
  have hle := below_step hcls hr.sound ⟨hparity, hascends⟩ h
  cases e with
  | write i c =>
    rcases stamped_write hr hparity.1 hclocks h with ⟨versions, hs⟩
    exact hs.advances hsucc hle
  | merge c =>
    rw [step, Option.ite_none_right_eq_some, Option.some.injEq] at h
    rcases h with ⟨-, rfl⟩
    rcases stamped_merge hcls hr.sound hascends with ⟨versions, hs⟩
    exact hs.advances hsucc hle
  | commit =>
    cases h
    exact r.advances_settle true

/-- None of the merges of a delivery finds the clock at its end. -/
def HasRoom (autocommit : Bool) : Replica schema → List (Change n) → Prop
  | _, [] => True
  | r, c :: D => HasSuccessor r.checked ∧
      HasRoom autocommit ((cloudsyncMergeInsert noFaults r c).2.settle autocommit) D

instance (autocommit : Bool) : (r : Replica schema) → (D : List (Change n)) →
    Decidable (HasRoom autocommit r D)
  | _, [] => isTrue trivial
  | r, c :: D =>
    have := instDecidableHasRoom autocommit ((cloudsyncMergeInsert noFaults r c).2.settle autocommit) D
    inferInstanceAs (Decidable (HasSuccessor r.checked ∧
      HasRoom autocommit ((cloudsyncMergeInsert noFaults r c).2.settle autocommit) D))

theorem advances_deliverEach (hcls : ∀ i, (schema i).algo = .crdtCls) (autocommit : Bool)
    (hr : r.Sound) {D : List (Change n)} (hD : ∀ c ∈ D, c.WellFormedFor (schema c.tbl))
    (hroom : HasRoom autocommit r D) :
    (log schema).Advances r (r.deliverEach autocommit D) ∧
      ∀ c ∈ D, (r.deliverEach autocommit D).Knows c := by
  induction D generalizing r with
  | nil => exact ⟨.refl r, by simp⟩
  | cons c D ih =>
    have hwf := hD c List.mem_cons_self
    have hle := below_step hcls hr (e := .merge c) ⟨trivial, hwf⟩ (if_pos hwf.wellFormed)
    rcases stamped_merge hcls hr hwf with ⟨versions, hs⟩
    have hmerged := (hs.advances hroom.1 hle).trans (advances_settle _ autocommit)
    rcases ih ((hr.merge hcls hwf).settle autocommit) (fun d hd => hD d (.tail c hd)) hroom.2 with
      ⟨hrest, hknows⟩
    refine ⟨hmerged.trans hrest, fun d hd => ?_⟩
    rcases List.mem_cons.mp hd with rfl | hd
    · apply hrest.knows (d.fact schema)
      apply (advances_settle _ autocommit).knows (d.fact schema)
      exact knows_merged hcls hr hwf
    · exact hknows d hd

end Replica
end SqliteSync.Store
