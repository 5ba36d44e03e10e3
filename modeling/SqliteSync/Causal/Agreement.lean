import SqliteSync.Causal.Known

/-!
# When two replicas agree

The feed of a replica tells each of its rows: a row is the least one above what it
sends. So a replica that knows another's feed is above that replica, and two that
know each other's hold the same, up to values the comparison does not tell apart.
-/
namespace SqliteSync.Store
open Library Clock

namespace RowState
variable {table : TableContext} {n : ℕ} {s t : RowState table} {E : Set (Change n)}

/-- Changes sent by a row, one for each of its names. -/
structure Tells (t : RowState table) (E : Set (Change n)) : Prop where
  sends : ∀ c ∈ E, t.Sends c
  names : ∀ name, t.info name ≠ none → ∃ c ∈ E, c.name = name

namespace Tells

theorem localCl_eq_zero (h : t.Tells E) (hempty : ∀ c, c ∉ E) : t.localCl = 0 := by
  apply localCl_of_none
  intro name
  by_contra hname
  rcases h.names name hname with ⟨c, hc, -⟩
  exact hempty c hc

theorem exists_content (h : t.Tells E) (ht : t.Consistent) {col : Fin table.ncols}
    (hcol : t.summary.content col ≠ ⊥) :
    ∃ c ∈ E, (c.summary table).content col = t.summary.content col := by
  have hversion := mt (ht.content_eq_bot_iff col).mpr hcol
  have hinfo : t.info (table.colName col) ≠ none := by
    intro hnone
    apply hversion
    rw [version, hnone]
    rfl
  rcases h.names _ hinfo with ⟨c, hc, hname⟩
  exact ⟨c, hc, (h.sends c hc).content_eq hname⟩

theorem summary_le (h : t.Tells E) (ht : t.Consistent) {z : CausalRow (Fin table.ncols) ValueKey}
    (hz : 0 ≤ z.epoch) (hE : ∀ c ∈ E, c.summary table ≤ z) : t.summary ≤ z := by
  apply CausalRow.le_of_changes (E := Change.summary table '' E)
  · by_cases hempty : ∃ c, c ∈ E
    · rcases hempty with ⟨c, hc⟩
      exact (h.sends c hc).cl.symm.trans_le (Epoch.epoch_le (hE c hc))
    · exact (h.localCl_eq_zero (not_exists.mp hempty)).trans_le hz
  · rintro _ ⟨c, hc, rfl⟩
    exact (h.sends c hc).cl
  · intro col hcol
    rcases h.exists_content ht hcol with ⟨c, hc, hcontent⟩
    exact ⟨_, ⟨c, hc, rfl⟩, hcontent⟩
  · rintro _ ⟨c, hc, rfl⟩
    exact hE c hc

/-- The changes of a row, merged in some order, raise a length to that of the row. -/
theorem foldl_epoch {L : List (Change n)} (h : t.Tells {c | c ∈ L})
    {z : CausalRow (Fin table.ncols) ValueKey} (hz : 0 ≤ z.epoch) :
    ((L.map (Change.summary table)).foldl CausalRow.merge z).epoch = z.epoch ⊔ t.localCl := by
  by_cases hnil : L = []
  · rw [h.localCl_eq_zero fun c hc => List.not_mem_nil (hnil ▸ hc), hnil]
    exact (sup_eq_left.mpr hz).symm
  · apply CausalRow.foldl_merge_epoch (mt List.map_eq_nil_iff.mp hnil)
    intro x hx
    rcases List.mem_map.mp hx with ⟨c, hc, rfl⟩
    exact (h.sends c hc).cl

/-- Merged into a row that is not shorter, they are joined with it. -/
theorem foldl_merge {L : List (Change n)} (h : t.Tells {c | c ∈ L}) (ht : t.Consistent)
    {z : CausalRow (Fin table.ncols) ValueKey} (hz : t.localCl ≤ z.epoch) :
    (L.map (Change.summary table)).foldl CausalRow.merge z = z ⊔ t.summary := by
  apply CausalRow.foldl_merge_eq hz
  · intro x hx
    rcases List.mem_map.mp hx with ⟨c, hc, rfl⟩
    exact (h.sends c hc).cl
  · intro x hx
    rcases List.mem_map.mp hx with ⟨c, hc, rfl⟩
    exact (h.sends c hc).summary_le
  · intro col hcol
    rcases h.exists_content ht hcol with ⟨c, hc, hcontent⟩
    exact ⟨_, List.mem_map_of_mem hc, hcontent⟩

end Tells

/-- Rows of one causal length and of one version in every column, whose values compare
equal. -/
structure Alike (s t : RowState table) : Prop where
  row : s.row ≠ none ↔ t.row ≠ none
  localCl : s.localCl = t.localCl
  version : ∀ col, s.version col = t.version col
  value : ∀ col x y, s.value col = some x → t.value col = some y →
    dbutilsValueCompare (some x) (some y) = 0

theorem Complete.value_of_version (h : s.Complete) {col : Fin table.ncols} {x : Value}
    (hx : s.value col = some x) (hv : s.version col = none) : x = table.dflt col := by
  cases hrow : s.row with
  | none =>
    rw [value, hrow] at hx
    cases hx
  | some row =>
    rw [value_of_row hrow, Option.some.injEq] at hx
    rw [← hx]
    exact h.default row hrow col (Option.map_eq_none_iff.mp hv)

theorem alike_of_summary_eq (hs : s.Consistent) (hs' : s.Complete) (ht : t.Consistent)
    (ht' : t.Complete) (h : s.summary = t.summary) : s.Alike t := by
  have hcl : s.localCl = t.localCl := congrArg Epoch.epoch h
  have hcontent : ∀ col, register (s.version col) (s.value col) =
      register (t.version col) (t.value col) := fun col => congrFun (congrArg Epoch.content h) col
  have hnone : ∀ col, s.version col = none ↔ t.version col = none := by
    intro col
    rw [← hs.content_eq_bot_iff, ← ht.content_eq_bot_iff, h]
  have hboth : ∀ col, s.version col = t.version col ∧ ∀ x y, s.value col = some x →
      t.value col = some y → dbutilsValueCompare (some x) (some y) = 0 := by
    intro col
    cases hv : s.version col with
    | none =>
      have hv' := (hnone col).mp hv
      refine ⟨hv'.symm, fun x y hx hy => ?_⟩
      rw [hs'.value_of_version hx hv, ht'.value_of_version hy hv', dbutilsValueCompare_self]
    | some v =>
      cases hv' : t.version col with
      | none => exact absurd ((hnone col).mpr hv') (hv ▸ Option.some_ne_none v)
      | some w =>
        rcases Option.ne_none_iff_exists'.mp (hs.row_of_version (hv ▸ Option.some_ne_none v)) with
          ⟨row, hrow⟩
        rcases Option.ne_none_iff_exists'.mp (ht.row_of_version (hv' ▸ Option.some_ne_none w)) with
          ⟨row', hrow'⟩
        have hregister := hcontent col
        rw [hv, hv', value_of_row hrow, value_of_row hrow', register_eq_iff] at hregister
        refine ⟨congrArg some hregister.1, fun x y hx hy => ?_⟩
        rw [value_of_row hrow, Option.some.injEq] at hx
        rw [value_of_row hrow', Option.some.injEq] at hy
        rw [← hx, ← hy]
        exact hregister.2
  exact ⟨by rw [hs.row_iff, ht.row_iff, hcl], hcl, fun col => (hboth col).1, fun col => (hboth col).2⟩

end RowState

namespace Replica
variable {n : ℕ} {schema : Fin n → TableContext}

/-- Two replicas hold the same rows, at the same lengths and versions, up to values that
compare equal. -/
def Agree (r r' : Replica schema) : Prop :=
  ∀ i pk, ((r.table i).base.get pk ≠ none ↔ (r'.table i).base.get pk ≠ none) ∧
    (r.table i).metaLocalCl pk = (r'.table i).metaLocalCl pk ∧
    ∀ col, (r.table i).metaColVersion pk ((schema i).colName col) =
        (r'.table i).metaColVersion pk ((schema i).colName col) ∧
      ∀ x y, (r.table i).colValue pk col = some x → (r'.table i).colValue pk col = some y →
        dbutilsValueCompare (some x) (some y) = 0

theorem agree_of_alike {r r' : Replica schema} (h : ∀ i pk, (r.rows i pk).Alike (r'.rows i pk)) :
    r.Agree r' := by
  intro i pk
  refine ⟨(h i pk).row, ?_, fun col => ⟨(h i pk).version col, (h i pk).value col⟩⟩
  rw [Table.metaLocalCl_eq, Table.metaLocalCl_eq]
  exact (h i pk).localCl

/-- What is known of a replica in a run of changes the code sees. -/
def Faithful (r : Replica schema) : Prop :=
  r.AllRecording ∧ ∀ i pk, (r.rows i pk).Consistent ∧ (r.rows i pk).Complete

theorem Faithful.sound {r : Replica schema} (h : r.Faithful) : r.Sound :=
  ⟨h.1, fun i pk => (h.2 i pk).1⟩

theorem agree_of_below {r r' : Replica schema} (hr : r.Faithful) (hr' : r'.Faithful)
    (h : r.Below r') (h' : r'.Below r) : r.Agree r' := by
  apply agree_of_alike
  intro i pk
  exact RowState.alike_of_summary_eq (hr.2 i pk).1 (hr.2 i pk).2 (hr'.2 i pk).1 (hr'.2 i pk).2
    ((h i pk).antisymm (h' i pk))

theorem Faithful.feed {r : Replica schema} (h : r.Faithful) :
    ∃ feed, r.cloudsyncChanges = .ok feed ∧
      (∀ c ∈ feed, c.WellFormedFor (schema c.tbl) ∧ c.colValue ≠ CLOUDSYNC_RLS_RESTRICTED_VALUE) ∧
      ∀ D, D.Perm feed → ∀ i pk, (r.rows i pk).Tells (changesOf D i pk) := by
  rcases sentNames_feed (fun i pk => (h.2 i pk).1) fun i pk => (h.2 i pk).2 with
    ⟨feed, hfeed, hsends, hnames⟩
  rcases cloudsyncChanges_ok (r := r) fun i pk => (h.2 i pk).2.clocks.named with
    ⟨feed', hfeed', hmem⟩
  rw [hfeed, Except.ok.injEq] at hfeed'
  refine ⟨feed, hfeed, fun c hc => ⟨?_, ?_⟩, fun D hD i pk => ⟨?_, fun name hname => ?_⟩⟩
  · exact (hsends c hc).wellFormedFor (h.2 c.tbl c.pk).1 (h.2 c.tbl c.pk).2.clocks
  · exact ((hmem c).mp (hfeed' ▸ hc)).1
  · rintro c ⟨hc, rfl, rfl⟩
    exact hsends c (hD.mem_iff.mp hc)
  · have hset := hnames (fun _ => true) D (by rwa [List.filter_true]) i pk
    rcases Option.ne_none_iff_exists'.mp hname with ⟨m, hm⟩
    have hin : name ∈ sentNames D i pk := by
      rw [hset]
      exact ⟨m, hm, rfl⟩
    exact hin

theorem faithful_of_reached (hcls : ∀ i, (schema i).algo = .crdtCls)
    (hdflt : ∀ i col, (schema i).dflt col ≠ CLOUDSYNC_RLS_RESTRICTED_VALUE) {r : Replica schema}
    (h : Reached schema KeepsFeed r) : r.Faithful := complete_of_reached hcls hdflt h

theorem below_of_knows {r r' : Replica schema} (hr : r.Faithful) (hr' : r'.Sound)
    {feed : List (Change n)} (hfeed : r.cloudsyncChanges = .ok feed)
    (hknows : ∀ c ∈ feed, r'.Knows c) : r.Below r' := by
  intro i pk
  rcases hr.feed with ⟨feed', hfeed', -, htells⟩
  rw [hfeed, Except.ok.injEq] at hfeed'
  subst hfeed'
  apply (htells feed (.refl feed) i pk).summary_le (hr.2 i pk).1
  · exact (hr'.2 i pk).localCl_nonneg
  · rintro c ⟨hc, rfl, rfl⟩
    exact hknows c hc

theorem knows_of_ignored (hcls : ∀ i, (schema i).algo = .crdtCls) {r : Replica schema} (hr : r.Sound)
    {c : Change n} (hwf : c.WellFormedFor (schema c.tbl))
    (h : (cloudsyncMergeInsert noFaults r c).2.rows c.tbl c.pk = r.rows c.tbl c.pk) : r.Knows c := by
  have hrows := rows_merge hcls hr hwf c.tbl c.pk
  rw [if_pos ⟨rfl, rfl⟩, h] at hrows
  exact CausalRow.merge_eq_self_iff.mp hrows.symm

end Replica
end SqliteSync.Store
