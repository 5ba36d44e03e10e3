import SqliteSync.Causal.DeclaredRun
import SqliteSync.Store.Feed

/-!
# Grow-only tables

Replicas insert rows into a table of the grow-only algorithm and then merge
each other's changes. A merge writes what arrives, so the last change of a cell
decides it, and a change that names no column is refused.
-/
namespace SqliteSync.Store
open Library Clock

section
variable {table : TableContext} {n : ℕ}

def Change.Hits (table : TableContext) (pk : Pk) (col : Fin table.ncols) (c : Change n) : Prop :=
  c.pk = pk ∧ tableColumnLookup table c.name = some col

instance (pk : Pk) (col : Fin table.ncols) (c : Change n) : Decidable (c.Hits table pk col) :=
  inferInstanceAs (Decidable (_ ∧ _))

/-- What a cell holds after changes are written to it one after the other. -/
def lastValue (table : TableContext) (pk : Pk) (col : Fin table.ncols) (D : List (Change n))
    (value : Value) : Value :=
  D.foldl (fun value c => if c.Hits table pk col then c.colValue else value) value

theorem lastValue_of_not_hits {pk : Pk} {col : Fin table.ncols} {D : List (Change n)}
    (h : ∀ c ∈ D, ¬ c.Hits table pk col) (value : Value) :
    lastValue table pk col D value = value := by
  induction D with
  | nil => rfl
  | cons c D ih =>
    rw [lastValue, List.foldl_cons, if_neg (h c List.mem_cons_self)]
    exact ih fun d hd => h d (.tail c hd)

/-- A cell all changes write the same value to holds that value after one of them. -/
theorem lastValue_eq {pk : Pk} {col : Fin table.ncols} {D : List (Change n)} {value : Value}
    (hsame : ∀ c ∈ D, c.Hits table pk col → c.colValue = value) {initial : Value}
    (h : initial = value ∨ ∃ c ∈ D, c.Hits table pk col) :
    lastValue table pk col D initial = value := by
  induction D generalizing initial with
  | nil =>
    rcases h with rfl | ⟨c, hc, _⟩
    · rfl
    · cases hc
  | cons d D ih =>
    rw [lastValue, List.foldl_cons]
    apply ih fun c hc => hsame c (.tail d hc)
    by_cases hd : d.Hits table pk col
    · rw [if_pos hd]
      exact .inl (hsame d List.mem_cons_self hd)
    · rw [if_neg hd]
      rcases h with hinitial | ⟨c, hc, hits⟩
      · exact .inl hinitial
      · rcases List.mem_cons.mp hc with rfl | hc
        · exact absurd hits hd
        · exact .inr ⟨c, hc, hits⟩

theorem lastValue_concat {pk : Pk} {col : Fin table.ncols} (D : List (Change n)) {c : Change n}
    (hits : c.Hits table pk col) (initial : Value) :
    lastValue table pk col (D ++ [c]) initial = c.colValue := by
  rw [lastValue, List.foldl_append, List.foldl_cons, List.foldl_nil, if_pos hits]

end

section
variable {n : ℕ} {schema : Fin n → TableContext} {i : Fin n}

theorem mergeSetWinnerClock_base (r : Replica schema) (i : Fin n) (pk : Pk) (colname : String)
    (colVersion dbVersion : ℤ) (siteId : SiteId) (seq : ℤ) :
    (mergeSetWinnerClock noFaults r i pk colname colVersion dbVersion siteId seq).1 = .ok () ∧
      ((mergeSetWinnerClock noFaults r i pk colname colVersion dbVersion siteId seq).2.table i).base =
        (r.table i).base := by
  simp [mergeSetWinnerClock, stepVersioned, Table.metaWinnerClock]

/-- A merge into a grow-only table writes the value that arrives; it fails
exactly when the change names no column. -/
theorem cloudsyncMergeInsert_gos (r : Replica schema) {c : Change n}
    (hgos : (schema c.tbl).algo = .crdtGos) :
    match tableColumnLookup (schema c.tbl) c.name with
    | some col => (cloudsyncMergeInsert noFaults r c).1 = .ok () ∧
        ((cloudsyncMergeInsert noFaults r c).2.table c.tbl).base =
          ((r.table c.tbl).colMerge c.pk col c.colValue).base
    | none => (cloudsyncMergeInsert noFaults r c).1 ≠ .ok () := by
  rw [cloudsyncMergeInsert, if_pos hgos, cloudsyncMergeInsertGos, mergeInsertCol]
  cases tableColumnLookup (schema c.tbl) c.name with
  | none => simp [Outcome.describe]
  | some col =>
    simp only [hgos, beq_self_eq_true, if_true, stepInsync, stepStmt, noFaults_apply,
      Outcome.andThen_ok]
    generalize hr : ((((r.setEnabled c.tbl false).setInsync true).setTable c.tbl
      ((((r.setEnabled c.tbl false).setInsync true).table c.tbl).colMerge c.pk col
        c.colValue)).setInsync false).setEnabled c.tbl true = r'
    have hbase : (r'.table c.tbl).base = ((r.table c.tbl).colMerge c.pk col c.colValue).base := by
      rw [← hr]
      simp
    have hclock := mergeSetWinnerClock_base r' c.tbl c.pk c.name c.colVersion c.dbVersion c.siteId
      c.seq
    rw [← hbase, ← hclock.2]
    rcases hx : mergeSetWinnerClock noFaults r' c.tbl c.pk c.name c.colVersion c.dbVersion c.siteId
      c.seq with ⟨code, r''⟩
    rw [hx] at hclock
    obtain rfl : code = .ok () := hclock.1
    exact ⟨rfl, rfl⟩

namespace Replica

def Applies (r : Replica schema) : List (Change n) → Prop
  | [] => True
  | c :: D => (cloudsyncMergeInsert noFaults r c).1 = .ok () ∧
      (cloudsyncMergeInsert noFaults r c).2.Applies D

theorem applies_iff (hgos : (schema i).algo = .crdtGos) {D : List (Change n)}
    (hD : ∀ c ∈ D, c.tbl = i) (r : Replica schema) :
    r.Applies D ↔ ∀ c ∈ D, tableColumnLookup (schema i) c.name ≠ none := by
  induction D generalizing r with
  | nil => simp [Applies]
  | cons c D ih =>
    obtain rfl := hD c List.mem_cons_self
    have hmerge := cloudsyncMergeInsert_gos r hgos
    rw [Applies, ih fun d hd => hD d (.tail c hd), List.forall_mem_cons]
    apply and_congr_left'
    cases hcol : tableColumnLookup (schema c.tbl) c.name with
    | none => simpa [hcol] using hmerge
    | some col => simpa [hcol] using (hcol ▸ hmerge :).1

/-- The base rows after a delivery: a row is there if it was or a change names
it, and each cell holds the last value written to it. -/
theorem deliver_base (hgos : (schema i).algo = .crdtGos) {D : List (Change n)}
    (hD : ∀ c ∈ D, c.tbl = i) (hcol : ∀ c ∈ D, tableColumnLookup (schema i) c.name ≠ none)
    (r : Replica schema) (pk : Pk) :
    ((r.deliver D).table i).base.get pk =
      if (r.table i).base.get pk = none ∧ ∀ c ∈ D, c.pk ≠ pk then none
      else some fun col => lastValue (schema i) pk col D
        (((r.table i).base.get pk).getD (schema i).dflt col) := by
  induction D generalizing r with
  | nil =>
    rw [deliver, List.foldl_nil]
    cases (r.table i).base.get pk with
    | none => simp
    | some row =>
      simp [lastValue]
  | cons c D ih =>
    obtain rfl := hD c List.mem_cons_self
    rcases Option.ne_none_iff_exists'.mp (hcol c List.mem_cons_self) with ⟨col, hname⟩
    have hmerge := cloudsyncMergeInsert_gos r hgos
    simp only [hname] at hmerge
    rw [deliver, List.foldl_cons, ← deliver, ih (fun d hd => hD d (.tail c hd))
      (fun d hd => hcol d (.tail c hd)), hmerge.2, Table.colMerge, Keyed.get_upsert]
    by_cases hpk : pk = c.pk
    · subst hpk
      rw [if_pos rfl, if_neg (by simp), if_neg (by simp)]
      congr 1
      funext col'
      rw [lastValue, lastValue, List.foldl_cons]
      congr 1
      by_cases hcol' : col' = col
      · subst hcol'
        rw [if_pos ⟨rfl, hname⟩]
        cases (r.table c.tbl).base.get c.pk <;> simp
      · rw [if_neg fun h => hcol' (Option.some.inj (h.2.symm.trans hname))]
        cases (r.table c.tbl).base.get c.pk <;> simp [hcol']
    · have hmiss : ∀ col', ¬ c.Hits (schema c.tbl) pk col' := fun col' h => hpk h.1.symm
      simp only [if_neg hpk, lastValue, List.foldl_cons, if_neg (hmiss _), List.forall_mem_cons,
        Ne.symm hpk, ne_eq, not_false_eq_true, true_and]

/-- Rows are inserted into table `i`, in any grouping into transactions. -/
def InsertsInto (i : Fin n) (_ : Replica schema) (e : Event schema) : Prop :=
  e = .commit ∨ ∃ orReplace pk row, e = .write i (.insert orReplace pk row)

/-- The rows of `cloudsync_changes`, none when it cannot be read. -/
def feed (r : Replica schema) : List (Change n) :=
  match r.cloudsyncChanges with
  | .ok feed => feed
  | .error _ => []

end Replica

/-- The changes some replicas have to send. -/
def produced (members : List (Replica schema)) : List (Change n) := members.flatMap Replica.feed

/-- Any two members that merge all the changes produced, in any orders and with
any repetition, merge them without an error and end with the same base rows. -/
def GosConverges (i : Fin n) (members : List (Replica schema)) : Prop :=
  ∀ a ∈ members, ∀ b ∈ members, ∀ D E : List (Change n),
    (∀ c, c ∈ D ↔ c ∈ produced members) → (∀ c, c ∈ E ↔ c ∈ produced members) →
    a.Applies D ∧ b.Applies E ∧
      ∀ pk, ((a.deliver D).table i).base.get pk = ((b.deliver E).table i).base.get pk

/-- The members inserted nothing the algorithm cannot settle: only tables with
columns are used, no cell was given two values, and what the feed hides of a
row one member lacks are the defaults of a row it will have. -/
structure GosAgree (i : Fin n) (members : List (Replica schema)) (sent : List (Change n)) :
    Prop where
  columns : (schema i).ncols ≠ 0 ∨ sent = []
  values : ∀ c ∈ sent, ∀ d ∈ sent, c.pk = d.pk → c.name = d.name → c.colValue = d.colValue
  hidden : ∀ a ∈ members, ∀ b ∈ members, ∀ pk row, (a.table i).base.get pk = some row →
    (b.table i).base.get pk = none → (∃ c ∈ sent, c.pk = pk) ∧
      ∀ col, row col = (schema i).dflt col ∨
        ∃ c ∈ sent, c.pk = pk ∧ c.name = (schema i).colName col

/-- A row that was only ever inserted has metadata for every column, or for
itself where it has none. -/
structure RowState.Grown {table : TableContext} (s : RowState table) : Prop where
  named : ∀ name, s.info name ≠ none →
    if table.ncols = 0 then name = CLOUDSYNC_TOMBSTONE_VALUE else ∃ col, name = table.colName col
  present : s.row ≠ none →
    (table.ncols = 0 → s.info CLOUDSYNC_TOMBSTONE_VALUE ≠ none) ∧
      ∀ col, s.info (table.colName col) ≠ none
  row_of_info : ∀ name, s.info name ≠ none → s.row ≠ none

theorem RowState.grown_absent (table : TableContext) : (RowState.absent table).Grown :=
  ⟨fun _ h => absurd rfl h, fun h => absurd rfl h, fun _ h => absurd rfl h⟩

theorem RowState.Grown.inserted {table : TableContext} {s : RowState table} (h : s.Grown)
    (row : Row table) (dbVersion seq₀ : ℤ) (seq : String → ℤ) :
    ((s.setRow (some row)).inserted dbVersion seq₀ seq).Grown := by
  have hcol : ∀ col, ((s.setRow (some row)).inserted dbVersion seq₀ seq).info (table.colName col) ≠
      none := by
    intro col
    rw [RowState.inserted, RowState.markColumns_of_mem _ (List.mem_finRange col)]
    exact Option.some_ne_none _
  have hother : ∀ name, (∀ col, table.colName col ≠ name) →
      ((s.setRow (some row)).inserted dbVersion seq₀ seq).info name =
        (if table.ncols = 0 then (s.setRow (some row)).markAlive dbVersion seq₀
          else (s.setRow (some row)).bumpAlive dbVersion seq₀).info name := by
    intro name hname
    rw [RowState.inserted, RowState.markColumns_of_notMem _ fun col _ => hname col]
  have hsentinel : table.ncols ≠ 0 → s.sentinel = none := by
    intro hn
    by_contra hs
    have := h.named CLOUDSYNC_TOMBSTONE_VALUE hs
    rw [if_neg hn] at this
    rcases this with ⟨col, hcol⟩
    exact colName_ne_tombstone table col hcol.symm
  refine ⟨?_, fun _ => ⟨?_, hcol⟩, ?_⟩
  · intro name hname
    by_cases hn : table.ncols = 0
    · rw [if_pos hn]
      by_contra htomb
      rw [hother name fun col => absurd col.isLt (by omega), if_pos hn, RowState.markAlive,
        RowState.setInfo_info, if_neg htomb] at hname
      have := h.named name hname
      rw [if_pos hn] at this
      exact htomb this
    · rw [if_neg hn]
      by_contra hnot
      rw [hother name fun col hcol => hnot ⟨col, hcol.symm⟩, if_neg hn, RowState.bumpAlive] at hname
      have hs : (s.setRow (some row)).sentinel = none := hsentinel hn
      rw [hs] at hname
      have := h.named name hname
      rw [if_neg hn] at this
      exact hnot this
  · intro hn
    rw [hother _ fun col => absurd col.isLt (by omega), if_pos hn, RowState.markAlive,
      RowState.setInfo_info, if_pos rfl]
    exact Option.some_ne_none _
  · intro name _
    have hrow : ((s.setRow (some row)).inserted dbVersion seq₀ seq).row = some row := by
      rw [RowState.inserted]
      split_ifs <;> simp
    rw [hrow]
    exact Option.some_ne_none row

/-- What inserts into one table leave: every other table is empty. -/
structure Replica.Grows (r : Replica schema) (i : Fin n) : Prop where
  insync : r.data.insync = false
  enabled : r.enabled i = true
  others : ∀ j ≠ i, r.table j = Table.empty (schema j)
  rows : ∀ pk, (r.rows i pk).Grown

theorem Replica.Reached.grows {r : Replica schema}
    (h : Replica.Reached schema (Replica.InsertsInto i) r) : r.Grows i := by
  refine Reachable.invariant (I := fun r : Replica schema => r.Grows i) ?_ ?_ h
  · rintro s ⟨site, rfl⟩
    exact ⟨rfl, rfl, fun j _ => rfl, fun pk => RowState.grown_absent (schema i)⟩
  · rintro s e t hs (rfl | ⟨orReplace, pk, row, rfl⟩) ht
    · cases ht
      exact ⟨hs.insync, hs.enabled, hs.others, hs.rows⟩
    · have hsync : ∀ u, (s.setTable i u).cloudsyncIsSync i = false := by
        intro u
        have hen : (s.setTable i u).enabled i = s.enabled i := rfl
        simp [Replica.cloudsyncIsSync, hs.insync, hen, hs.enabled]
      rcases applyRowChange_insert hsync ht with ⟨_, seq₁, seq, _, _, hholds⟩
      refine ⟨hholds.clocked.insync hs.insync, ?_, ?_, ?_⟩
      · rw [hholds.clocked.enabled]
        exact hs.enabled
      · intro j hj
        rw [hholds.tables j hj]
        exact hs.others j hj
      · intro pk'
        rw [Replica.rows, hholds.rowAt, Function.update_apply]
        split_ifs with hpk
        · exact (hs.rows pk).inserted row _ seq₁ seq
        · exact hs.rows pk'

namespace Replica.Grows
variable {r : Replica schema}

theorem named (h : r.Grows i) (j : Fin n) (pk : Pk) : ((r.table j).rowAt pk).Named := by
  intro name hname
  by_cases hj : j = i
  · subst hj
    have := (h.rows pk).named name hname
    split_ifs at this with hn
    · exact .inl this
    · exact .inr this
  · rw [h.others j hj] at hname
    exact absurd rfl hname

theorem mem_feed_iff (h : r.Grows i) (c : Change n) :
    c ∈ r.feed ↔ c.colValue ≠ CLOUDSYNC_RLS_RESTRICTED_VALUE ∧
      ∃ j k m, (r.table j).metadata.get k = some m ∧ c = r.changeOf j k m (r.feedValue j k) := by
  rcases cloudsyncChanges_ok h.named with ⟨feed, hfeed, hmem⟩
  rw [Replica.feed, hfeed]
  exact hmem c

theorem name_of_mem_feed (h : r.Grows i) {c : Change n} (hc : c ∈ r.feed) :
    c.tbl = i ∧ if (schema i).ncols = 0 then c.name = CLOUDSYNC_TOMBSTONE_VALUE
      else ∃ col, c.name = (schema i).colName col := by
  rcases (h.mem_feed_iff c).mp hc with ⟨_, j, k, m, hget, rfl⟩
  by_cases hj : j = i
  · subst hj
    exact ⟨rfl, (h.rows k.1).named k.2 fun hnone => Option.some_ne_none m (hget.symm.trans hnone)⟩
  · rw [h.others j hj] at hget
    cases hget

theorem exists_mem_feed (h : r.Grows i) {pk : Pk} {row : Row (schema i)}
    (hrow : (r.table i).base.get pk = some row) {col : Fin (schema i).ncols}
    (hvalue : row col ≠ CLOUDSYNC_RLS_RESTRICTED_VALUE) :
    ∃ c ∈ r.feed, c.pk = pk ∧ c.name = (schema i).colName col := by
  have hinfo := ((h.rows pk).present ((Option.some_ne_none row) ∘ (hrow.symm.trans ·))).2 col
  rcases Option.ne_none_iff_exists'.mp hinfo with ⟨m, hm⟩
  have hget : (r.table i).metadata.get (pk, (schema i).colName col) = some m := hm
  have hfeed : r.feedValue i (pk, (schema i).colName col) = row col := by
    rw [Replica.feedValue, Table.cloudsyncColValue, if_neg (colName_ne_tombstone (schema i) col),
      tableColumnLookup_colName]
    simp [Table.colValue, hrow]
  refine ⟨r.changeOf i (pk, (schema i).colName col) m (row col), ?_, rfl, rfl⟩
  exact (h.mem_feed_iff _).mpr ⟨hvalue, i, _, m, hget, by rw [hfeed]⟩

end Replica.Grows

section
variable {members : List (Replica schema)}

theorem exists_member_of_mem_produced {c : Change n} (hc : c ∈ produced members) :
    ∃ r ∈ members, c ∈ r.feed := List.mem_flatMap.mp hc

theorem mem_produced {r : Replica schema} (hr : r ∈ members) {c : Change n} (hc : c ∈ r.feed) :
    c ∈ produced members := List.mem_flatMap.mpr ⟨r, hr, hc⟩

theorem GosConverges.columns (hgrows : ∀ r ∈ members, r.Grows i)
    (hgos : (schema i).algo = .crdtGos) (h : GosConverges i members) :
    (schema i).ncols ≠ 0 ∨ produced members = [] := by
  by_contra hnot
  rw [not_or, not_not] at hnot
  rcases hnot with ⟨hn, hne⟩
  rcases List.exists_mem_of_ne_nil _ hne with ⟨c, hc⟩
  rcases exists_member_of_mem_produced hc with ⟨r, hr, hfeed⟩
  have happlies := (h r hr r hr _ _ (fun _ => Iff.rfl) (fun _ => Iff.rfl)).1
  have htbl : ∀ d ∈ produced members, d.tbl = i := by
    intro d hd
    rcases exists_member_of_mem_produced hd with ⟨q, hq, hdq⟩
    exact ((hgrows q hq).name_of_mem_feed hdq).1
  apply (Replica.applies_iff hgos htbl r).mp happlies c hc
  rw [tableColumnLookup, List.find?_eq_none]
  intro col
  exact absurd col.isLt (by omega)

theorem tbl_of_mem_produced (hgrows : ∀ r ∈ members, r.Grows i) {c : Change n}
    (hc : c ∈ produced members) : c.tbl = i := by
  rcases exists_member_of_mem_produced hc with ⟨r, hr, hfeed⟩
  exact ((hgrows r hr).name_of_mem_feed hfeed).1

theorem colName_of_mem_produced (hgrows : ∀ r ∈ members, r.Grows i)
    (hcolumns : (schema i).ncols ≠ 0 ∨ produced members = []) {c : Change n}
    (hc : c ∈ produced members) : ∃ col, c.name = (schema i).colName col := by
  rcases exists_member_of_mem_produced hc with ⟨r, hr, hfeed⟩
  have hname := ((hgrows r hr).name_of_mem_feed hfeed).2
  rcases hcolumns with hn | hnil
  · rwa [if_neg hn] at hname
  · rw [hnil] at hc
    cases hc

theorem Change.hits_iff {table : TableContext} {c : Change n} (hname : ∃ col, c.name = table.colName col)
    (pk : Pk) (col : Fin table.ncols) :
    c.Hits table pk col ↔ c.pk = pk ∧ c.name = table.colName col := by
  rcases hname with ⟨col', hname⟩
  rw [Change.Hits, hname, tableColumnLookup_colName, Option.some.injEq,
    table.colName_injective.eq_iff]

theorem base_of_merged (hgrows : ∀ r ∈ members, r.Grows i) (hgos : (schema i).algo = .crdtGos)
    (hcolumns : (schema i).ncols ≠ 0 ∨ produced members = []) {D : List (Change n)}
    (hD : ∀ c, c ∈ D ↔ c ∈ produced members) (r : Replica schema) (pk : Pk) :
    r.Applies D ∧ ((r.deliver D).table i).base.get pk =
      if (r.table i).base.get pk = none ∧ ∀ c ∈ D, c.pk ≠ pk then none
      else some fun col => lastValue (schema i) pk col D
        (((r.table i).base.get pk).getD (schema i).dflt col) := by
  have htbl : ∀ c ∈ D, c.tbl = i := fun c hc => tbl_of_mem_produced hgrows ((hD c).mp hc)
  have hcol : ∀ c ∈ D, tableColumnLookup (schema i) c.name ≠ none := by
    intro c hc
    rcases colName_of_mem_produced hgrows hcolumns ((hD c).mp hc) with ⟨col, hname⟩
    rw [hname, tableColumnLookup_colName]
    exact Option.some_ne_none col
  exact ⟨(Replica.applies_iff hgos htbl r).mpr hcol, Replica.deliver_base hgos htbl hcol r pk⟩

/-- Two changes of one cell carry the same value, or two orders disagree on it. -/
theorem GosConverges.values (hgrows : ∀ r ∈ members, r.Grows i)
    (hgos : (schema i).algo = .crdtGos) (h : GosConverges i members) :
    ∀ c ∈ produced members, ∀ d ∈ produced members, c.pk = d.pk → c.name = d.name →
      c.colValue = d.colValue := by
  intro c hc d hd hpk hname
  have hcolumns := h.columns hgrows hgos
  rcases exists_member_of_mem_produced hc with ⟨r, hr, _⟩
  rcases colName_of_mem_produced hgrows hcolumns hc with ⟨col, hcol⟩
  have hmem : ∀ e ∈ produced members, ∀ x, x ∈ produced members ++ [e] ↔ x ∈ produced members := by
    intro e he x
    simp only [List.mem_append, List.mem_singleton, or_iff_left_iff_imp]
    rintro rfl
    exact he
  have hbase := (h r hr r hr _ _ (hmem c hc) (hmem d hd)).2.2 c.pk
  rw [(base_of_merged hgrows hgos hcolumns (hmem c hc) r c.pk).2,
    (base_of_merged hgrows hgos hcolumns (hmem d hd) r c.pk).2,
    if_neg fun hno => hno.2 c (List.mem_append_left _ hc) rfl,
    if_neg fun hno => hno.2 c (List.mem_append_left _ hc) rfl, Option.some.injEq] at hbase
  have hcell := congrFun hbase col
  rwa [lastValue_concat _ ((Change.hits_iff ⟨col, hcol⟩ _ _).mpr ⟨rfl, hcol⟩),
    lastValue_concat _ ((Change.hits_iff ⟨col, hname ▸ hcol⟩ _ _).mpr ⟨hpk.symm, hname ▸ hcol⟩)]
    at hcell

/-- A row only one of two members inserted is completed by the changes, or by the defaults. -/
theorem GosConverges.hidden (hgrows : ∀ r ∈ members, r.Grows i)
    (hgos : (schema i).algo = .crdtGos) (h : GosConverges i members) :
    ∀ a ∈ members, ∀ b ∈ members, ∀ pk row, (a.table i).base.get pk = some row →
      (b.table i).base.get pk = none → (∃ c ∈ produced members, c.pk = pk) ∧
        ∀ col, row col = (schema i).dflt col ∨
          ∃ c ∈ produced members, c.pk = pk ∧ c.name = (schema i).colName col := by
  intro a ha b hb pk row hrow hnone
  have hcolumns := h.columns hgrows hgos
  have hbase := (h a ha b hb _ _ (fun _ => Iff.rfl) (fun _ => Iff.rfl)).2.2 pk
  rw [(base_of_merged hgrows hgos hcolumns (fun _ => Iff.rfl) a pk).2,
    (base_of_merged hgrows hgos hcolumns (fun _ => Iff.rfl) b pk).2, hrow, hnone,
    if_neg fun hno => Option.some_ne_none row hno.1] at hbase
  have hexists : ∃ c ∈ produced members, c.pk = pk := by
    by_contra hno
    rw [if_pos ⟨rfl, fun c hc hpk => hno ⟨c, hc, hpk⟩⟩] at hbase
    cases hbase
  refine ⟨hexists, fun col => ?_⟩
  rw [or_iff_not_imp_right]
  intro hno
  have hmiss : ∀ c ∈ produced members, ¬ c.Hits (schema i) pk col := by
    intro c hc hits
    exact hno ⟨c, hc,
      (Change.hits_iff (colName_of_mem_produced hgrows hcolumns hc) pk col).mp hits⟩
  rcases hexists with ⟨c, hc, hpk⟩
  rw [if_neg fun hno => hno.2 c hc hpk, Option.some.injEq] at hbase
  have hcell := congrFun hbase col
  rwa [lastValue_of_not_hits hmiss, lastValue_of_not_hits hmiss] at hcell

/-- With the conditions, the base rows of any two members are the same after all the changes. -/
theorem GosAgree.converges (hgrows : ∀ r ∈ members, r.Grows i)
    (hgos : (schema i).algo = .crdtGos) (h : GosAgree i members (produced members)) :
    GosConverges i members := by
  intro a ha b hb D E hD hE
  have hname : ∀ c ∈ produced members, ∃ col, c.name = (schema i).colName col :=
    fun c hc => colName_of_mem_produced hgrows h.columns hc
  refine ⟨(base_of_merged hgrows hgos h.columns hD a []).1,
    (base_of_merged hgrows hgos h.columns hE b []).1, fun pk => ?_⟩
  rw [(base_of_merged hgrows hgos h.columns hD a pk).2,
    (base_of_merged hgrows hgos h.columns hE b pk).2]
  have hrows : ((a.table i).base.get pk = none ∧ ∀ c ∈ D, c.pk ≠ pk) ↔
      ((b.table i).base.get pk = none ∧ ∀ c ∈ E, c.pk ≠ pk) := by
    simp only [hD, hE]
    constructor
    · rintro ⟨hnone, hno⟩
      refine ⟨?_, hno⟩
      by_contra hb'
      rcases Option.ne_none_iff_exists'.mp hb' with ⟨row, hrow⟩
      rcases (h.hidden b hb a ha pk row hrow hnone).1 with ⟨c, hc, hpk⟩
      exact hno c hc hpk
    · rintro ⟨hnone, hno⟩
      refine ⟨?_, hno⟩
      by_contra ha'
      rcases Option.ne_none_iff_exists'.mp ha' with ⟨row, hrow⟩
      rcases (h.hidden a ha b hb pk row hrow hnone).1 with ⟨c, hc, hpk⟩
      exact hno c hc hpk
  by_cases hnone : (a.table i).base.get pk = none ∧ ∀ c ∈ D, c.pk ≠ pk
  · rw [if_pos hnone, if_pos (hrows.mp hnone)]
  rw [if_neg hnone, if_neg fun h => hnone (hrows.mpr h)]
  congr 1
  funext col
  by_cases hcell : ∃ c ∈ produced members, c.pk = pk ∧ c.name = (schema i).colName col
  · -- some change names the cell, and they all carry its value
    rcases hcell with ⟨c, hc, hpk, hcol⟩
    have hsame : ∀ d ∈ produced members, d.Hits (schema i) pk col → d.colValue = c.colValue := by
      intro d hd hits
      rcases (Change.hits_iff (hname d hd) pk col).mp hits with ⟨hdpk, hdcol⟩
      exact h.values d hd c hc (hdpk.trans hpk.symm) (hdcol.trans hcol.symm)
    have hits := (Change.hits_iff (hname c hc) pk col).mpr ⟨hpk, hcol⟩
    rw [lastValue_eq (fun d hd => hsame d ((hD d).mp hd)) (.inr ⟨c, (hD c).mpr hc, hits⟩),
      lastValue_eq (fun d hd => hsame d ((hE d).mp hd)) (.inr ⟨c, (hE c).mpr hc, hits⟩)]
  · -- no change names it, and both members hold the marker or the default
    have hmiss : ∀ c ∈ produced members, ¬ c.Hits (schema i) pk col := fun c hc hits =>
      hcell ⟨c, hc, (Change.hits_iff (hname c hc) pk col).mp hits⟩
    have hmarker : ∀ r ∈ members, ∀ row, (r.table i).base.get pk = some row →
        row col = CLOUDSYNC_RLS_RESTRICTED_VALUE := by
      intro r hr row hrow
      by_contra hvalue
      rcases (hgrows r hr).exists_mem_feed hrow hvalue with ⟨c, hc, hpk⟩
      exact hcell ⟨c, mem_produced hr hc, hpk⟩
    rw [lastValue_of_not_hits fun c hc => hmiss c ((hD c).mp hc),
      lastValue_of_not_hits fun c hc => hmiss c ((hE c).mp hc)]
    cases ha' : (a.table i).base.get pk with
    | none =>
      cases hb' : (b.table i).base.get pk with
      | none => rfl
      | some row =>
        exact ((h.hidden b hb a ha pk row hb' ha').2 col |>.resolve_right hcell).symm
    | some row =>
      cases hb' : (b.table i).base.get pk with
      | none => exact (h.hidden a ha b hb pk row ha' hb').2 col |>.resolve_right hcell
      | some row' => exact (hmarker a ha row ha').trans (hmarker b hb row' hb').symm

/-- Replicas that inserted into a grow-only table converge exactly when they
inserted nothing it cannot settle. -/
theorem gosConverges_iff (hgos : (schema i).algo = .crdtGos)
    (hmembers : ∀ r ∈ members, Replica.Reached schema (Replica.InsertsInto i) r) :
    GosConverges i members ↔ GosAgree i members (produced members) := by
  have hgrows : ∀ r ∈ members, r.Grows i := fun r hr => (hmembers r hr).grows
  constructor
  · intro h
    exact ⟨h.columns hgrows hgos, h.values hgrows hgos, h.hidden hgrows hgos⟩
  · exact GosAgree.converges hgrows hgos

end

/-- A grow-only table with one column `v` besides its key. -/
def gosColumn : TableContext := { singleColumn with algo := .crdtGos }

def insertedAt (site : SiteId) (pk v : ℤ) : Replica fun _ : Fin 1 => gosColumn :=
  let r : Replica fun _ : Fin 1 => gosColumn := Replica.empty _ site
  cloudsyncInsert (r.setTable 0 ((r.table 0).insertBase [.integer pk] fun _ => .integer v)) 0
    [.integer pk]

theorem reached_insertedAt (site : SiteId) (pk v : ℤ) :
    Replica.Reached (fun _ : Fin 1 => gosColumn) (Replica.InsertsInto 0) (insertedAt site pk v) :=
  .next (.start ⟨site, rfl⟩)
    (.write 0 (.insert false [.integer pk] fun _ => .integer v))
    (.inr ⟨false, [.integer pk], fun _ => .integer v, rfl⟩) rfl

/-- Two sites that insert one key with different values end apart when the
changes reach them in different orders. -/
theorem not_gosConverges : ¬ ∀ (n : ℕ) (schema : Fin n → TableContext) (i : Fin n)
    (members : List (Replica schema)), (schema i).algo = .crdtGos →
    (∀ r ∈ members, Replica.Reached schema (Replica.InsertsInto i) r) →
      GosConverges i members := by
  intro h
  have hmembers : ∀ r ∈ [insertedAt [1] 1 10, insertedAt [2] 1 20],
      Replica.Reached (fun _ : Fin 1 => gosColumn) (Replica.InsertsInto 0) r := by
    intro r hr
    rcases List.mem_pair.mp hr with rfl | rfl
    · exact reached_insertedAt [1] 1 10
    · exact reached_insertedAt [2] 1 20
  have hbase := (h 1 (fun _ => gosColumn) 0 [insertedAt [1] 1 10, insertedAt [2] 1 20] rfl hmembers
    _ List.mem_cons_self _ (.tail _ List.mem_cons_self)
    (produced [insertedAt [1] 1 10, insertedAt [2] 1 20])
    (produced [insertedAt [1] 1 10, insertedAt [2] 1 20]).reverse
    (fun _ => Iff.rfl) (fun _ => List.mem_reverse)).2.2 [.integer 1]
  have hcell := congrArg (Option.map fun row => row ⟨0, Nat.one_pos⟩) hbase
  exact absurd hcell (by decide)

end

/-! ## Declared tables -/

namespace Declared
variable {n : ℕ} {schema : Fin n → TableContext} {decl : (i : Fin n) → Declaration (schema i)}
  {cells : (i : Fin n) → Cells (schema i)} {i : Fin n}

section
variable (decl : (i : Fin n) → Declaration (schema i))

/-- The changes some replicas of declared tables have to send. -/
def produced (members : List (Replica schema)) : List (Change n) :=
  members.flatMap fun r => ((cloudsyncChanges decl r).toOption).getD []

def Applies (r : Replica schema) : List (Change n) → Prop
  | [] => True
  | c :: D => (cloudsyncMergeInsert decl noFaults r c).1 = .ok () ∧
      Applies (cloudsyncMergeInsert decl noFaults r c).2 D

/-- `Replica.GosConverges` for members with declared tables. -/
def GosConverges (i : Fin n) (members : List (Replica schema)) : Prop :=
  ∀ a ∈ members, ∀ b ∈ members, ∀ D E : List (Change n),
    (∀ c, c ∈ D ↔ c ∈ produced decl members) → (∀ c, c ∈ E ↔ c ∈ produced decl members) →
    Applies decl a D ∧ Applies decl b E ∧
      ∀ pk, ((deliver decl a D).table i).base.get pk = ((deliver decl b E).table i).base.get pk

end

theorem applies_iff (hplain : ∀ i, (decl i).Plain (cells i)) {r : Replica schema}
    (hr : r.Within cells) {D : List (Change n)} (hD : ∀ c ∈ D, c.Within (cells c.tbl)) :
    Applies decl r D ↔ r.Applies D := by
  induction D generalizing r with
  | nil => exact Iff.rfl
  | cons c D ih =>
    have hc := hD c List.mem_cons_self
    have hrest := hr.of_ran hplain hc (cloudsyncMergeInsert_ran noFaults r c)
    rw [Applies, Replica.Applies, cloudsyncMergeInsert_eq hplain noFaults hr hc,
      ih hrest fun d hd => hD d (.tail c hd)]

theorem produced_eq (hplain : ∀ i, (decl i).Plain (cells i)) {members : List (Replica schema)}
    (hmembers : ∀ r ∈ members, r.Within cells) :
    produced decl members = Store.produced members := by
  rw [produced, Store.produced, List.flatMap_def, List.flatMap_def]
  congr 1
  apply List.map_congr_left
  intro r hr
  rw [cloudsyncChanges_eq hplain (hmembers r hr), Replica.feed]
  cases r.cloudsyncChanges <;> rfl

theorem within_of_mem_produced {members : List (Replica schema)}
    (hmembers : ∀ r ∈ members, r.Within cells ∧ r.Grows i) {c : Change n}
    (hc : c ∈ Store.produced members) : c.Within (cells c.tbl) := by
  rcases exists_member_of_mem_produced hc with ⟨r, hr, hfeed⟩
  rcases hmembers r hr with ⟨hwithin, hgrows⟩
  rcases hgrows.name_of_mem_feed hfeed with ⟨rfl, hname⟩
  rw [Replica.feed] at hfeed
  cases hchanges : r.cloudsyncChanges with
  | error err => simp [hchanges] at hfeed
  | ok feed =>
    rw [hchanges] at hfeed
    by_cases hn : (schema c.tbl).ncols = 0
    · refine ⟨(hwithin c.tbl).metadata _ (cell_of_feed hchanges hfeed).1, fun _ col => ?_⟩
      exact absurd col.isLt (by omega)
    · rw [if_neg hn] at hname
      rcases hname with ⟨col, hname⟩
      exact hwithin.feed hchanges hfeed fun _ => hname ▸ colName_ne_tombstone (schema c.tbl) col

/-- Replicas that inserted into a grow-only table keys and values it takes as they
are converge exactly when they inserted nothing it cannot settle. -/
theorem gosConverges_iff_agree (hgos : (schema i).algo = .crdtGos)
    (hplain : ∀ i, (decl i).Plain (cells i)) {members : List (Replica schema)}
    (hmembers : ∀ r ∈ members,
      Reached decl (fun r e => e.Within cells ∧ Replica.InsertsInto i r e) r) :
    GosConverges decl i members ↔ GosAgree i members (produced decl members) := by
  have hreached : ∀ r ∈ members, r.Within cells ∧ Replica.Reached schema (Replica.InsertsInto i) r :=
   
    fun r hr => reached_of_within hplain (hmembers r hr)
  have hproduced := produced_eq hplain fun r hr => (hreached r hr).1
  have hsent : ∀ D : List (Change n), (∀ c, c ∈ D ↔ c ∈ Store.produced members) →
      ∀ c ∈ D, c.Within (cells c.tbl) := by
    intro D hD c hc
    exact within_of_mem_produced (fun r hr => ⟨(hreached r hr).1, (hreached r hr).2.grows⟩)
      ((hD c).mp hc)
  rw [hproduced, ← gosConverges_iff hgos fun r hr => (hreached r hr).2]
  have hsame : ∀ a ∈ members, ∀ D : List (Change n), (∀ c, c ∈ D ↔ c ∈ Store.produced members) →
      (Applies decl a D ↔ a.Applies D) ∧ deliver decl a D = a.deliver D := by
    intro a ha D hD
    exact ⟨applies_iff hplain (hreached a ha).1 (hsent D hD),
      deliver_eq hplain (hreached a ha).1 (hsent D hD)⟩
  rw [GosConverges, Store.GosConverges, hproduced]
  refine forall₂_congr fun a ha => forall₂_congr fun b hb => forall₂_congr fun D E =>
    forall₂_congr fun hD hE => ?_
  rw [(hsame a ha D hD).1, (hsame a ha D hD).2, (hsame b hb E hE).1, (hsame b hb E hE).2]

theorem reached_insertedAt_plain (site : SiteId) (pk v : ℤ) :
    Reached (fun _ : Fin 1 => .plain (.unconstrained gosColumn))
      (fun r e => e.Within (fun _ => ⟨fun _ => True, fun _ _ _ => True⟩) ∧ Replica.InsertsInto 0 r e)
      (insertedAt site pk v) :=
  .next (.start ⟨site, rfl⟩)
    (.write 0 (.insert false [.integer pk] fun _ => .integer v))
    ⟨⟨trivial, fun _ => trivial⟩, .inr ⟨false, [.integer pk], fun _ => .integer v, rfl⟩⟩ rfl

def rowEach : List (Replica fun _ : Fin 1 => gosColumn) := [insertedAt [1] 1 10, insertedAt [2] 2 20]

theorem gosConverges_iff_agree_rowEach :
    GosConverges (fun _ => .plain (.unconstrained gosColumn)) 0 rowEach := by
  have hsent : ∀ a ∈ rowEach, ∀ r ∈ (a.table 0).base.rows,
      (∃ c ∈ produced (fun _ => .plain (.unconstrained gosColumn)) rowEach, c.pk = r.1) ∧
        ∀ col, ∃ c ∈ produced (fun _ => .plain (.unconstrained gosColumn)) rowEach,
          c.pk = r.1 ∧ c.name = gosColumn.colName col := by
    decide
  refine (gosConverges_iff_agree rfl (fun _ => .unconstrained gosColumn) fun r hr => ?_).mpr
    ⟨.inl (by decide), by decide, fun a ha b hb pk row hrow _ => ?_⟩
  · rcases List.mem_pair.mp hr with rfl | rfl
    · exact reached_insertedAt_plain [1] 1 10
    · exact reached_insertedAt_plain [2] 2 20
  · have h := hsent a ha (pk, row) ((Keyed.get_eq_some_iff _ pk row).mp hrow)
    exact ⟨h.1, fun col => .inr (h.2 col)⟩

end Declared
end SqliteSync.Store
