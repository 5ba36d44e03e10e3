import SqliteSync.Library.Traverse
import SqliteSync.Store.Merge
import SqliteSync.Store.RowState

/-!
# The feed of changes

`cloudsync_changes` read as a table: every metadata row of every table, with
the value its column has now and the causal length of its row. The order of the
rows is left to the `ORDER BY` of the reader.
-/
namespace SqliteSync.Store
open Library

namespace Table
variable {table : TableContext} (t : Table table)

def cloudsyncColValue (colName : String) (pk : Pk) : Except String Value :=
  if colName = CLOUDSYNC_TOMBSTONE_VALUE then .ok .null
  else
    match tableColumnLookup table colName with
    | none => .error "Unable to retrieve column value precompiled statement in clousdsync_colvalue."
    | some col => .ok ((t.colValue pk col).getD CLOUDSYNC_RLS_RESTRICTED_VALUE)

/-- `COALESCE(t2.col_version, 1)`, where `t2` is the tombstone of the row. -/
def feedCl (pk : Pk) : ℤ := (t.metaColVersion pk CLOUDSYNC_TOMBSTONE_VALUE).getD 1

end Table

namespace Replica
variable {n : ℕ} {schema : Fin n → TableContext} (r : Replica schema) (i : Fin n)

/-- The site of a rowid, by the join with `cloudsync_site_id`. -/
def siteOf (siteId : ℕ) : SiteId := r.siteIds.getD siteId []

def changeOf (k : Pk × String) (m : MetaRow) (value : Value) : Change n where
  tbl := i
  pk := k.1
  colName := some k.2
  colValue := value
  colVersion := m.colVersion
  dbVersion := m.dbVersion
  siteId := r.siteOf m.siteId
  cl := (r.table i).feedCl k.1
  seq := m.seq

/-- The `SELECT` of one table: a value that cannot be read ends it, a row the
user may not see is left out. -/
def tableChanges : Except String (List (Change n)) :=
  ((r.table i).metadata.rows.mapM fun row =>
    ((r.table i).cloudsyncColValue row.1.2 row.1.1).map (r.changeOf i row.1 row.2)).map
      (List.filter fun c => c.colValue ≠ CLOUDSYNC_RLS_RESTRICTED_VALUE)

/-- `build_changes_sql`, run without a filter. -/
def cloudsyncChanges : Except String (List (Change n)) :=
  ((List.finRange n).mapM r.tableChanges).map List.flatten

end Replica

section
variable {n : ℕ} {schema : Fin n → TableContext}

/-- A row knows its names when they are the tombstone and columns of its table. -/
def RowState.Named {table : TableContext} (s : RowState table) : Prop :=
  ∀ name, s.info name ≠ none → name = CLOUDSYNC_TOMBSTONE_VALUE ∨ ∃ col, name = table.colName col

/-- What a row sends of one of its names: its version, the causal length of the
row, and the value of the column. -/
structure RowState.Sends {table : TableContext} (s : RowState table) (c : Change n) : Prop where
  version : ∃ m, s.info c.name = some m ∧ c.colVersion = m.colVersion ∧ c.dbVersion = m.dbVersion
  cl : c.cl = s.localCl
  value : ∀ col, c.name = table.colName col → ∃ row, s.row = some row ∧ c.colValue = row col

variable {r : Replica schema}

theorem localCl_eq_feedCl (i : Fin n) {pk : Pk} {name : String} {m : MetaRow}
    (hm : (r.table i).metadata.get (pk, name) = some m) :
    (r.table i).feedCl pk = ((r.table i).rowAt pk).localCl := by
  rw [Table.feedCl, Table.metaColVersion]
  have hinfo : ((r.table i).rowAt pk).info name ≠ none :=
    fun h => Option.some_ne_none m (hm.symm.trans h)
  change (((r.table i).rowAt pk).sentinel.map MetaRow.colVersion).getD 1 = _
  cases hs : ((r.table i).rowAt pk).sentinel with
  | some s =>
    rw [RowState.localCl_of_sentinel hs]
    rfl
  | none =>
    rw [RowState.localCl_of_info hs hinfo]
    rfl

def Replica.feedValue (r : Replica schema) (i : Fin n) (k : Pk × String) : Value :=
  match (r.table i).cloudsyncColValue k.2 k.1 with
  | .ok value => value
  | .error _ => .null

theorem cloudsyncColValue_ok {i : Fin n} {k : Pk × String}
    (h : k.2 = CLOUDSYNC_TOMBSTONE_VALUE ∨ ∃ col, k.2 = (schema i).colName col) :
    (r.table i).cloudsyncColValue k.2 k.1 = .ok (r.feedValue i k) := by
  rw [Replica.feedValue]
  rcases h with h | ⟨col, h⟩
  · rw [Table.cloudsyncColValue, if_pos h]
  · rw [Table.cloudsyncColValue, if_neg (h ▸ colName_ne_tombstone (schema i) col), h,
      tableColumnLookup_colName]

/-- When every name is known the feed can be read, and has one change for each
metadata row that is not hidden. -/
theorem cloudsyncChanges_ok (hnamed : ∀ i pk, ((r.table i).rowAt pk).Named) :
    ∃ feed, r.cloudsyncChanges = .ok feed ∧ ∀ c, c ∈ feed ↔
      c.colValue ≠ CLOUDSYNC_RLS_RESTRICTED_VALUE ∧
        ∃ i k m, (r.table i).metadata.get k = some m ∧ c = r.changeOf i k m (r.feedValue i k) := by
  have htable : ∀ i, r.tableChanges i = .ok (((r.table i).metadata.rows.map fun row =>
      r.changeOf i row.1 row.2 (r.feedValue i row.1)).filter
        fun c => c.colValue ≠ CLOUDSYNC_RLS_RESTRICTED_VALUE) := by
    intro i
    rw [Replica.tableChanges, mapM_except_ok (g := fun row =>
      r.changeOf i row.1 row.2 (r.feedValue i row.1))]
    · rfl
    · rintro ⟨k, m⟩ hk
      have hget := (Keyed.get_eq_some_iff (r.table i).metadata k m).mpr hk
      rw [cloudsyncColValue_ok (hnamed i k.1 k.2 fun h => Option.some_ne_none m (hget.symm.trans h))]
      rfl
  refine ⟨_, congrArg (Except.map List.flatten) (mapM_except_ok fun i _ => htable i), fun c => ?_⟩
  simp only [List.mem_flatten, List.mem_map, List.mem_finRange, true_and, exists_exists_eq_and,
    List.mem_filter, decide_eq_true_eq]
  constructor
  · rintro ⟨i, ⟨⟨k, m⟩, hk, rfl⟩, hvalue⟩
    exact ⟨hvalue, i, k, m, (Keyed.get_eq_some_iff _ k m).mpr hk, rfl⟩
  · rintro ⟨hvalue, i, k, m, hk, rfl⟩
    exact ⟨i, ⟨(k, m), (Keyed.get_eq_some_iff _ k m).mp hk, rfl⟩, hvalue⟩

theorem changeOf_sends {i : Fin n} {k : Pk × String} {m : MetaRow}
    (hget : (r.table i).metadata.get k = some m)
    (hrow : ∀ col, k.2 = (schema i).colName col → (r.table i).base.get k.1 ≠ none) :
    ((r.table i).rowAt k.1).Sends (r.changeOf i k m (r.feedValue i k)) where
  version := ⟨m, hget, rfl, rfl⟩
  cl := localCl_eq_feedCl i (show (r.table i).metadata.get (k.1, k.2) = some m from hget)
  value col hcol := by
    have hname : k.2 = (schema i).colName col := hcol
    rcases Option.ne_none_iff_exists'.mp (hrow col hname) with ⟨row, hbase⟩
    refine ⟨row, hbase, ?_⟩
    have hok := cloudsyncColValue_ok (r := r) (i := i) (k := k) (.inr ⟨col, hname⟩)
    rw [Table.cloudsyncColValue, if_neg (hname ▸ colName_ne_tombstone (schema i) col), hname,
      tableColumnLookup_colName] at hok
    simp only [Table.colValue, hbase, Option.map_some, Option.getD_some, Except.ok.injEq] at hok
    exact hok.symm

/-- A row of the feed is one of the metadata, and carries the value of its cell or is
a tombstone. -/
theorem cell_of_feed {feed : List (Change n)} (hfeed : r.cloudsyncChanges = .ok feed) {c : Change n}
    (hc : c ∈ feed) : (r.table c.tbl).metadata.get (c.pk, c.name) ≠ none ∧
      (c.name = CLOUDSYNC_TOMBSTONE_VALUE ∨
        ∃ col, tableColumnLookup (schema c.tbl) c.name = some col ∧
          (r.table c.tbl).colValue c.pk col = some c.colValue) := by
  rw [Replica.cloudsyncChanges, map_eq_ok_iff] at hfeed
  rcases hfeed with ⟨tables, htables, rfl⟩
  rcases List.mem_flatten.mp hc with ⟨changes, hchanges, hc⟩
  rcases exists_of_forall₂ (forall₂_of_mapM htables) changes hchanges with ⟨i, -, htable⟩
  rw [Replica.tableChanges, map_eq_ok_iff] at htable
  rcases htable with ⟨rows, hrows, rfl⟩
  rcases List.mem_filter.mp hc with ⟨hc, hshown⟩
  rcases exists_of_forall₂ (forall₂_of_mapM hrows) c hc with ⟨⟨k, m⟩, hk, hvalue⟩
  rw [map_eq_ok_iff] at hvalue
  rcases hvalue with ⟨value, hvalue, rfl⟩
  have hget := (Keyed.get_eq_some_iff _ k m).mpr hk
  refine ⟨fun hnone => Option.some_ne_none m (hget.symm.trans hnone), ?_⟩
  rw [Table.cloudsyncColValue] at hvalue
  change k.2 = CLOUDSYNC_TOMBSTONE_VALUE ∨ ∃ col, tableColumnLookup (schema i) k.2 = some col ∧
    (r.table i).colValue k.1 col = some value
  by_cases hname : k.2 = CLOUDSYNC_TOMBSTONE_VALUE
  · exact .inl hname
  · rw [if_neg hname] at hvalue
    cases hcol : tableColumnLookup (schema i) k.2 with
    | none =>
      rw [hcol] at hvalue
      cases hvalue
    | some col =>
      rw [hcol, Except.ok.injEq] at hvalue
      refine .inr ⟨col, rfl, ?_⟩
      cases hrow : (r.table i).colValue k.1 col with
      | none =>
        rw [hrow] at hvalue
        exact absurd hvalue.symm (of_decide_eq_true hshown)
      | some x =>
        rw [hrow] at hvalue
        rw [← hvalue]
        rfl

end
end SqliteSync.Store
