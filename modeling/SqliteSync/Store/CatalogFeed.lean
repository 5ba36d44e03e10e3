import SqliteSync.Causal.Run
import SqliteSync.Store.Catalog

/-!
# When the feed is exact

The feed of a database is compared with the rows it is meant to have. It is the
expected feed, less the rows that carry the marker, plus whatever a table of
the user contributes; so it is exact when neither happens and nothing fails.
-/
namespace SqliteSync.Store
open Library

def okList {α ε : Type} : Except ε (List α) → List α
  | .ok l => l
  | .error _ => []

theorem mapM_except_eq_ok {α β ε : Type} (f : α → Except ε (List β)) (l : List α)
    (r : List (List β)) :
    l.mapM f = .ok r ↔ (∀ a ∈ l, ∃ b, f a = .ok b) ∧ r = l.map fun a => okList (f a) := by
  constructor
  · intro h
    have hok : ∀ a ∈ l, ∃ b, f a = .ok b := by
      intro a ha
      obtain ⟨b, -, hb⟩ := forall_of_forall₂ (forall₂_of_mapM h) a ha
      exact ⟨b, hb⟩
    have hvalue := mapM_except_ok (f := f) (g := fun a => okList (f a)) (l := l) (by
      intro a ha
      rcases hok a ha with ⟨b, hb⟩
      rw [hb, okList])
    rw [hvalue, Except.ok.injEq] at h
    exact ⟨hok, h.symm⟩
  · rintro ⟨hok, rfl⟩
    apply mapM_except_ok
    intro a ha
    rcases hok a ha with ⟨b, hb⟩
    rw [hb, okList]

theorem likeCloudsync_iff (name : String) :
    likeCloudsync name = true ↔
      ∃ a c t, name.toList = a ++ c :: t ∧ t.map Char.toLower = "cloudsync".toList :=
  like_percent_underscore "cloudsync".toList (by simp) name.toList

theorem likeCloudsync_append (name : String) : likeCloudsync (name ++ "_cloudsync") = true :=
  (likeCloudsync_iff _).mpr
    ⟨name.toList, '_', "cloudsync".toList, by rw [String.toList_append]; rfl, by decide⟩

theorem withoutSuffix_append (name : String) : withoutSuffix (name ++ "_cloudsync") = name := by
  have hlength : (name ++ "_cloudsync").toList.length - 10 = name.toList.length := by
    have hten : "_cloudsync".toList.length = 10 := by decide
    rw [String.toList_append, List.length_append, hten, Nat.add_sub_cancel]
  rw [withoutSuffix, hlength, String.toList_append, List.take_left, String.ofList_toList]

/-- A metadata row joins to one tombstone at most, and so carries the local causal length. -/
theorem feedCls_metadata {table : TableContext} (t : Table table) {k : Pk × String} {m : MetaRow}
    (hget : t.metadata.get k = some m) : feedCls t.metadata.rows k.1 = [t.metaLocalCl k.1] := by
  rw [feedCls, Keyed.filter_key, Table.metaLocalCl]
  cases t.metadata.get (k.1, CLOUDSYNC_TOMBSTONE_VALUE) with
  | some s => rfl
  | none =>
    have hexists : t.metaPkexists k.1 = true := by
      rw [Table.metaPkexists, Keyed.existsWhere_iff]
      exact ⟨k, beq_self_eq_true k.1, hget ▸ Option.some_ne_none m⟩
    simp [hexists]

namespace Catalog
variable {n : ℕ} {schema : Fin n → TableContext} (c : Catalog schema)

theorem tableLookup_tblName (i : Fin n) : c.tableLookup (c.tblName i) = some i := by
  rw [tableLookup]
  cases h : (List.finRange n).find? (fun j =>
      lowered (c.tblName j) == lowered (c.tblName i)) with
  | none => simpa using List.find?_eq_none.mp h i (List.mem_finRange i)
  | some j =>
    have hj : lowered (c.tblName j) = lowered (c.tblName i) := by
      simpa using List.find?_some h
    rw [c.tblName_injective hj]

theorem selectChanges_eq_ok (name : String) (rows : List ((Pk × String) × MetaRow))
    (l : List FeedRow) :
    c.selectChanges name rows = .ok l ↔
      (∀ row ∈ rows, ∃ b, c.rowChanges name rows row = .ok b) ∧
        l = rows.flatMap fun row => (okList (c.rowChanges name rows row)).filter
          fun f => f.colValue ≠ CLOUDSYNC_RLS_RESTRICTED_VALUE := by
  rw [selectChanges, ← List.filter_flatMap, List.flatMap_def]
  cases hm : rows.mapM (c.rowChanges name rows) with
  | error err =>
    constructor
    · intro h
      cases h
    · rintro ⟨hok, -⟩
      have := (mapM_except_eq_ok (c.rowChanges name rows) rows _).mpr ⟨hok, rfl⟩
      rw [hm] at this
      cases this
  | ok r =>
    rcases (mapM_except_eq_ok _ _ _).mp hm with ⟨hok, rfl⟩
    constructor
    · intro h
      exact ⟨hok, (Except.ok.inj h).symm⟩
    · rintro ⟨-, rfl⟩
      rfl

section
variable (i : Fin n) (row : (Pk × String) × MetaRow)

theorem cloudsyncColValue_tblName (colName : String) (pk : Pk) :
    c.cloudsyncColValue (withoutSuffix (c.metaName i)) colName pk =
      (c.replica.table i).cloudsyncColValue colName pk := by
  rw [metaName, withoutSuffix_append, cloudsyncColValue, tableLookup_tblName]

theorem rowChanges_metaName_ok_iff (rows : List ((Pk × String) × MetaRow)) :
    (∃ b, c.rowChanges (c.metaName i) rows row = .ok b) ↔
      row.1.2 = CLOUDSYNC_TOMBSTONE_VALUE ∨
        ∃ col, tableColumnLookup (schema i) row.1.2 = some col := by
  rw [rowChanges, cloudsyncColValue_tblName, Table.cloudsyncColValue]
  by_cases hname : row.1.2 = CLOUDSYNC_TOMBSTONE_VALUE
  · simp [hname, Except.map]
  · cases tableColumnLookup (schema i) row.1.2 with
    | none => simp [hname, Except.map]
    | some col => simp [hname, Except.map]

/-- A metadata row contributes the row expected of it, unless that carries the marker. -/
theorem okList_rowChanges_metaName (hrow : row ∈ (c.replica.table i).metadata.rows) :
    ((okList (c.rowChanges (c.metaName i) (c.replica.table i).metadata.rows row)).filter
        fun f => f.colValue ≠ CLOUDSYNC_RLS_RESTRICTED_VALUE) =
      ((c.currentValue i row.1).map fun value =>
        c.feedRow (c.tblName i) row value ((c.replica.table i).metaLocalCl row.1.1)).toList.filter
          fun f => f.colValue ≠ CLOUDSYNC_RLS_RESTRICTED_VALUE := by
  have hget := (Keyed.get_eq_some_iff _ row.1 row.2).mpr hrow
  rw [rowChanges, cloudsyncColValue_tblName, Table.cloudsyncColValue, feedCls_metadata _ hget,
    currentValue, metaName, withoutSuffix_append]
  by_cases hname : row.1.2 = CLOUDSYNC_TOMBSTONE_VALUE
  · rw [if_pos hname, if_pos hname]
    rfl
  · rw [if_neg hname, if_neg hname]
    cases tableColumnLookup (schema i) row.1.2 with
    | none => rfl
    | some col =>
      rw [Option.bind_some]
      cases hvalue : (c.replica.table i).colValue row.1.1 col with
      | none => simp [okList, Except.map, hvalue, feedRow]
      | some value => simp [okList, Except.map, hvalue, feedRow]

end

theorem selectChanges_metaName_eq_ok (i : Fin n) (l : List FeedRow) :
    c.selectChanges (c.metaName i) (c.replica.table i).metadata.rows = .ok l ↔
      (∀ row ∈ (c.replica.table i).metadata.rows, row.1.2 = CLOUDSYNC_TOMBSTONE_VALUE ∨
        ∃ col, tableColumnLookup (schema i) row.1.2 = some col) ∧
      l = (c.expectedTable i).filter fun f => f.colValue ≠ CLOUDSYNC_RLS_RESTRICTED_VALUE := by
  rw [selectChanges_eq_ok]
  simp only [rowChanges_metaName_ok_iff]
  rw [expectedTable, List.filterMap_eq_flatMap_toList, List.filter_flatMap,
    List.flatMap_congr fun row hrow => c.okList_rowChanges_metaName i row hrow]

theorem mem_feedTables_iff (p : String × Option (List ((Pk × String) × MetaRow)) → Prop) :
    (∀ t ∈ c.feedTables, p t) ↔
      (∀ i, p (c.metaName i, some (c.replica.table i).metadata.rows)) ∧
        ∀ u ∈ c.others, likeCloudsync u.name = true → p (u.name, u.rows) := by
  simp only [feedTables, List.mem_filter, List.mem_append, List.mem_map, List.mem_finRange,
    true_and]
  constructor
  · intro h
    exact ⟨fun i => h _ ⟨.inl ⟨i, rfl⟩, likeCloudsync_append (c.tblName i)⟩,
      fun u hu hlike => h _ ⟨.inr ⟨u, hu, rfl⟩, hlike⟩⟩
  · rintro ⟨hmeta, hothers⟩ t ⟨⟨i, rfl⟩ | ⟨u, hu, rfl⟩, hlike⟩
    · exact hmeta i
    · exact hothers u hu hlike

def othersFeed : List FeedRow :=
  (c.others.filter fun u => likeCloudsync u.name).flatMap fun u =>
    okList (c.selectTable (u.name, u.rows))

theorem cloudsyncChanges_eq_ok (feed : List FeedRow) :
    c.cloudsyncChanges = .ok feed ↔
      c.feedTables ≠ [] ∧
      (∀ u ∈ c.others, likeCloudsync u.name = true → ∃ l, c.selectTable (u.name, u.rows) = .ok l) ∧
      (∀ i, ∀ row ∈ (c.replica.table i).metadata.rows, row.1.2 = CLOUDSYNC_TOMBSTONE_VALUE ∨
        ∃ col, tableColumnLookup (schema i) row.1.2 = some col) ∧
      feed = (c.expectedFeed.filter fun f => f.colValue ≠ CLOUDSYNC_RLS_RESTRICTED_VALUE) ++
        c.othersFeed := by
  have hread : (∀ t ∈ c.feedTables, ∃ l, c.selectTable t = .ok l) ↔
      (∀ u ∈ c.others, likeCloudsync u.name = true → ∃ l, c.selectTable (u.name, u.rows) = .ok l) ∧
      (∀ i, ∀ row ∈ (c.replica.table i).metadata.rows, row.1.2 = CLOUDSYNC_TOMBSTONE_VALUE ∨
        ∃ col, tableColumnLookup (schema i) row.1.2 = some col) := by
    rw [mem_feedTables_iff, and_comm]
    simp only [selectTable, selectChanges_metaName_eq_ok, exists_and_left, exists_eq, and_true]
  rw [cloudsyncChanges]
  by_cases hnil : c.feedTables = []
  · simp [hnil]
  · rw [if_neg hnil]
    cases hm : c.feedTables.mapM c.selectTable with
    | error err =>
      constructor
      · intro h
        cases h
      · rintro ⟨-, hothers, hmeta, -⟩
        have := (mapM_except_eq_ok c.selectTable c.feedTables _).mpr
          ⟨hread.mpr ⟨hothers, hmeta⟩, rfl⟩
        rw [hm] at this
        cases this
    | ok r =>
      rcases (mapM_except_eq_ok _ _ _).mp hm with ⟨hok, rfl⟩
      rcases hread.mp hok with ⟨hothers, hmeta⟩
      have hfeed : (c.feedTables.map fun t => okList (c.selectTable t)).flatten =
          (c.expectedFeed.filter fun f => f.colValue ≠ CLOUDSYNC_RLS_RESTRICTED_VALUE) ++
            c.othersFeed := by
        rw [feedTables, List.filter_append, List.map_append, List.flatten_append, expectedFeed,
          othersFeed, List.filter_flatMap]
        congr 1
        · rw [List.filter_eq_self.mpr, List.map_map, ← List.flatMap_def]
          · apply List.flatMap_congr
            intro i _
            have := (c.selectChanges_metaName_eq_ok i _).mpr ⟨hmeta i, rfl⟩
            exact congrArg okList this
          · intro t ht
            rcases List.mem_map.mp ht with ⟨i, _, rfl⟩
            exact likeCloudsync_append (c.tblName i)
        · rw [List.filter_map, List.map_map, ← List.flatMap_def]
          rfl
      constructor
      · intro h
        exact ⟨hnil, hothers, hmeta, (Except.ok.inj h).symm.trans hfeed⟩
      · rintro ⟨-, -, -, rfl⟩
        exact congrArg Except.ok hfeed

theorem feedTables_ne_nil_iff :
    c.feedTables ≠ [] ↔ 0 < n ∨ ∃ u ∈ c.others, likeCloudsync u.name = true := by
  rw [Ne, List.eq_nil_iff_forall_not_mem, c.mem_feedTables_iff fun _ => False, not_and_or]
  simp only [imp_false, not_forall, not_not, exists_prop, not_false_eq_true,
    exists_true_iff_nonempty, ← Fin.pos_iff_nonempty]

theorem feedCls_ne_nil (rows : List ((Pk × String) × MetaRow)) (pk : Pk) :
    feedCls rows pk ≠ [] := by
  rw [feedCls]
  cases rows.filter fun r => r.1 = (pk, CLOUDSYNC_TOMBSTONE_VALUE) with
  | nil => exact List.cons_ne_nil 1 []
  | cons t l => exact List.cons_ne_nil _ _

/-- A row is read and left out exactly when its value is the marker. -/
theorem rowChanges_hidden_iff (name : String) (rows : List ((Pk × String) × MetaRow))
    (row : (Pk × String) × MetaRow) :
    (∃ b, c.rowChanges name rows row = .ok b ∧
      (b.filter fun f => f.colValue ≠ CLOUDSYNC_RLS_RESTRICTED_VALUE) = []) ↔
    c.cloudsyncColValue (withoutSuffix name) row.1.2 row.1.1 =
      .ok CLOUDSYNC_RLS_RESTRICTED_VALUE := by
  rw [rowChanges]
  cases c.cloudsyncColValue (withoutSuffix name) row.1.2 row.1.1 with
  | error err => simp [Except.map]
  | ok value =>
    simp only [Except.map, Except.ok.injEq, exists_eq_left', List.filter_eq_nil_iff, List.mem_map,
      forall_exists_index, and_imp, forall_apply_eq_imp_iff₂, feedRow, decide_eq_true_eq, not_not]
    constructor
    · intro h
      rcases List.exists_mem_of_ne_nil _ (feedCls_ne_nil rows row.1.1) with ⟨cl, hcl⟩
      exact h cl hcl
    · rintro rfl cl _
      rfl

theorem cloudsyncColValue_eq_marker (tbl colName : String) (pk : Pk) :
    c.cloudsyncColValue tbl colName pk = .ok CLOUDSYNC_RLS_RESTRICTED_VALUE ↔
      ∃ i col, c.tableLookup tbl = some i ∧ colName ≠ CLOUDSYNC_TOMBSTONE_VALUE ∧
        tableColumnLookup (schema i) colName = some col ∧
        ∀ v, (c.replica.table i).colValue pk col = some v → v = CLOUDSYNC_RLS_RESTRICTED_VALUE := by
  rw [cloudsyncColValue]
  cases c.tableLookup tbl with
  | none => simp
  | some i =>
    simp only [Table.cloudsyncColValue]
    by_cases hname : colName = CLOUDSYNC_TOMBSTONE_VALUE
    · simp [hname, CLOUDSYNC_RLS_RESTRICTED_VALUE]
    · cases hcol : tableColumnLookup (schema i) colName with
      | none => simp [hname, hcol]
      | some col =>
        cases hvalue : (c.replica.table i).colValue pk col with
        | none => simp [hname, hcol, hvalue]
        | some v => simp [hname, hcol, hvalue]

theorem selectTable_eq_nil_iff (u : UserTable) :
    c.selectTable (u.name, u.rows) = .ok [] ↔ c.Hides u := by
  rw [Hides, selectTable]
  cases hrows : u.rows with
  | none => simp
  | some rows =>
    simp only [Option.some.injEq, exists_eq_left', ← cloudsyncColValue_eq_marker,
      ← rowChanges_hidden_iff _ u.name rows, selectChanges_eq_ok]
    constructor
    · rintro ⟨hok, hnil⟩ row hrow
      rcases hok row hrow with ⟨b, hb⟩
      refine ⟨b, hb, ?_⟩
      have := List.flatMap_eq_nil_iff.mp hnil.symm row hrow
      rwa [hb, okList] at this
    · intro h
      refine ⟨fun row hrow => (h row hrow).imp fun b hb => hb.1, ?_⟩
      symm
      apply List.flatMap_eq_nil_iff.mpr
      intro row hrow
      rcases h row hrow with ⟨b, hb, hnil⟩
      rwa [hb, okList]

theorem colValue_ne_marker_of_mem_othersFeed {f : FeedRow} (hf : f ∈ c.othersFeed) :
    f.colValue ≠ CLOUDSYNC_RLS_RESTRICTED_VALUE := by
  rcases List.mem_flatMap.mp hf with ⟨u, _, hu⟩
  cases hselect : c.selectTable (u.name, u.rows) with
  | error err => simp [hselect, okList] at hu
  | ok l =>
    cases hrows : u.rows with
    | none => simp [hrows, selectTable] at hselect
    | some rows =>
      rw [hrows] at hselect
      rcases (c.selectChanges_eq_ok u.name rows l).mp hselect with ⟨_, rfl⟩
      rw [hrows, hselect, okList, ← List.filter_flatMap] at hu
      exact of_decide_eq_true (List.mem_filter.mp hu).2

/-- Every metadata row is shown when its name is known and no expected row carries the marker. -/
theorem shows_iff (i : Fin n) :
    (∀ row ∈ (c.replica.table i).metadata.rows, c.Shows i row.1) ↔
      (∀ row ∈ (c.replica.table i).metadata.rows, row.1.2 = CLOUDSYNC_TOMBSTONE_VALUE ∨
        ∃ col, tableColumnLookup (schema i) row.1.2 = some col) ∧
      ∀ f ∈ c.expectedTable i, f.colValue ≠ CLOUDSYNC_RLS_RESTRICTED_VALUE := by
  have hrow : ∀ row : (Pk × String) × MetaRow, c.Shows i row.1 ↔ (row.1.2 = CLOUDSYNC_TOMBSTONE_VALUE ∨
      ∃ col, tableColumnLookup (schema i) row.1.2 = some col) ∧
        c.currentValue i row.1 ≠ some CLOUDSYNC_RLS_RESTRICTED_VALUE := by
    intro row
    rw [Shows, currentValue]
    by_cases hname : row.1.2 = CLOUDSYNC_TOMBSTONE_VALUE
    · simp [hname, CLOUDSYNC_RLS_RESTRICTED_VALUE]
    · cases tableColumnLookup (schema i) row.1.2 with
      | none => simp [hname]
      | some col => simp [hname]
  simp only [hrow, forall_and, expectedTable, List.mem_filterMap, Option.map_eq_some_iff]
  constructor
  · rintro ⟨hknown, hvalue⟩
    refine ⟨hknown, ?_⟩
    rintro f ⟨row, hmem, value, hcurrent, rfl⟩ rfl
    exact hvalue row hmem hcurrent
  · rintro ⟨hknown, hvalue⟩
    exact ⟨hknown, fun row hmem hcurrent => hvalue _ ⟨row, hmem, _, hcurrent, rfl⟩ rfl⟩

/-- The feed is the expected one, its order left to the reader. -/
def FeedExact : Prop := ∃ feed, c.cloudsyncChanges = .ok feed ∧ feed.Perm c.expectedFeed

/-- A feed that can be read is the expected one when no expected row carries
the marker and the tables of the user add nothing. -/
theorem filter_append_perm_iff :
    ((c.expectedFeed.filter fun f => f.colValue ≠ CLOUDSYNC_RLS_RESTRICTED_VALUE) ++
        c.othersFeed).Perm c.expectedFeed ↔
      (∀ f ∈ c.expectedFeed, f.colValue ≠ CLOUDSYNC_RLS_RESTRICTED_VALUE) ∧ c.othersFeed = [] := by
  constructor
  · intro hperm
    have hvalue : ∀ f ∈ c.expectedFeed, f.colValue ≠ CLOUDSYNC_RLS_RESTRICTED_VALUE := by
      intro f hf
      rcases List.mem_append.mp (hperm.mem_iff.mpr hf) with hf | hf
      · exact of_decide_eq_true (List.mem_filter.mp hf).2
      · exact c.colValue_ne_marker_of_mem_othersFeed hf
    have hlength := hperm.length_eq
    rw [List.filter_eq_self.mpr fun f hf => decide_eq_true (hvalue f hf), List.length_append,
      Nat.add_eq_left] at hlength
    exact ⟨hvalue, List.eq_nil_of_length_eq_zero hlength⟩
  · rintro ⟨hvalue, hnil⟩
    rw [hnil, List.append_nil, List.filter_eq_self.mpr fun f hf => decide_eq_true (hvalue f hf)]

/-- The feed of a database is exact when there is a table to read, the matching
tables of the user are readable and show nothing, and every metadata row is shown. -/
theorem feedExact_iff :
    c.FeedExact ↔
      (0 < n ∨ ∃ u ∈ c.others, likeCloudsync u.name = true) ∧
      (∀ u ∈ c.others, likeCloudsync u.name = true → c.Hides u) ∧
      ∀ i, ∀ row ∈ (c.replica.table i).metadata.rows, c.Shows i row.1 := by
  simp only [shows_iff, forall_and, ← selectTable_eq_nil_iff]
  have hexpected : (∀ i, ∀ f ∈ c.expectedTable i, f.colValue ≠ CLOUDSYNC_RLS_RESTRICTED_VALUE) ↔
      ∀ f ∈ c.expectedFeed, f.colValue ≠ CLOUDSYNC_RLS_RESTRICTED_VALUE := by
    simp only [expectedFeed, List.mem_flatMap, List.mem_finRange, true_and, forall_exists_index]
    exact forall_comm
  rw [hexpected, FeedExact]
  simp only [cloudsyncChanges_eq_ok, feedTables_ne_nil_iff]
  constructor
  · rintro ⟨feed, ⟨hsome, hothers, hknown, rfl⟩, hperm⟩
    rcases c.filter_append_perm_iff.mp hperm with ⟨hvalue, hnil⟩
    refine ⟨hsome, fun u hu hlike => ?_, hknown, hvalue⟩
    rcases hothers u hu hlike with ⟨l, hl⟩
    have := List.flatMap_eq_nil_iff.mp hnil u (List.mem_filter.mpr ⟨hu, hlike⟩)
    rw [hl, okList] at this
    rw [hl, this]
  · rintro ⟨hsome, hothers, hknown, hvalue⟩
    refine ⟨_, ⟨hsome, fun u hu hlike => ⟨[], hothers u hu hlike⟩, hknown, rfl⟩,
      c.filter_append_perm_iff.mpr ⟨hvalue, List.flatMap_eq_nil_iff.mpr ?_⟩⟩
    intro u hu
    rcases List.mem_filter.mp hu with ⟨hmem, hlike⟩
    rw [hothers u hmem hlike, okList]

/-- A table of the user whose name only resembles a metadata table breaks the feed. -/
theorem not_feedExact : ¬ ∀ (n : ℕ) (schema : Fin n → TableContext) (c : Catalog schema),
    c.FeedExact := by
  intro h
  rcases h 1 (fun _ => ⟨.crdtCls, 0, Fin.elim0, Fin.elim0, fun i => i.elim0, fun i => i.elim0⟩)
    { replica := Replica.empty _ [1]
      tblName := fun _ => "notes"
      others := [⟨"my-cloudsync", none, none, fun l h => nomatch h⟩]
      tblName_injective := fun _ _ _ => Subsingleton.elim _ _
      others_fresh := by decide } with ⟨feed, hfeed, _⟩
  rcases (cloudsyncChanges_eq_ok _ feed).mp hfeed with ⟨_, hothers, _⟩
  rcases hothers _ List.mem_cons_self (by decide) with ⟨l, hl⟩
  cases hl

end Catalog
end SqliteSync.Store
