import SqliteSync.Payload.Deliver
import SqliteSync.Store.CatalogFeed

/-!
# Exchanges over payloads

A database reads its feed, encodes it into a payload, and another one applies it: what
happens to the other one is a pull, the exchange that the rounds of synchronisation are
made of. Between the two lie the names of tables, the encodings of keys, a blob on the
wire and the statements of the receiver.
-/
namespace SqliteSync.Store
open Library Clock Payload

section
variable {n : ℕ} {schema : Fin n → TableContext}

theorem mergeColumn_ok (r : Replica schema) {c : Change n} {col : Fin (schema c.tbl).ncols}
    (hcol : tableColumnLookup (schema c.tbl) c.name = some col)
    (hcls : (schema c.tbl).algo ≠ .crdtGos) (needsResurrect rowExistsLocally : Bool) :
    (mergeColumn noFaults r c needsResurrect rowExistsLocally).1 = .ok () := by
  rcases mergeDidCidWin_iff r c hcol with ⟨flag, hflag, -⟩
  rcases (Reaches.refl r c.tbl c.pk c.siteId).mergeInsertCol hcol hcls c.colValue c.colVersion
    c.dbVersion c.seq with ⟨r', -, hr', -⟩
  rw [mergeColumn, hflag]
  dsimp only
  split_ifs
  · rw [hr', Outcome.describe_ok]
  · rfl

/-- Where no statement fails a merge of a well-formed change succeeds. -/
theorem cloudsyncMergeInsert_ok {r : Replica schema} {c : Change n}
    (hcls : (schema c.tbl).algo ≠ .crdtGos) (hcl : 0 ≤ ((r.table c.tbl).rowAt c.pk).localCl)
    (hwf : c.WellFormedFor (schema c.tbl)) : (cloudsyncMergeInsert noFaults r c).1 = .ok () := by
  have hlocal := (r.table c.tbl).metaLocalCl_eq c.pk
  have h₀ := Reaches.refl r c.tbl c.pk c.siteId
  rw [cloudsyncMergeInsert, if_neg hcls]
  simp only [noFaults_apply, hlocal, if_neg hcl.not_gt]
  by_cases hold : c.cl < ((r.table c.tbl).rowAt c.pk).localCl
  · rw [if_pos hold]
  rw [if_neg hold]
  by_cases heven : c.cl.tmod 2 = 0
  · rw [if_pos heven]
    split_ifs
    · rfl
    · rcases h₀.mergeDelete c.name c.colVersion c.dbVersion c.seq with ⟨r', w, hr', -⟩
      rw [hr', Outcome.describe_ok]
  rw [if_neg heven]
  rcases h₀.mergeSentinelOnlyInsert c.colVersion c.dbVersion c.seq with ⟨r₁, -, -, hr₁, -⟩
  by_cases htomb : c.name = CLOUDSYNC_TOMBSTONE_VALUE
  · rw [if_pos htomb]
    split_ifs
    · rfl
    · rw [hr₁, Outcome.describe_ok]
  rw [if_neg htomb]
  rcases hwf with ⟨hname, -⟩ | ⟨⟨col, hname⟩, -⟩
  · exact absurd hname htomb
  have hcol : tableColumnLookup (schema c.tbl) c.name = some col := by
    rw [hname, tableColumnLookup_colName]
  rw [Outcome.andThen_fst_ok]
  refine ⟨?_, mergeColumn_ok _ hcol hcls _ _⟩
  rcases h₀.mergeSentinelOnlyInsert c.cl c.dbVersion c.seq with ⟨r₂, -, -, hr₂, -⟩
  split_ifs
  · rw [hr₂, Outcome.describe_ok]
  · rfl

/-! ## The feed of a catalog and of its replica -/

namespace Catalog
variable (x : Catalog schema)

/-- The row of the feed a change is shown as. -/
def row (c : Change n) : FeedRow where
  tbl := x.tblName c.tbl
  pk := c.pk
  colName := c.name
  colValue := c.colValue
  colVersion := c.colVersion
  dbVersion := c.dbVersion
  siteId := c.siteId
  cl := c.cl
  seq := c.seq

theorem change_row {c : Change n} (h : c.colName.isSome) : (x.row c).change c.tbl = c := by
  rcases Option.isSome_iff_exists.mp h with ⟨name, hname⟩
  rcases c with ⟨tbl, pk, colName, colValue, colVersion, dbVersion, siteId, cl, seq⟩
  cases hname
  rfl

theorem row_changeOf {i : Fin n} {row : (Pk × String) × MetaRow}
    (hrow : row ∈ (x.replica.table i).metadata.rows)
    (hname : row.1.2 = CLOUDSYNC_TOMBSTONE_VALUE ∨
      ∃ col, tableColumnLookup (schema i) row.1.2 = some col) :
    ∃ value, (x.replica.table i).cloudsyncColValue row.1.2 row.1.1 = .ok value ∧
      (([x.replica.changeOf i row.1 row.2 value].filter
        fun c => c.colValue ≠ CLOUDSYNC_RLS_RESTRICTED_VALUE).map x.row) =
        ((x.currentValue i row.1).map fun value => x.feedRow (x.tblName i) row value
          ((x.replica.table i).metaLocalCl row.1.1)).toList.filter
            fun f => f.colValue ≠ CLOUDSYNC_RLS_RESTRICTED_VALUE := by
  have hget := (Keyed.get_eq_some_iff _ row.1 row.2).mpr hrow
  have hcl : (x.replica.table i).feedCl row.1.1 = (x.replica.table i).metaLocalCl row.1.1 := by
    rw [localCl_eq_feedCl i (show (x.replica.table i).metadata.get (row.1.1, row.1.2) = some row.2
      from hget), Table.metaLocalCl_eq]
  have hshown : ∀ value, x.row (x.replica.changeOf i row.1 row.2 value) =
      x.feedRow (x.tblName i) row value ((x.replica.table i).metaLocalCl row.1.1) := by
    intro value
    rw [← hcl]
    rfl
  have hsame : ∀ value, (([x.replica.changeOf i row.1 row.2 value].filter
      fun c => c.colValue ≠ CLOUDSYNC_RLS_RESTRICTED_VALUE).map x.row) =
        [x.feedRow (x.tblName i) row value ((x.replica.table i).metaLocalCl row.1.1)].filter
          fun f => f.colValue ≠ CLOUDSYNC_RLS_RESTRICTED_VALUE := by
    intro value
    by_cases hvalue : value = CLOUDSYNC_RLS_RESTRICTED_VALUE
    · rw [hvalue]
      rfl
    · have hchange : (x.replica.changeOf i row.1 row.2 value).colValue ≠
          CLOUDSYNC_RLS_RESTRICTED_VALUE := hvalue
      have hshow : (x.feedRow (x.tblName i) row value
          ((x.replica.table i).metaLocalCl row.1.1)).colValue ≠ CLOUDSYNC_RLS_RESTRICTED_VALUE :=
        hvalue
      simp [hchange, hshow, hshown]
  rw [Table.cloudsyncColValue, currentValue]
  by_cases htomb : row.1.2 = CLOUDSYNC_TOMBSTONE_VALUE
  · rw [if_pos htomb, if_pos htomb]
    exact ⟨.null, rfl, hsame .null⟩
  · rcases hname.resolve_left htomb with ⟨col, hcol⟩
    rw [if_neg htomb, if_neg htomb, hcol, Option.bind_some]
    refine ⟨_, rfl, ?_⟩
    cases hvalue : (x.replica.table i).colValue row.1.1 col with
    | none =>
      rw [Option.getD_none, hsame, List.filter_cons_of_neg (by simp [feedRow])]
      rfl
    | some value => exact hsame value

theorem tableChanges_row {i : Fin n}
    (hnames : ∀ row ∈ (x.replica.table i).metadata.rows, row.1.2 = CLOUDSYNC_TOMBSTONE_VALUE ∨
      ∃ col, tableColumnLookup (schema i) row.1.2 = some col) :
    ∃ changes, x.replica.tableChanges i = .ok changes ∧ changes.map x.row =
      (x.expectedTable i).filter fun f => f.colValue ≠ CLOUDSYNC_RLS_RESTRICTED_VALUE := by
  have hvalues : ∀ row ∈ (x.replica.table i).metadata.rows,
      ((x.replica.table i).cloudsyncColValue row.1.2 row.1.1).map
        (x.replica.changeOf i row.1 row.2) =
          .ok (x.replica.changeOf i row.1 row.2 (x.replica.feedValue i row.1)) := by
    intro row hrow
    rcases x.row_changeOf hrow (hnames row hrow) with ⟨value, hvalue, -⟩
    rw [Replica.feedValue, hvalue]
    rfl
  refine ⟨_, by rw [Replica.tableChanges, mapM_except_ok hvalues]; rfl, ?_⟩
  have hsingle : ∀ (l : List ((Pk × String) × MetaRow)) (g : (Pk × String) × MetaRow → Change n),
      l.map g = l.flatMap fun row => [g row] := fun l g => List.map_eq_flatMap
  rw [expectedTable, List.filterMap_eq_flatMap_toList, List.filter_flatMap, hsingle,
    List.filter_flatMap, List.map_flatMap]
  apply List.flatMap_congr
  intro row hrow
  rcases x.row_changeOf hrow (hnames row hrow) with ⟨value, hvalue, hsame⟩
  rw [Replica.feedValue, hvalue]
  exact hsame

/-- Where no other table looks like one of metadata the two feeds show the same. -/
theorem cloudsyncChanges_row (hothers : ∀ u ∈ x.others, likeCloudsync u.name = false)
    {feed : List FeedRow} (hfeed : x.cloudsyncChanges = .ok feed) :
    ∃ changes, x.replica.cloudsyncChanges = .ok changes ∧ feed = changes.map x.row := by
  rcases (x.cloudsyncChanges_eq_ok feed).mp hfeed with ⟨-, -, hnames, rfl⟩
  have hnone : x.othersFeed = [] := by
    have hfilter : (x.others.filter fun u => likeCloudsync u.name) = [] :=
      List.filter_eq_nil_iff.mpr fun u hu => by simp [hothers u hu]
    rw [othersFeed, hfilter]
    rfl
  choose changes hchanges hrows using fun i => x.tableChanges_row (hnames i)
  refine ⟨_, by rw [Replica.cloudsyncChanges, mapM_except_ok fun i _ => hchanges i]; rfl, ?_⟩
  rw [hnone, List.append_nil, expectedFeed, List.filter_flatMap, ← List.flatMap_def, List.map_flatMap]
  exact List.flatMap_congr fun i _ => (hrows i).symm

theorem cloudsyncChangesvtabUpdate_row {x y : Catalog schema} {c : Change n}
    (hplain : (x.row c).Plain) {argv : List Value} (hargv : (x.row c).values = some argv)
    (hname : y.tableLookup (x.tblName c.tbl) = some c.tbl) (hsome : c.colName.isSome)
    (faults : Faults) (rowid : Value) :
    y.cloudsyncChangesvtabUpdate faults (.null :: rowid :: argv) =
      some ((Store.cloudsyncMergeInsert faults y.replica c).1,
        { y with replica := (Store.cloudsyncMergeInsert faults y.replica c).2 }) := by
  rcases values_tbl hplain hargv with ⟨v, hv, htbl⟩
  have hlookup : y.tableLookup (x.row c).tbl = some c.tbl := hname
  rw [cloudsyncChangesvtabUpdate, cloudsyncMergeInsert, hv]
  simp only [Option.bind_eq_bind, Option.bind_some, htbl, hlookup, changeOfValues_values hplain hargv,
    x.change_row hsome]

theorem named_of_feed {r : Replica schema} (hr : r.Faithful) {feed : List (Change n)}
    (hfeed : r.cloudsyncChanges = .ok feed) : ∀ c ∈ feed, c.colName.isSome := by
  rcases cloudsyncChanges_ok (r := r) fun i pk => (hr.2 i pk).2.clocks.named with
    ⟨feed', hfeed', hmem⟩
  rw [hfeed, Except.ok.injEq] at hfeed'
  subst hfeed'
  intro c hc
  rcases (hmem c).mp hc with ⟨-, i, k, m, -, rfl⟩
  rfl

theorem mergeRows_row (hcls : ∀ i, (schema i).algo = .crdtCls) {y : Catalog schema}
    (hnames : ∀ i, y.tableLookup (x.tblName i) = some i) (hy : y.replica.Sound) (autocommit : Bool)
    {D : List (Change n)} (hD : ∀ c ∈ D, c.WellFormedFor (schema c.tbl) ∧ c.colName.isSome) (i : ℕ)
    (rc : ℤ) :
    (Applier.sound autocommit).mergeRows i (rc, y) (D.map x.row) =
      (if D = [] then rc else (SQLITE_DONE : ℤ),
        { y with replica := y.replica.deliverEach autocommit D }) := by
  induction D generalizing i rc y with
  | nil => rfl
  | cons c D ih =>
    rcases hD c List.mem_cons_self with ⟨hwf, hsome⟩
    have hgos : (schema c.tbl).algo ≠ .crdtGos := by
      rw [hcls]
      decide
    have hok := cloudsyncMergeInsert_ok hgos (hy.2 c.tbl c.pk).localCl_nonneg hwf
    have hrow : (Applier.sound autocommit).mergeRow i y (x.row c) = (SQLITE_DONE,
        { y with replica := (Store.cloudsyncMergeInsert noFaults y.replica c).2.settle autocommit }) := by
      have htbl : y.tableLookup (x.row c).tbl = some c.tbl := hnames c.tbl
      rw [Applier.mergeRow, htbl]
      dsimp only
      rw [x.change_row hsome]
      change (Applier.sound autocommit).finish i y (Store.cloudsyncMergeInsert noFaults y.replica c) = _
      rw [Applier.finish, Applier.endStatement, hok]
      rfl
    have hnext := @ih { y with
      replica := (Store.cloudsyncMergeInsert noFaults y.replica c).2.settle autocommit } hnames
        ((hy.merge hcls hwf).settle autocommit) (fun d hd => hD d (.tail c hd)) (i + 1) SQLITE_DONE
    rw [ite_self] at hnext
    rw [List.map_cons, Applier.mergeRows, if_pos (show (Applier.sound autocommit).approved i = true
      from rfl), hrow, hnext, if_neg (List.cons_ne_nil c D)]
    rfl

/-- A payload of the whole feed of one database, applied by another one with the same
tables, makes it pull: whatever the machines, compressed or not, inside a transaction or
not, in whatever order the feed was read. -/
theorem pulls_of_payload (hcls : ∀ i, (schema i).algo = .crdtCls)
    (hdflt : ∀ i col, (schema i).dflt col ≠ CLOUDSYNC_RLS_RESTRICTED_VALUE) {x y : Catalog schema}
    (hx : Replica.Reached schema Replica.KeepsFeed x.replica)
    (hy : Replica.Reached schema Replica.KeepsFeed y.replica)
    (hnames : ∀ i, y.tableLookup (x.tblName i) = some i)
    (hothers : ∀ u ∈ x.others, likeCloudsync u.name = false) {feed D : List FeedRow}
    (hfeed : x.cloudsyncChanges = .ok feed) (hD : D.Perm feed) (hne : D ≠ [])
    (hplain : ∀ f ∈ D, f.Plain) {rows : List (List Value)}
    (hrows : D.mapM FeedRow.values = some rows) (m : Allocator) (hm : ∀ k, m.ok k = true) (lz4 : Lz4)
    (hlz : lz4.Lawful) (e : Endian) (limit hash : ℕ) (hhash : hash < 2 ^ 64)
    (hlimit : limit < 2 ^ 31)
    (hfirst : ∀ row ∈ rows.head?, headerSize + (Codec.pkEncodeValues row).length ≤
      CLOUDSYNC_PAYLOAD_MINBUF_SIZE)
    (htotal : headerSize + (encodedRows rows).length ≤ limit) :
    ∃ blob, cloudsyncPayloadEncode m lz4 e limit hash rows = some (.blob blob) ∧
      ∀ (r : Receiver) (cursor : CheckCursor) (autocommit : Bool), r.Opens lz4 hash →
        r.limit = limit → ∃ result y',
          (Applier.sound autocommit).payloadApply r cursor y blob = some (result, y') ∧
            result.rc = D.length ∧ result.error = none ∧ y.replica.Pulls x.replica y'.replica := by
  have hwidth : ∀ row ∈ rows, row.length = insertParams := by
    intro row hrow
    rcases mem_of_mapM_eq_some hrows row hrow with ⟨f, -, hf⟩
    exact (Applier.padded_values hf).1
  have hrowsNe : rows ≠ [] := by
    rintro rfl
    exact hne (List.length_eq_zero_iff.mp (length_of_mapM hrows).symm)
  rcases cloudsyncPayloadEncode_eq m hm lz4 e limit hash insertParams rows hrowsNe (by decide) hwidth
    hfirst hlimit htotal with ⟨expandedSize, data, hsent, hencode⟩
  refine ⟨_, hencode, ?_⟩
  rintro r cursor autocommit hr rfl
  rcases x.cloudsyncChanges_row hothers hfeed with ⟨changes, hchanges, rfl⟩
  -- the order in which the feed was read is an order of the changes
  have hperm : Relation.Comp (fun D sent => D = List.map x.row sent) List.Perm D changes := by
    rw [List.eq_map_comp_perm]
    exact hD
  rcases hperm with ⟨sent, rfl, hsentPerm⟩
  have hfaithful := Replica.faithful_of_reached hcls hdflt hx
  rcases hfaithful.feed with ⟨changes', hchanges', hwf, -⟩
  rw [hchanges, Except.ok.injEq] at hchanges'
  subst hchanges'
  have hchange : ∀ c ∈ sent, c.WellFormedFor (schema c.tbl) ∧ c.colName.isSome := by
    intro c hc
    have hin := hsentPerm.mem_iff.mp hc
    exact ⟨(hwf c hin).1, named_of_feed hfaithful hchanges c hin⟩
  have hmerged := x.mergeRows_row hcls hnames (Replica.faithful_of_reached hcls hdflt hy).sound
    autocommit hchange 0 SQLITE_OK
  rw [if_neg fun h => hne (by rw [h]; rfl)] at hmerged
  rcases (Applier.sound autocommit).payloadApply_sent hlz hr e hplain hrows hhash hlimit
    (by omega) hsent cursor y with ⟨result, hresult, hcode⟩
  rw [hmerged] at hresult hcode
  rcases hcode rfl with ⟨hrc, herror, -⟩
  exact ⟨result, _, hresult, hrc, herror, changes, sent, autocommit, hchanges, hsentPerm, rfl⟩

/-- A database of one table. -/
def ofTasks (r : Replica fun _ : Fin 1 => singleColumn) : Catalog fun _ : Fin 1 => singleColumn where
  replica := r
  tblName _ := "tasks"
  others := []
  tblName_injective := Function.injective_of_subsingleton _
  others_fresh _ hu := absurd hu List.not_mem_nil

/-- One row, sent to a database that has none. -/
theorem pulls_of_payload_row : ∃ (r : Replica fun _ : Fin 1 => singleColumn)
    (rows : List (List Value)) (blob : List UInt8),
    (r.table 0).base.get [.integer 1] ≠ none ∧
      cloudsyncPayloadEncode ⟨fun _ => true, fun _ => 0⟩ literalLz4 .big 1000000000 0 rows =
        some (.blob blob) ∧
      ∃ result y', (Applier.sound true).payloadApply plainReceiver ⟨none, none⟩
          (ofTasks (Replica.empty _ [2])) blob = some (result, y') ∧
        result.rc = 1 ∧ result.error = none ∧ (Replica.empty _ [2]).Pulls r y'.replica := by
  let insert : Replica.Event fun _ : Fin 1 => singleColumn :=
    .write 0 (.insert false [.integer 1] fun _ => .integer 10)
  have h₀ : Replica.Reached (fun _ : Fin 1 => singleColumn) Replica.KeepsFeed (Replica.empty _ [1]) :=
    .start ⟨[1], rfl⟩
  have h₁ := h₀.next_get insert (by decide) (by decide)
  let feed : List FeedRow := [⟨"tasks", [.integer 1], "v", .integer 10, 1, 1, [1], 1, 0⟩]
  have hplain : ∀ f ∈ feed, f.Plain := by
    intro f hf
    rw [List.mem_singleton.mp hf]
    exact ⟨fun b hb => ne_of_mem_of_not_mem hb (by decide),
      fun b hb => ne_of_mem_of_not_mem hb (by decide), by decide⟩
  have hdflt : ∀ (i : Fin 1) (col : Fin ((fun _ : Fin 1 => singleColumn) i).ncols),
      ((fun _ : Fin 1 => singleColumn) i).dflt col ≠ CLOUDSYNC_RLS_RESTRICTED_VALUE :=
    fun _ _ => (by decide : Value.null ≠ CLOUDSYNC_RLS_RESTRICTED_VALUE)
  rcases @pulls_of_payload _ _ (fun _ => rfl) hdflt (ofTasks _) (ofTasks (Replica.empty _ [2])) h₁
    (.start ⟨[2], rfl⟩) (by decide) (fun _ hu => nomatch hu) feed feed rfl (.refl feed)
    (List.cons_ne_nil _ _) hplain _ rfl ⟨fun _ => true, fun _ => 0⟩ (fun _ => rfl) literalLz4
    literalLz4_lawful .big 1000000000 0 (by decide) (by decide) (by decide) (by decide)
    with ⟨blob, hencode, happly⟩
  rcases happly plainReceiver ⟨none, none⟩ true plainReceiver_opens rfl with
    ⟨result, y', hresult, hrc, herror, hpulls⟩
  exact ⟨_, _, blob, (by decide), hencode, result, y', hresult, hrc, herror, hpulls⟩

end Catalog
end
end SqliteSync.Store
