import SqliteSync.Store.Declared
import SqliteSync.Store.Ran

/-!
# Keys and values a table takes as they are

As long as no two keys that occur are the same to a table, it stores what is bound
for them unchanged, and no constraint is in the way of a row made of values that
occur, a declared table behaves as one whose only constraint is its primary key.
-/
namespace SqliteSync.Store
open Library Clock

/-- Primary keys, and the values that each of their cells may hold. -/
structure Cells (table : TableContext) where
  keys : Pk → Prop
  values : Pk → Fin table.ncols → Value → Prop

def Cells.Has {table : TableContext} (cells : Cells table) (pk : Pk) (row : Row table) : Prop :=
  cells.keys pk ∧ ∀ col, cells.values pk col (row col)

/-- The table takes the keys and the values as they are: it tells the keys apart,
stores what is bound, and no constraint meets a row made of them. -/
structure Declaration.Plain {table : TableContext} (d : Declaration table) (cells : Cells table) :
    Prop where
  dflt : ∀ pk, cells.keys pk → ∀ col, cells.values pk col (table.dflt col)
  storeKey : ∀ pk, cells.keys pk → d.storeKey pk = pk
  store : ∀ pk, cells.keys pk → ∀ col value, cells.values pk col value → d.store col value = value
  same : ∀ pk pk', cells.keys pk → cells.keys pk' → (d.same pk pk' = true ↔ pk = pk')
  accepts : ∀ pk row, cells.Has pk row → d.accepts pk row = true
  unique : ∀ key ∈ d.before ++ d.after, ∀ pk row pk' row', cells.Has pk row → cells.Has pk' row' →
    key pk row ≠ none → key pk' row' = key pk row → pk' = pk

/-- The rows of a table, and the keys of its metadata, are made of the cells. -/
structure Table.Within {table : TableContext} (cells : Cells table) (t : Table table) : Prop where
  base : ∀ pk row, t.base.get pk = some row → cells.Has pk row
  metadata : ∀ k, t.metadata.get k ≠ none → cells.keys k.1

namespace Declaration.Plain
variable {table : TableContext} {d : Declaration table} {cells : Cells table}
  {base : Keyed Pk (Row table)} {pk : Pk} {row : Row table}

theorem has_dflt (h : d.Plain cells) (hpk : cells.keys pk) : cells.Has pk table.dflt :=
  ⟨hpk, h.dflt pk hpk⟩

theorem has_update (hrow : cells.Has pk row) {col : Fin table.ncols} {value : Value}
    (hvalue : cells.values pk col value) : cells.Has pk (Function.update row col value) := by
  refine ⟨hrow.1, fun col' => ?_⟩
  rw [Function.update_apply]
  split_ifs with hcol
  · exact hcol ▸ hvalue
  · exact hrow.2 col'

theorem find_same (h : d.Plain cells) (hbase : ∀ pk row, base.get pk = some row → cells.Has pk row)
    (hpk : cells.keys pk) :
    (base.rows.find? fun r => d.same r.1 pk) = (base.get pk).map fun row => (pk, row) := by
  apply Keyed.find?_key
  intro r hr
  have hkey := (hbase r.1 r.2 ((Keyed.get_eq_some_iff base r.1 r.2).mpr hr)).1
  rw [Bool.eq_iff_iff, decide_eq_true_eq]
  exact h.same r.1 pk hkey hpk

theorem select_eq (h : d.Plain cells) (hbase : ∀ pk row, base.get pk = some row → cells.Has pk row)
    (hpk : cells.keys pk) : d.select base pk = (base.get pk).map fun row => (pk, row) := by
  rw [Declaration.select, h.storeKey pk hpk, h.find_same hbase hpk]

/-- Another uniqueness constraint finds no other row. -/
theorem holder_eq (h : d.Plain cells) (hbase : ∀ pk row, base.get pk = some row → cells.Has pk row)
    {key : UniqueKey table} (hkey : key ∈ d.before ++ d.after) (hrow : cells.Has pk row) {pk' : Pk}
    (hholder : Constraints.holder base key pk row = some pk') : pk' = pk ∧ base.get pk ≠ none := by
  rw [Constraints.holder, Option.bind_eq_some_iff] at hholder
  rcases hholder with ⟨v, hv, hfind⟩
  rcases Option.map_eq_some_iff.mp hfind with ⟨r, hr, rfl⟩
  have hget := (Keyed.get_eq_some_iff base r.1 r.2).mpr (List.mem_of_find?_eq_some hr)
  have hsame : key r.1 r.2 = some v := by simpa using List.find?_some hr
  have hpk := h.unique key hkey pk row r.1 r.2 hrow (hbase r.1 r.2 hget)
    (hv ▸ Option.some_ne_none v) (hsame.trans hv.symm)
  rw [← hpk, hget]
  exact ⟨rfl, Option.some_ne_none r.2⟩

/-- A row to be stored conflicts with the row of its key, and with no other. -/
theorem conflict_eq (h : d.Plain cells)
    (hbase : ∀ pk row, base.get pk = some row → cells.Has pk row) (hrow : cells.Has pk row) :
    d.conflict base pk row = if (base.get pk).isSome then some pk else none := by
  have hkeys : ∀ keys ⊆ d.before ++ d.after, ∀ pk',
      (keys.findSome? fun key => Constraints.holder base key pk row) = some pk' →
        pk' = pk ∧ base.get pk ≠ none := by
    intro keys hsub pk' hfound
    rcases List.exists_of_findSome?_eq_some hfound with ⟨key, hkey, hholder⟩
    exact h.holder_eq hbase (hsub hkey) hrow hholder
  have hbefore := hkeys d.before (List.subset_append_left _ _)
  have hafter := hkeys d.after (List.subset_append_right _ _)
  rw [Declaration.conflict, h.find_same hbase hrow.1]
  generalize (d.before.findSome? fun key => Constraints.holder base key pk row) = x at hbefore ⊢
  generalize (d.after.findSome? fun key => Constraints.holder base key pk row) = y at hafter ⊢
  cases hget : base.get pk with
  | none =>
    cases x with
    | some pk' => exact absurd hget (hbefore pk' rfl).2
    | none =>
      cases y with
      | some pk' => exact absurd hget (hafter pk' rfl).2
      | none => rfl
  | some row' =>
    cases x with
    | some pk' => simp [(hbefore pk' rfl).1]
    | none => rfl

theorem violates_eq (h : d.Plain cells)
    (hbase : ∀ pk row, base.get pk = some row → cells.Has pk row) (hrow : cells.Has pk row) :
    d.violates base pk row = false := by
  rw [Constraints.violates, List.any_eq_false]
  intro key hkey hany
  rcases List.any_eq_true.mp hany with ⟨r, hr, hclash⟩
  simp only [Bool.and_eq_true, bne_iff_ne, beq_iff_eq, Option.isSome_iff_ne_none] at hclash
  have hget := (Keyed.get_eq_some_iff base r.1 r.2).mpr hr
  exact hclash.1.1 (h.unique key hkey pk row r.1 r.2 hrow (hbase r.1 r.2 hget) hclash.1.2 hclash.2)

theorem clashes_iff (h : d.Plain cells) (hrow : cells.Has pk row) {pk' : Pk} {row' : Row table}
    (hrow' : cells.Has pk' row') : d.clashes pk row pk' row' = true ↔ pk' = pk := by
  rw [Declaration.clashes, Bool.or_eq_true, h.same pk' pk hrow'.1 hrow.1]
  refine or_iff_left_of_imp fun hany => ?_
  rcases List.any_eq_true.mp hany with ⟨key, hkey, hclash⟩
  rw [Bool.and_eq_true, beq_iff_eq, Option.isSome_iff_ne_none] at hclash
  exact h.unique key hkey pk row pk' row' hrow hrow' hclash.1 hclash.2

/-- A user's row is stored over the row of its key, and over no other. -/
theorem write_eq (h : d.Plain cells) (hbase : ∀ pk row, base.get pk = some row → cells.Has pk row)
    (orReplace : Bool) (hrow : cells.Has pk row) :
    d.write base orReplace pk row =
      if base.get pk ≠ none ∧ orReplace = false then none else some (base.replace pk row) := by
  have hclash : ∀ r ∈ base.rows, d.clashes pk row r.1 r.2 = decide (r.1 = pk) := by
    intro r hr
    rw [Bool.eq_iff_iff, decide_eq_true_eq]
    exact h.clashes_iff hrow (hbase r.1 r.2 ((Keyed.get_eq_some_iff base r.1 r.2).mpr hr))
  have hany : (base.rows.any fun r => d.clashes pk row r.1 r.2) = true ↔ base.get pk ≠ none := by
    rw [List.any_eq_true, Option.ne_none_iff_exists']
    constructor
    · rintro ⟨r, hr, hsame⟩
      rw [hclash r hr, decide_eq_true_eq] at hsame
      exact ⟨r.2, hsame ▸ (Keyed.get_eq_some_iff base r.1 r.2).mpr hr⟩
    · rintro ⟨row', hget⟩
      have hr := (Keyed.get_eq_some_iff base pk row').mp hget
      exact ⟨_, hr, (hclash _ hr).trans (decide_eq_true rfl)⟩
  have hreplace : (base.deleteWhere (d.clashes pk row)).replace pk row = base.replace pk row := by
    rw [Keyed.mk.injEq]
    simp only [Keyed.replace, Keyed.deleteWhere, List.filter_filter]
    congr 1
    apply List.filter_congr
    intro r hr
    rw [hclash r hr]
    by_cases hpk : r.1 = pk <;> simp [hpk]
  rw [Declaration.write, h.accepts pk row hrow, hreplace]
  simp [hany]

/-! ## The statements -/

variable {t : Table table}

theorem colValue_eq (h : d.Plain cells) (ht : t.Within cells) (hpk : cells.keys pk)
    (col : Fin table.ncols) : d.colValue t pk col = t.colValue pk col := by
  rw [Declaration.colValue, h.select_eq ht.base hpk, Option.map_map, Table.colValue]
  rfl

theorem cloudsyncColValue_eq (h : d.Plain cells) (ht : t.Within cells) (hpk : cells.keys pk)
    (colName : String) : d.cloudsyncColValue t colName pk = t.cloudsyncColValue colName pk := by
  rw [Declaration.cloudsyncColValue, Table.cloudsyncColValue]
  cases tableColumnLookup table colName with
  | none => rfl
  | some col => simp only [h.colValue_eq ht hpk]

theorem realMergeDelete_eq (h : d.Plain cells) (ht : t.Within cells) (hpk : cells.keys pk) :
    d.realMergeDelete t pk = t.realMergeDelete pk := by
  rw [Declaration.realMergeDelete, Table.realMergeDelete, h.storeKey pk hpk, Table.mk.injEq]
  refine ⟨?_, rfl⟩
  rw [Keyed.mk.injEq]
  apply List.filter_congr
  intro r hr
  have hkey := (ht.base r.1 r.2 ((Keyed.get_eq_some_iff t.base r.1 r.2).mpr hr)).1
  rw [Bool.not_inj_iff, Bool.eq_iff_iff, beq_iff_eq]
  exact h.same r.1 pk hkey hpk

theorem realMergeSentinel_eq (h : d.Plain cells) (ht : t.Within cells) (hpk : cells.keys pk) :
    d.realMergeSentinel t pk = t.realMergeSentinel pk := by
  have hinserts : d.Inserts t.base pk ↔ ¬ (t.base.get pk).isSome = true := by
    rw [Declaration.Inserts, h.storeKey pk hpk, h.accepts pk _ (h.has_dflt hpk),
      h.conflict_eq ht.base (h.has_dflt hpk)]
    simp
  rw [Declaration.realMergeSentinel, Table.realMergeSentinel, h.storeKey pk hpk]
  by_cases hget : (t.base.get pk).isSome = true
  · rw [if_pos hget, if_neg (mt hinserts.mp (not_not.mpr hget))]
  · rw [if_neg hget, if_pos (hinserts.mpr hget)]

theorem colMerge_eq (h : d.Plain cells) (ht : t.Within cells) (hpk : cells.keys pk)
    {col : Fin table.ncols} {value : Value} (hvalue : cells.values pk col value) :
    d.colMerge t pk col value = .ok (t.colMerge pk col value) := by
  have hfresh : d.fresh col value = Function.update table.dflt col value := by
    rw [Declaration.fresh, h.store pk hpk col value hvalue]
  have hhas := has_update (h.has_dflt hpk) hvalue
  rw [Declaration.colMerge, Declaration.upsert, h.storeKey pk hpk, hfresh, h.accepts pk _ hhas,
    if_neg (by decide), h.conflict_eq ht.base hhas,
    h.store pk hpk col value hvalue, Table.colMerge, Keyed.upsert]
  cases hget : t.base.get pk with
  | none => simp [Except.map]
  | some row =>
    have hupdate := has_update (ht.base pk row hget) hvalue
    simp [hget, h.accepts pk _ hupdate, h.violates_eq ht.base hupdate, Except.map]

/-- A table whose only constraint is its primary key takes everything as it is. -/
theorem unconstrained (table : TableContext) :
    (Declaration.plain (.unconstrained table)).Plain ⟨fun _ => True, fun _ _ _ => True⟩ where
  dflt _ _ _ := trivial
  storeKey _ _ := rfl
  store _ _ _ _ _ := rfl
  same _ _ _ _ := beq_iff_eq
  accepts _ _ _ := rfl
  unique _ hkey := nomatch hkey

end Declaration.Plain

/-! ## What stays within the cells -/

namespace Table.Within
variable {table : TableContext} {cells : Cells table} {t : Table table}

theorem empty (table : TableContext) (cells : Cells table) : (Table.empty table).Within cells :=
  ⟨fun _ row h => absurd h.symm (Option.some_ne_none row), fun _ h => absurd rfl h⟩

theorem of_replace (h : t.Within cells) {pk : Pk} {row : Row table} (hrow : cells.Has pk row) :
    Table.Within cells { t with base := t.base.replace pk row } := by
  refine ⟨fun pk' row' hget => ?_, h.metadata⟩
  rw [Keyed.get_replace] at hget
  split_ifs at hget with hpk
  · rw [hpk, ← Option.some.inj hget]
    exact hrow
  · exact h.base pk' row' hget

theorem of_deleteWhere (h : t.Within cells) (p : Pk → Row table → Bool) :
    Table.Within cells { t with base := t.base.deleteWhere p } := by
  refine ⟨fun pk row hget => ?_, h.metadata⟩
  rw [Keyed.get_deleteWhere, Option.filter_eq_some_iff] at hget
  exact h.base pk row hget.1

theorem of_metadata (h : t.Within cells) {metadata : Keyed (Pk × String) MetaRow}
    (hkeys : ∀ k, metadata.get k ≠ none → t.metadata.get k ≠ none ∨ cells.keys k.1) :
    Table.Within cells { t with metadata := metadata } :=
  ⟨h.base, fun k hget => (hkeys k hget).elim (h.metadata k) id⟩

theorem of_replaceMeta (h : t.Within cells) {k : Pk × String} (hk : cells.keys k.1) (m : MetaRow) :
    Table.Within cells { t with metadata := t.metadata.replace k m } := by
  apply h.of_metadata
  intro k' hget
  rw [Keyed.get_replace] at hget
  split_ifs at hget with hsame
  · exact .inr (hsame ▸ hk)
  · exact .inl hget

theorem of_updateMeta (h : t.Within cells) (p : Pk × String → Bool) (f : MetaRow → MetaRow) :
    Table.Within cells { t with metadata := t.metadata.updateWhere p f } := by
  apply h.of_metadata
  intro k hget
  rw [Keyed.get_updateWhere] at hget
  exact .inl fun hnone => hget (by rw [hnone]; rfl)

theorem of_deleteMeta (h : t.Within cells) (p : Pk × String → MetaRow → Bool) :
    Table.Within cells { t with metadata := t.metadata.deleteWhere p } := by
  apply h.of_metadata
  intro k hget
  rw [Keyed.get_deleteWhere] at hget
  exact .inl fun hnone => hget (by rw [hnone]; rfl)

theorem metaUpdateMove (h : t.Within cells) {pk : Pk} (hpk : cells.keys pk) (dbVersion seq : ℤ)
    (oldpk : Pk) : (t.metaUpdateMove pk dbVersion seq oldpk).Within cells := by
  apply h.of_metadata
  intro k hget
  by_cases hmoved : k.1 = pk
  · exact .inr (hmoved ▸ hpk)
  · rw [Keyed.get_moveWhere_of_ne _ _ _ _ _ fun a _ _ he => hmoved (congrArg Prod.fst he).symm] at hget
    split_ifs at hget with hold
    · exact absurd rfl hget
    · exact .inl hget

end Table.Within

/-- A change names a key of the cells and brings a value of the cell it writes. -/
def Change.Within {n : ℕ} {table : TableContext} (cells : Cells table) (c : Change n) : Prop :=
  cells.keys c.pk ∧ ((table.algo = .crdtGos ∨ c.name ≠ CLOUDSYNC_TOMBSTONE_VALUE) →
    ∀ col, tableColumnLookup table c.name = some col → cells.values c.pk col c.colValue)

section
variable {table : TableContext} (cells : Cells table) [∀ pk, Decidable (cells.keys pk)]
  [∀ pk col value, Decidable (cells.values pk col value)]

instance (pk : Pk) (row : Row table) : Decidable (cells.Has pk row) :=
  inferInstanceAs (Decidable (cells.keys pk ∧ ∀ col, cells.values pk col (row col)))

instance {n : ℕ} (c : Change n) : Decidable (c.Within cells) :=
  decidable_of_iff (cells.keys c.pk ∧
    ((table.algo = .crdtGos ∨ c.name ≠ CLOUDSYNC_TOMBSTONE_VALUE) →
      ∀ col ∈ tableColumnLookup table c.name, cells.values c.pk col c.colValue)) Iff.rfl

end

/-- A local change stores a row of the cells. -/
def RowChange.Within {table : TableContext} (cells : Cells table) : RowChange table → Prop
  | .insert _ pk row | .update _ _ pk row => cells.Has pk row
  | .delete _ => True

theorem Table.Within.writes {n : ℕ} {table : TableContext} {cells : Cells table}
    {t : Table table} {c : Change n} {d : Declaration table} (hplain : d.Plain cells)
    (hc : c.Within cells) {f : Table table → Table table} (hf : c.Writes table f)
    (h : t.Within cells) : (f t).Within cells := by
  cases hf with
  | @colMerge col hcol hname =>
    apply h.of_replace
    cases hget : t.base.get c.pk with
    | none => exact Declaration.Plain.has_update (hplain.has_dflt hc.1) (hc.2 hname col hcol)
    | some row => exact Declaration.Plain.has_update (h.base c.pk row hget) (hc.2 hname col hcol)
  | mergeDelete => exact h.of_deleteWhere _
  | mergeSentinel =>
    change (t.realMergeSentinel c.pk).Within cells
    rw [Table.realMergeSentinel]
    split_ifs
    · exact h
    · exact h.of_replace (hplain.has_dflt hc.1)
  | zeroClock => exact h.of_updateMeta _ _
  | winnerClock => exact h.of_replaceMeta hc.1 _
  | deleteDrop => exact h.of_deleteMeta _

/-! ## Replicas -/

section
variable {n : ℕ} {schema : Fin n → TableContext} {decl : (i : Fin n) → Declaration (schema i)}
  {cells : (i : Fin n) → Cells (schema i)} {r : Replica schema}

def Replica.Within (cells : (i : Fin n) → Cells (schema i)) (r : Replica schema) : Prop :=
  ∀ i, (r.table i).Within (cells i)

namespace Replica.Within

theorem setTable (h : r.Within cells) {i : Fin n} {t : Table (schema i)} (ht : t.Within (cells i)) :
    (r.setTable i t).Within cells := by
  intro j
  by_cases hj : j = i
  · subst hj
    rw [Replica.setTable_table_self]
    exact ht
  · rw [Replica.setTable_table_of_ne r hj]
    exact h j

theorem of_table {r' : Replica schema} (h : r.Within cells) (htable : r'.table = r.table) :
    r'.Within cells := fun i => htable ▸ h i

theorem of_ran (h : r.Within cells) (hplain : ∀ i, (decl i).Plain (cells i)) {c : Change n}
    (hc : c.Within (cells c.tbl)) {r' : Replica schema} (hran : Ran c r r') : r'.Within cells := by
  intro j
  by_cases hj : j = c.tbl
  · subst hj
    exact hran.invariant (fun f t hf ht => ht.writes (hplain c.tbl) hc hf) (h c.tbl)
  · rw [hran.tables j hj]
    exact h j

theorem withSeq (h : r.Within cells) {f : Replica schema → ℤ → Replica schema}
    (hf : ∀ r seq, r.Within cells → (f r seq).Within cells) : (Store.withSeq r f).Within cells :=
  hf r.bumpSeq.2 r.bumpSeq.1 (h.of_table r.bumpSeq_table)

variable {i : Fin n} {pk : Pk}

theorem localMark (h : r.Within cells) (hpk : (cells i).keys pk) (colName : Option String)
    (colVersion dbVersion seq : ℤ) :
    (localMarkInsertOrUpdateMetaImpl r i pk colName colVersion dbVersion seq).Within cells :=
  h.setTable ((h i).of_replaceMeta hpk _)

theorem markColumns (h : r.Within cells) (hpk : (cells i).keys pk) (dbVersion : ℤ)
    (cols : List (Fin (schema i).ncols)) :
    (Store.markColumns r i pk dbVersion cols).Within cells := by
  induction cols generalizing r with
  | nil => exact h
  | cons col cols ih => exact ih (h.withSeq fun r seq hr => hr.localMark hpk _ 1 dbVersion seq)

theorem sentinelMark (h : r.Within cells) (hpk : (cells i).keys pk) (dbVersion seq : ℤ) :
    (localMarkInsertSentinelMeta r i pk dbVersion seq).Within cells :=
  h.setTable ((h i).of_replaceMeta hpk _)

theorem cloudsyncInsert (h : r.Within cells) (hpk : (cells i).keys pk) :
    (Store.cloudsyncInsert r i pk).Within cells := by
  have hnext : (r.dbVersionNext CLOUDSYNC_VALUE_NOTSET).2.Within cells := h.of_table rfl
  apply markColumns _ hpk
  split_ifs
  · exact hnext.withSeq fun r seq hr => hr.sentinelMark hpk _ seq
  · exact hnext.withSeq fun r seq hr => hr.setTable ((hr i).of_updateMeta _ _)
  · exact hnext

theorem cloudsyncUpdate (h : r.Within cells) (hpk : (cells i).keys pk) {oldpk : Pk}
    (hold : (cells i).keys oldpk) (row oldRow : Row (schema i)) :
    (Store.cloudsyncUpdate r i pk oldpk row oldRow).Within cells := by
  have hnext : (r.dbVersionNext CLOUDSYNC_VALUE_NOTSET).2.Within cells := h.of_table rfl
  have hmove : ∀ (r : Replica schema) (dbVersion : ℤ), r.Within cells →
      (localUpdateMoveMeta r i pk oldpk dbVersion).Within cells :=
    fun r dbVersion hr => (hr.of_table r.bumpSeq_table).setTable
      ((hr i).metaUpdateMove hpk dbVersion _ oldpk)
  have hdelete : ∀ (r : Replica schema) (dbVersion : ℤ), r.Within cells →
      (Store.withSeq r fun r seq => localMarkDeleteMeta r i oldpk dbVersion seq).Within cells :=
    fun r dbVersion hr => hr.withSeq fun r seq hr => hr.localMark hold none 2 dbVersion seq
  apply markColumns _ hpk
  split_ifs
  · exact (hmove _ _ (hdelete _ _ hnext)).withSeq fun r seq hr => hr.sentinelMark hpk _ seq
  · exact hnext

theorem cloudsyncDelete (h : r.Within cells) (hpk : (cells i).keys pk) :
    (Store.cloudsyncDelete r i pk).Within cells := by
  have hnext : (r.dbVersionNext CLOUDSYNC_VALUE_NOTSET).2.Within cells := h.of_table rfl
  have hdelete : ∀ (r : Replica schema) (dbVersion : ℤ), r.Within cells →
      (Store.withSeq r fun r seq => localMarkDeleteMeta r i pk dbVersion seq).Within cells :=
    fun r dbVersion hr => hr.withSeq fun r seq hr => hr.localMark hpk none 2 dbVersion seq
  have hdrop : ∀ r : Replica schema, r.Within cells → (localDropMeta r i pk).Within cells :=
    fun r hr => hr.setTable ((hr i).of_deleteMeta fun k _ => Table.isColumnOf pk k)
  exact hdrop _ (hdelete _ _ hnext)

theorem applyRowChange (h : r.Within cells) {c : RowChange (schema i)} (hc : c.Within (cells i))
    {r' : Replica schema} (hr' : Store.applyRowChange r i c = some r') : r'.Within cells := by
  cases applyRowChange_applied hr' with
  | insert _ _ _ _ =>
    have hwritten := h.setTable ((h i).of_replace hc)
    split_ifs
    · exact hwritten
    · exact hwritten.cloudsyncInsert hc.1
  | update _ oldpk pk row oldRow hold _ =>
    have hwritten := h.setTable (((h i).of_deleteWhere fun k _ => k == oldpk).of_replace hc)
    split_ifs
    · exact hwritten
    · exact hwritten.cloudsyncUpdate hc.1 ((h i).base oldpk oldRow hold).1 row oldRow
  | delete pk oldRow hold =>
    have hwritten := h.setTable ((h i).of_deleteWhere fun k _ => k == pk)
    split_ifs
    · exact hwritten
    · exact hwritten.cloudsyncDelete ((h i).base pk oldRow hold).1

theorem applyStatement (h : r.Within cells) {rows : List (RowChange (schema i))}
    (hrows : ∀ c ∈ rows, c.Within (cells i)) {r' : Replica schema}
    (hr' : Store.applyStatement r i rows = some r') : r'.Within cells := by
  induction rows generalizing r with
  | nil =>
    cases hr'
    exact h
  | cons c rows ih =>
    rw [Store.applyStatement, List.foldlM_cons, Option.bind_eq_bind,
      Option.bind_eq_some_iff] at hr'
    rcases hr' with ⟨r₁, hr₁, hr'⟩
    exact ih (h.applyRowChange (hrows c List.mem_cons_self) hr₁)
      (fun d hd => hrows d (.tail c hd)) hr'

/-- What a replica sends keeps to the cells, in a grow-only table as far as it
names columns. -/
theorem feed (h : r.Within cells) {feed : List (Change n)} (hfeed : r.cloudsyncChanges = .ok feed)
    {c : Change n} (hc : c ∈ feed)
    (hgos : (schema c.tbl).algo = .crdtGos → c.name ≠ CLOUDSYNC_TOMBSTONE_VALUE) :
    c.Within (cells c.tbl) := by
  rcases cell_of_feed hfeed hc with ⟨hmeta, hcell⟩
  refine ⟨(h c.tbl).metadata _ hmeta, fun hname col hcol => ?_⟩
  rcases hcell.resolve_left (hname.elim hgos id) with ⟨col', hcol', hvalue⟩
  obtain rfl : col' = col := Option.some.inj (hcol'.symm.trans hcol)
  rcases Option.map_eq_some_iff.mp hvalue with ⟨row, hrow, hvalue⟩
  rw [← hvalue]
  exact ((h c.tbl).base c.pk row hrow).2 col'

end Replica.Within

/-! ## On the cells a declared table is a plain one -/

namespace Declared
variable (hplain : ∀ i, (decl i).Plain (cells i))
include hplain

theorem mergeInsertCol_eq (faults : Faults) (hr : r.Within cells) {i : Fin n} {pk : Pk}
    (hpk : (cells i).keys pk) {colName : String} {colValue : Value}
    (hvalue : ∀ col, tableColumnLookup (schema i) colName = some col →
      (cells i).values pk col colValue) (colVersion dbVersion : ℤ) (siteId : SiteId) (seq : ℤ) :
    mergeInsertCol decl faults r i pk colName colValue colVersion dbVersion siteId seq =
      Store.mergeInsertCol faults r i pk colName colValue colVersion dbVersion siteId seq := by
  rw [mergeInsertCol, Store.mergeInsertCol]
  cases hcol : tableColumnLookup (schema i) colName with
  | none => rfl
  | some col =>
    have hstep : ∀ r : Replica schema, r.Within cells →
        stepUpsert decl faults r i pk col colValue =
          stepStmt faults r i .colMerge fun t => t.colMerge pk col colValue := by
      intro r hr
      rw [stepUpsert, (hplain i).colMerge_eq (hr i) hpk (hvalue col hcol)]
      rfl
    have hgos : ∀ (gos enabled : Bool),
        (if gos then r.setEnabled i enabled else r).Within cells := by
      intro gos enabled
      cases gos
      · exact hr
      · exact hr.of_table (r.setEnabled_table i enabled)
    have hset := (hgos ((schema i).algo == .crdtGos) false).of_table (Replica.setInsync_table _ true)
    simp only [hstep _ hset, stepInsync]

theorem mergeDelete_eq (faults : Faults) (hr : r.Within cells) {i : Fin n} {pk : Pk}
    (hpk : (cells i).keys pk) (colname : String) (cl dbVersion : ℤ) (siteId : SiteId) (seq : ℤ) :
    mergeDelete decl faults r i pk colname cl dbVersion siteId seq =
      Store.mergeDelete faults r i pk colname cl dbVersion siteId seq := by
  rw [mergeDelete, Store.mergeDelete, stepInsync, stepInsync, stepStmt, stepStmt]
  rw [Replica.setInsync_table, (hplain i).realMergeDelete_eq (hr i) hpk]

theorem mergeSentinelOnlyInsert_eq (faults : Faults) (hr : r.Within cells) {i : Fin n} {pk : Pk}
    (hpk : (cells i).keys pk) (cl dbVersion : ℤ) (siteId : SiteId) (seq : ℤ) :
    mergeSentinelOnlyInsert decl faults r i pk cl dbVersion siteId seq =
      Store.mergeSentinelOnlyInsert faults r i pk cl dbVersion siteId seq := by
  rw [mergeSentinelOnlyInsert, Store.mergeSentinelOnlyInsert, stepInsync, stepInsync, stepStmt,
    stepStmt]
  rw [Replica.setInsync_table, (hplain i).realMergeSentinel_eq (hr i) hpk]

theorem mergeDidCidWin_eq (faults : Faults) (hr : r.Within cells) {i : Fin n} {pk : Pk}
    (hpk : (cells i).keys pk) (insertValue : Value) (colName : String) (colVersion : ℤ) :
    mergeDidCidWin decl faults r i pk insertValue colName colVersion =
      Store.mergeDidCidWin faults r i pk insertValue colName colVersion := by
  simp only [mergeDidCidWin, (hplain i).colValue_eq (hr i) hpk]
  rfl

theorem mergeColumn_eq (faults : Faults) (hr : r.Within cells) {c : Change n}
    (hc : c.Within (cells c.tbl)) (hname : c.name ≠ CLOUDSYNC_TOMBSTONE_VALUE)
    (needsResurrect rowExistsLocally : Bool) :
    mergeColumn decl faults r c needsResurrect rowExistsLocally =
      Store.mergeColumn faults r c needsResurrect rowExistsLocally := by
  rw [mergeColumn, mergeDidCidWin_eq hplain faults hr hc.1,
    mergeInsertCol_eq hplain faults hr hc.1 (hc.2 (.inr hname))]
  rfl

theorem cloudsyncMergeInsert_eq (faults : Faults) (hr : r.Within cells) {c : Change n}
    (hc : c.Within (cells c.tbl)) :
    cloudsyncMergeInsert decl faults r c = Store.cloudsyncMergeInsert faults r c := by
  rw [cloudsyncMergeInsert, Store.cloudsyncMergeInsert, mergeDelete_eq hplain faults hr hc.1]
  by_cases hgos : (schema c.tbl).algo = .crdtGos
  · rw [if_pos hgos, if_pos hgos, cloudsyncMergeInsertGos,
      mergeInsertCol_eq hplain faults hr hc.1 (hc.2 (.inl hgos))]
  rw [if_neg hgos, if_neg hgos]
  cases faults .localCl with
  | some err => rfl
  | none =>
    simp only [mergeSentinelOnlyInsert_eq hplain faults hr hc.1]
    split_ifs with _ _ _ _ hname
    · rfl
    · rfl
    · rfl
    · rfl
    · rfl
    · rfl
    · generalize hx : (Store.mergeSentinelOnlyInsert faults r c.tbl c.pk c.cl c.dbVersion c.siteId
        c.seq).describe "Unable to perform merge_sentinel_only_insert: " = x
      have hwithin : x.2.Within cells := hx ▸ hr.of_ran hplain hc
        (((Ran.refl c r).mergeSentinelOnlyInsert c.cl c.dbVersion c.siteId c.seq).describe _)
      rcases x with ⟨err | ⟨⟩, r'⟩
      · rfl
      · exact mergeColumn_eq hplain faults hwithin hc hname _ _
    · exact mergeColumn_eq hplain faults hr hc hname _ _

theorem applyRowChange_eq (hr : r.Within cells) {i : Fin n} {c : RowChange (schema i)}
    (hc : c.Within (cells i)) : applyRowChange decl r i c = Store.applyRowChange r i c := by
  cases c with
  | insert orReplace pk row =>
    rw [applyRowChange, Store.applyRowChange, (hplain i).write_eq (hr i).base orReplace hc]
    split_ifs <;> rfl
  | update orReplace oldpk pk row =>
    have hbase := ((hr i).of_deleteWhere fun k _ => k == oldpk).base
    have hfree : ((r.table i).base.deleteWhere fun k _ => k == oldpk).get pk ≠ none ↔
        pk ≠ oldpk ∧ (r.table i).base.get pk ≠ none := by
      rw [Keyed.get_deleteWhere]
      cases (r.table i).base.get pk with
      | none => simp
      | some row' => simp
    rw [applyRowChange, Store.applyRowChange]
    cases (r.table i).base.get oldpk with
    | none => rfl
    | some oldRow =>
      simp only [(hplain i).write_eq hbase orReplace hc, hfree, and_assoc]
      by_cases hgos : (schema i).algo = .crdtGos ∧ r.enabled i = true
      · rw [if_pos hgos, if_pos hgos]
      rw [if_neg hgos, if_neg hgos]
      by_cases htaken : pk ≠ oldpk ∧ (r.table i).base.get pk ≠ none ∧ orReplace = false
      · rw [if_pos htaken, if_pos htaken]
        rfl
      · rw [if_neg htaken, if_neg htaken]
        rfl
  | delete pk => rfl

theorem cloudsyncChanges_eq (hr : r.Within cells) :
    cloudsyncChanges decl r = r.cloudsyncChanges := by
  have htable : ∀ i, tableChanges decl r i = r.tableChanges i := by
    intro i
    rw [tableChanges, Replica.tableChanges]
    congr 1
    apply mapM_except_congr
    intro row hrow
    have hkey := (hr i).metadata row.1 (by
      rw [(Keyed.get_eq_some_iff _ row.1 row.2).mpr hrow]
      exact Option.some_ne_none row.2)
    rw [(hplain i).cloudsyncColValue_eq (hr i) hkey]
  rw [cloudsyncChanges, Replica.cloudsyncChanges, funext htable]

end Declared
end
end SqliteSync.Store
