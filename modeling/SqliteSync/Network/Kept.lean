import SqliteSync.Causal.MergeEffect
import SqliteSync.Store.Feed

/-!
# What the feed still shows of a row

After a local write or a merge each metadata row is one that was there before,
with the causal length the feed showed for it, or has been stamped anew. The
exceptions are named: a column that outlives the sentinel of its key.
-/
namespace SqliteSync.Network
open Library Clock Store

section
variable {table : TableContext}

def rowCl (s : RowState table) : ℤ := (s.sentinel.map MetaRow.colVersion).getD 1

/-- The metadata `s'` of a key after a local write at the db version `v`: kept from
`s`, or stamped with a number from `q` on, or one of `out` beside a new sentinel. -/
def Marked (v q : ℤ) (out : String → Prop) (s s' : RowState table) : Prop :=
  ∀ name m, s'.info name = some m →
    (s.info name = some m ∧ rowCl s' = rowCl s) ∨
      (m.siteId = 0 ∧ m.dbVersion = v ∧ q ≤ m.seq) ∨
      (s.info name = some m ∧ out name ∧ s.sentinel ≠ none)

namespace Marked
variable {v q : ℤ} {out out' : String → Prop} {s s' u : RowState table}

theorem refl (v q : ℤ) (out : String → Prop) (s : RowState table) : Marked v q out s s :=
  fun _ _ hm => .inl ⟨hm, rfl⟩

theorem mono (h : Marked v q out s s') (hout : ∀ name, out name → out' name) :
    Marked v q out' s s' :=
  fun name m hm => (h name m hm).imp_right (.imp_right fun h => ⟨h.1, hout name h.2.1, h.2.2⟩)

theorem markColumns (h : Marked v q out s s') {cols : List (Fin table.ncols)} {seq : String → ℤ}
    (hseq : ∀ name, q ≤ seq name)
    (hout : ∀ name, out name → (∀ col ∈ cols, table.colName col ≠ name) → out' name) :
    Marked v q out' s (s'.markColumns cols v seq) := by
  intro name m hm
  by_cases hname : ∃ col ∈ cols, table.colName col = name
  · rcases hname with ⟨col, hcol, rfl⟩
    rw [RowState.markColumns_of_mem _ hcol, Option.some.injEq] at hm
    subst hm
    exact .inr (.inl ⟨rfl, rfl, hseq _⟩)
  · have hnot : ∀ col ∈ cols, table.colName col ≠ name := fun col hcol he => hname ⟨col, hcol, he⟩
    rw [RowState.markColumns_of_notMem _ hnot] at hm
    have hcl : rowCl (s'.markColumns cols v seq) = rowCl s' := by
      rw [rowCl, RowState.markColumns_sentinel]
      rfl
    rcases h name m hm with ⟨hold, hsame⟩ | hnew | ⟨hold, hmem, hsentinel⟩
    · exact .inl ⟨hold, hcl.trans hsame⟩
    · exact .inr (.inl hnew)
    · exact .inr (.inr ⟨hold, hout name hmem hnot, hsentinel⟩)

theorem markAlive (hsentinel : u.sentinel = s.sentinel)
    (hu : ∀ name m, name ≠ CLOUDSYNC_TOMBSTONE_VALUE → u.info name = some m →
      (s.info name = some m ∧ out name) ∨ (m.siteId = 0 ∧ m.dbVersion = v ∧ q ≤ m.seq))
    {seq : ℤ} (hseq : q ≤ seq) : Marked v q out s (u.markAlive v seq) := by
  intro name m hm
  rw [RowState.markAlive, RowState.setInfo_info] at hm
  split_ifs at hm with hname
  · rw [Option.some.injEq] at hm
    subst hm
    exact .inr (.inl ⟨rfl, rfl, hseq⟩)
  · rcases hu name m hname hm with ⟨hold, hout⟩ | hnew
    · cases hs : s.sentinel with
      | none =>
        refine .inl ⟨hold, ?_⟩
        rw [rowCl, rowCl, hs, RowState.sentinel, RowState.markAlive, RowState.setInfo_info,
          if_pos rfl, hsentinel, hs]
        rfl
      | some r => exact .inr (.inr ⟨hold, hout, Option.some_ne_none r⟩)
    · exact .inr (.inl hnew)

theorem inserted (s : RowState table) {seq₁ : ℤ} {seq : String → ℤ} (hseq₁ : q ≤ seq₁)
    (hseq : ∀ name, q ≤ seq name) :
    Marked v q (fun name => name ≠ CLOUDSYNC_TOMBSTONE_VALUE ∧ ∀ col, table.colName col ≠ name) s
      (s.inserted v seq₁ seq) := by
  have halive : Marked v q (fun name => name ≠ CLOUDSYNC_TOMBSTONE_VALUE) s (s.markAlive v seq₁) :=
    .markAlive rfl (fun _ _ hname hm => .inl ⟨hm, hname⟩) hseq₁
  have hbump : Marked v q (fun name => name ≠ CLOUDSYNC_TOMBSTONE_VALUE) s
      (s.bumpAlive v seq₁) := by
    rw [RowState.bumpAlive]
    cases s.sentinel with
    | none => exact refl v q _ s
    | some m => exact halive
  rw [RowState.inserted]
  have hsentinel : Marked v q (fun name => name ≠ CLOUDSYNC_TOMBSTONE_VALUE) s
      (if table.ncols = 0 then s.markAlive v seq₁ else s.bumpAlive v seq₁) := by
    split_ifs
    · exact halive
    · exact hbump
  exact hsentinel.markColumns hseq fun name hname hcols =>
    ⟨hname, fun col => hcols col (List.mem_finRange col)⟩

theorem deleted (s : RowState table) {seq₁ : ℤ} (hseq₁ : q ≤ seq₁) :
    Marked v q (fun _ => False) s (s.deleted v seq₁) := by
  intro name m hm
  rw [RowState.deleted, RowState.dropColumns_info] at hm
  split_ifs at hm with hname
  rw [RowState.markDeleted, RowState.setInfo_info, if_pos hname, Option.some.injEq] at hm
  subst hm
  exact .inr (.inl ⟨rfl, rfl, hseq₁⟩)

theorem arrived (s old : RowState table) (cols : List (Fin table.ncols)) {seq₂ seq₃ : ℤ}
    {seq : String → ℤ} (hseq₂ : q ≤ seq₂) (hseq₃ : q ≤ seq₃) (hseq : ∀ name, q ≤ seq name) :
    Marked v q (fun name => (name ≠ CLOUDSYNC_TOMBSTONE_VALUE ∧ old.info name = none) ∧
        ∀ col ∈ cols, table.colName col ≠ name) s (s.arrived old cols v seq₂ seq₃ seq) := by
  have halive : Marked v q (fun name => name ≠ CLOUDSYNC_TOMBSTONE_VALUE ∧ old.info name = none) s
      ((s.receive old v seq₂).markAlive v seq₃) := by
    apply markAlive _ _ hseq₃
    · rw [RowState.sentinel, RowState.receive_info, if_pos rfl]
      rfl
    · intro name m hname hm
      rw [RowState.receive_info, if_neg hname] at hm
      split_ifs at hm with hnone
      · exact .inl ⟨hm, hname, hnone⟩
      · rw [Option.some.injEq] at hm
        subst hm
        exact .inr ⟨rfl, rfl, hseq₂⟩
  exact halive.markColumns hseq fun name hname hcols => ⟨hname, hcols⟩

end Marked
end

section
variable {n : ℕ} {schema : Fin n → TableContext}

def clAt (r : Replica schema) (p : Place n) : ℤ := (r.table p.1).feedCl p.2.1

theorem clAt_eq (r : Replica schema) (p : Place n) :
    clAt r p = ((r.metaAt (p.1, p.2.1, CLOUDSYNC_TOMBSTONE_VALUE)).map MetaRow.colVersion).getD 1 :=
  rfl

/-- The columns under the key a local change writes that its trigger does not mark. -/
def Outlives (r : Replica schema) (i : Fin n) : RowChange (schema i) → Pk → String → Prop
  | .insert _ pk _, pk', name =>
    pk' = pk ∧ name ≠ CLOUDSYNC_TOMBSTONE_VALUE ∧ ∀ col, (schema i).colName col ≠ name
  | .update _ oldpk pk row, pk', name =>
    pk' = pk ∧ prikeyChanged pk oldpk = true ∧
      (name ≠ CLOUDSYNC_TOMBSTONE_VALUE ∧ r.metaAt (i, oldpk, name) = none) ∧
      ∀ oldRow, (r.table i).base.get oldpk = some oldRow →
        ∀ col ∈ changedColumns row oldRow, (schema i).colName col ≠ name
  | .delete _, _, _ => False

/-- The trigger of the change marks some column, or the row as a whole. -/
def Stamps (r : Replica schema) (i : Fin n) : RowChange (schema i) → Prop
  | .insert _ _ _ => True
  | .update _ oldpk pk row => prikeyChanged pk oldpk = true ∨
      ∃ oldRow, (r.table i).base.get oldpk = some oldRow ∧ changedColumns row oldRow ≠ []
  | .delete _ => True

/-- A local change has led from `r` to `r'`, and its trigger has recorded it. -/
structure Written (r r' : Replica schema) (i : Fin n) (c : RowChange (schema i)) : Prop where
  clocked : Clocked r r' [(r.dbVersionNext CLOUDSYNC_VALUE_NOTSET).1]
  sites : r'.siteIds = r.siteIds
  rows : ∀ p m, r'.metaAt p = some m → (r.metaAt p = some m ∧ clAt r' p = clAt r p) ∨
    (Stamps r i c ∧ m.siteId = 0 ∧ m.dbVersion = (r.dbVersionNext CLOUDSYNC_VALUE_NOTSET).1 ∧
      r.data.seq ≤ m.seq) ∨
    (r.metaAt p = some m ∧ p.1 = i ∧ Outlives r i c p.2.1 p.2.2 ∧
      r.metaAt (i, p.2.1, CLOUDSYNC_TOMBSTONE_VALUE) ≠ none)

/-- What the trigger does to the metadata of each key tells what it does to every place. -/
theorem Written.of_marked {r r' : Replica schema} {i : Fin n} {c : RowChange (schema i)}
    {rows : Pk → RowState (schema i)}
    (h : Holds r r' i rows [(r.dbVersionNext CLOUDSYNC_VALUE_NOTSET).1])
    (hstamps : Stamps r i c ∨ ∀ pk, (rows pk).info = (r.rows i pk).info)
    (hrows : ∀ pk, Marked (r.dbVersionNext CLOUDSYNC_VALUE_NOTSET).1 r.data.seq (Outlives r i c pk)
      (r.rows i pk) (rows pk)) : Written r r' i c where
  clocked := h.clocked
  sites := h.siteIds
  rows := by
    rintro ⟨j, pk, name⟩ m hm
    by_cases hj : j = i
    · subst hj
      have hinfo : (rows pk).info name = some m := by
        rw [← h.rowAt]
        exact hm
      have hcl : rowCl (rows pk) = clAt r' (j, pk, name) := by
        rw [← h.rowAt]
        rfl
      rcases hrows pk name m hinfo with ⟨hold, hsame⟩ | hnew | ⟨hold, hout, hsentinel⟩
      · exact .inl ⟨hold, hcl.symm.trans hsame⟩
      · rcases hstamps with hstamps | hsame
        · exact .inr (.inl ⟨hstamps, hnew⟩)
        · rw [hsame] at hinfo
          refine .inl ⟨hinfo, hcl.symm.trans ?_⟩
          rw [rowCl, RowState.sentinel, hsame]
          rfl
      · exact .inr (.inr ⟨hold, rfl, hout, hsentinel⟩)
    · have htable := h.tables j hj
      refine .inl ⟨?_, ?_⟩
      · rw [← hm, Replica.metaAt, Replica.metaAt, htable]
      · rw [clAt, clAt, htable]

/-- The trigger of a local change is off, and nothing changes in the metadata. -/
structure Unrecorded (r r' : Replica schema) : Prop where
  metaAt : r'.metaAt = r.metaAt
  data : r'.data = r.data
  dataVersion : r'.dataVersion = r.dataVersion
  sites : r'.siteIds = r.siteIds

theorem Unrecorded.of_base {r : Replica schema} {i : Fin n} {t : Table (schema i)}
    (ht : t.metadata = (r.table i).metadata) : Unrecorded r (r.setTable i t) :=
  ⟨metaAt_setTable_of_metadata ht, rfl, rfl, rfl⟩

theorem applyRowChange_written {r r' : Replica schema} {i : Fin n} {c : RowChange (schema i)}
    (h : applyRowChange r i c = some r') :
    ¬ r.Records i c ∧ Unrecorded r r' ∨ r.Records i c ∧ Written r r' i c := by
  cases applyRowChange_applied h with
  | insert _ pk row _ =>
    split_ifs with hoff
    · exact .inl ⟨not_not.mpr hoff, .of_base rfl⟩
    · right
      refine ⟨hoff, ?_⟩
      rcases Holds.writeBase (r := r) (i := i) (t := (r.table i).insertBase pk row) rfl
        (fun _ => rfl) with ⟨hbase, hversion⟩
      rcases hbase.cloudsyncInsert pk with ⟨seq₁, seq, hseq₁, hseq, hfinal⟩
      rw [hversion] at hfinal
      refine Written.of_marked hfinal (.inl trivial) fun pk' => ?_
      rw [Function.update_apply]
      split_ifs with hpk
      · subst hpk
        exact (Marked.inserted (((r.table i).insertBase pk' row).rowAt pk') hseq₁ hseq).mono
          fun name hname => ⟨rfl, hname⟩
      · exact .refl _ _ _ _
  | update orReplace oldpk pk row oldRow hold _ =>
    split_ifs with hoff
    · exact .inl ⟨not_not.mpr hoff, .of_base rfl⟩
    · right
      refine ⟨hoff, ?_⟩
      rcases Holds.writeBase (r := r) (i := i) (t := (r.table i).updateBase oldpk pk row) rfl
        (fun _ => rfl) with ⟨hbase, hversion⟩
      cases hchanged : prikeyChanged pk oldpk with
      | false =>
        rcases hbase.cloudsyncUpdate hchanged row oldRow with ⟨seq, hseq, hfinal⟩
        rw [hversion] at hfinal
        have hstamps : Stamps r i (.update orReplace oldpk pk row) ∨
            changedColumns row oldRow = [] := by
          by_cases hnil : changedColumns row oldRow = []
          · exact .inr hnil
          · exact .inl (.inr ⟨oldRow, hold, hnil⟩)
        have hsame : changedColumns row oldRow = [] → ∀ pk',
            (Function.update ((r.table i).updateBase oldpk pk row).rowAt pk
              ((((r.table i).updateBase oldpk pk row).rowAt pk).markColumns
                (changedColumns row oldRow) (r.dbVersionNext CLOUDSYNC_VALUE_NOTSET).1 seq)
              pk').info = (r.rows i pk').info := by
          intro hnil pk'
          rw [Function.update_apply, hnil]
          split_ifs with hpk
          · funext name
            rw [hpk, RowState.markColumns_of_notMem _ (by simp)]
            rfl
          · rfl
        refine Written.of_marked hfinal (hstamps.imp_right hsame) fun pk' => ?_
        rw [Function.update_apply]
        split_ifs with hpk
        · subst hpk
          exact (Marked.refl _ _ (fun _ => False)
            (((r.table i).updateBase oldpk pk' row).rowAt pk')).markColumns hseq
              fun _ hfalse => hfalse.elim
        · exact .refl _ _ _ _
      | true =>
        have hne : pk ≠ oldpk := by
          rintro rfl
          rw [prikeyChanged_self] at hchanged
          cases hchanged
        rcases hbase.cloudsyncUpdate_moved hchanged hne row oldRow with
          ⟨seqMove, seqAlive, seq, hmove, halive, hseq, hfinal⟩
        rw [hversion] at hfinal
        refine Written.of_marked hfinal (.inl (.inl hchanged)) fun pk' => ?_
        rw [Function.update_apply, Function.update_apply]
        split_ifs with hpk hpk'
        · subst hpk
          apply (Marked.arrived (((r.table i).updateBase oldpk pk' row).rowAt pk')
            (((r.table i).updateBase oldpk pk' row).rowAt oldpk) (changedColumns row oldRow)
            hmove halive hseq).mono
          intro name hname
          refine ⟨rfl, hchanged, hname.1, fun row' hrow' => ?_⟩
          rw [hold, Option.some.injEq] at hrow'
          exact hrow' ▸ hname.2
        · subst hpk'
          exact (Marked.deleted (((r.table i).updateBase pk' pk row).rowAt pk') le_rfl).mono
            fun _ hfalse => hfalse.elim
        · exact .refl _ _ _ _
  | delete pk oldRow hold =>
    split_ifs with hoff
    · exact .inl ⟨not_not.mpr hoff, .of_base rfl⟩
    · right
      refine ⟨hoff, ?_⟩
      rcases Holds.writeBase (r := r) (i := i) (t := (r.table i).realMergeDelete pk) rfl
        (fun _ => rfl) with ⟨hbase, hversion⟩
      have hfinal := hbase.cloudsyncDelete pk
      rw [hversion] at hfinal
      refine Written.of_marked hfinal (.inl trivial) fun pk' => ?_
      rw [Function.update_apply]
      split_ifs with hpk
      · subst hpk
        exact (Marked.deleted (((r.table i).realMergeDelete pk').rowAt pk') le_rfl).mono
          fun _ hfalse => hfalse.elim
      · exact .refl _ _ _ _

/-! ## Merges -/

theorem clAt_congr {r r' : Replica schema} {p : Place n}
    (h : r'.metaAt (p.1, p.2.1, CLOUDSYNC_TOMBSTONE_VALUE) =
      r.metaAt (p.1, p.2.1, CLOUDSYNC_TOMBSTONE_VALUE)) : clAt r' p = clAt r p := by
  rw [clAt_eq, clAt_eq, h]

def Applies (r : Replica schema) (c : Change n) : Prop :=
  r.Buries c ∨ r.Revives c ∨ r.ColumnWins c ∧ tableColumnLookup (schema c.tbl) c.name ≠ none

/-- A column of the key of a change that starts over at the version of the merge. -/
structure Restarted (r : Replica schema) (c : Change n) (p : Place n) (m : MetaRow) : Prop where
  names : c.Names p
  column : p.2.2 ≠ CLOUDSYNC_TOMBSTONE_VALUE
  old : ∃ m', r.metaAt p = some m' ∧ m.stamp = ((r.dbVersionNext c.dbVersion).1, m'.seq) ∧
    m.siteId = m'.siteId

/-- The metadata of the key has its sentinel from the change, and columns that start over. -/
theorem revived_cases {r : Replica schema} {c : Change n} {cl : ℤ} {p : Place n} {m : MetaRow}
    (h : r.revived c cl p = some m) :
    m = r.incoming c cl ∨ Restarted r c p m ∨ ¬ c.Names p ∧ r.metaAt p = some m := by
  rw [Replica.revived] at h
  split_ifs at h with hsentinel hcolumn
  · exact .inl (Option.some_inj.mp h).symm
  · rcases (c.isColumnOf_iff p).mp hcolumn with ⟨hnames, hname⟩
    rcases Option.map_eq_some_iff.mp h with ⟨m', hm', rfl⟩
    exact .inr (.inl ⟨hnames, hname, m', hm', rfl, rfl⟩)
  · refine .inr (.inr ⟨fun hnames => ?_, h⟩)
    by_cases hname : p.2.2 = CLOUDSYNC_TOMBSTONE_VALUE
    · exact hsentinel (hnames.ext ⟨rfl, rfl⟩ hname)
    · exact hcolumn ((c.isColumnOf_iff p).mpr ⟨hnames, hname⟩)

theorem revived_of_not_names {r : Replica schema} {c : Change n} (cl : ℤ) {p : Place n}
    (h : ¬ c.Names p) : r.revived c cl p = r.metaAt p := by
  rw [Replica.revived, if_neg, if_neg]
  · exact fun hcolumn => h ((c.isColumnOf_iff p).mp hcolumn).1
  · rintro rfl
    exact h ⟨rfl, rfl⟩

/-- The change names the sentinel, and the table finds a column by that name. -/
def NamesSentinel (schema : Fin n → TableContext) (c : Change n) : Prop :=
  (schema c.tbl).algo = .crdtGos ∧ c.name = CLOUDSYNC_TOMBSTONE_VALUE

/-- A merge keeps a metadata row with the length the feed showed, writes that of
the change, or lets a column of the key start over. -/
theorem mergeEffect_rows {r r' : Replica schema} {c : Change n} (h : MergeEffect r r' c)
    {p : Place n} {m : MetaRow} (hm : r'.metaAt p = some m) :
    (r.metaAt p = some m ∧ clAt r' p = clAt r p) ∨
      (Applies r c ∧ ∃ colVersion, m = r.incoming c colVersion) ∨
      (r.Revives c ∧ Restarted r c p m) ∨
      (Applies r c ∧ NamesSentinel schema c ∧ c.Names p ∧
        p.2.2 ≠ CLOUDSYNC_TOMBSTONE_VALUE ∧ r.metaAt p = some m) := by
  -- a place of another key keeps its row, and the sentinel beside it
  have hother : ∀ q : Place n, ¬ c.Names q → q ≠ (c.tbl, c.pk, c.name) := by
    rintro q hq rfl
    exact hq ⟨rfl, rfl⟩
  cases h with
  | idle he =>
    subst he
    exact .inl ⟨hm, rfl⟩
  | bury hburies hsites hmeta =>
    have hplace := hmeta p
    rw [hm] at hplace
    split_ifs at hplace with hcolumn
    rw [Function.update_apply] at hplace
    split_ifs at hplace with hp
    · exact .inr (.inl ⟨.inl hburies, _, Option.some_inj.mp hplace⟩)
    · refine .inl ⟨hplace.symm, clAt_congr ?_⟩
      rw [hmeta, if_neg (by simp [Table.isColumnOf]), Function.update_apply, if_neg]
      intro he
      have hnames : c.Names p :=
        ⟨congrArg Prod.fst he, congrArg (fun q : Place n => q.2.1) he⟩
      have htomb : p.2.2 = CLOUDSYNC_TOMBSTONE_VALUE := by
        by_contra hne
        exact hcolumn ((c.isColumnOf_iff p).mpr ⟨hnames, hne⟩)
      apply hp
      rw [← he, ← htomb]
  | revive cl hrevives hsites hmeta =>
    rw [hmeta] at hm
    rcases revived_cases hm with hnew | hrestarted | ⟨hnot, hold⟩
    · exact .inr (.inl ⟨.inr (.inl hrevives), cl, hnew⟩)
    · exact .inr (.inr (.inl ⟨hrevives, hrestarted⟩))
    · have htomb : ¬ c.Names (p.1, p.2.1, CLOUDSYNC_TOMBSTONE_VALUE) := hnot
      refine .inl ⟨hold, clAt_congr ?_⟩
      rw [hmeta, revived_of_not_names cl htomb]
  | take hwins hcol hsites hmeta =>
    have happlies : Applies r c := .inr (.inr ⟨hwins, hcol⟩)
    rw [hmeta, Function.update_apply] at hm
    split_ifs at hm with hp
    · exact .inr (.inl ⟨happlies, _, (Option.some_inj.mp hm).symm⟩)
    · by_cases he : (p.1, p.2.1, CLOUDSYNC_TOMBSTONE_VALUE) = (c.tbl, c.pk, c.name)
      · have htomb : c.name = CLOUDSYNC_TOMBSTONE_VALUE :=
          (congrArg (fun q : Place n => q.2.2) he).symm
        have hgos : (schema c.tbl).algo = .crdtGos :=
          hwins.resolve_right fun hwins => hwins.2.2.2.1 htomb
        have hcolumn : p.2.2 ≠ CLOUDSYNC_TOMBSTONE_VALUE := by
          intro hname
          apply hp
          rw [← he, ← hname]
        exact .inr (.inr (.inr ⟨happlies, ⟨hgos, htomb⟩,
          ⟨congrArg Prod.fst he, congrArg (fun q : Place n => q.2.1) he⟩, hcolumn, hm⟩))
      · refine .inl ⟨hm, clAt_congr ?_⟩
        rw [hmeta, Function.update_apply, if_neg he]
  | reviveTake hwins hcol hres hsites hmeta =>
    have hrevives : r.Revives c := .inr ⟨hwins, hres⟩
    rw [hmeta, Function.update_apply] at hm
    split_ifs at hm with hp
    · exact .inr (.inl ⟨.inr (.inl hrevives), _, (Option.some_inj.mp hm).symm⟩)
    · rcases revived_cases hm with hnew | hrestarted | ⟨hnot, hold⟩
      · exact .inr (.inl ⟨.inr (.inl hrevives), _, hnew⟩)
      · exact .inr (.inr (.inl ⟨hrevives, hrestarted⟩))
      · have htomb : ¬ c.Names (p.1, p.2.1, CLOUDSYNC_TOMBSTONE_VALUE) := hnot
        refine .inl ⟨hold, clAt_congr ?_⟩
        rw [hmeta, Function.update_apply, if_neg (hother _ htomb), revived_of_not_names _ htomb]

theorem applies_of_effect {r r' : Replica schema} {c : Change n} (h : MergeEffect r r' c) :
    r' = r ∨ Applies r c ∧ r'.siteIds = (getsetSiteid r.siteIds c.siteId).2 := by
  cases h with
  | idle he => exact .inl he
  | bury hburies hsites => exact .inr ⟨.inl hburies, hsites⟩
  | revive cl hrevives hsites => exact .inr ⟨.inr (.inl hrevives), hsites⟩
  | take hwins hcol hsites => exact .inr ⟨.inr (.inr ⟨hwins, hcol⟩), hsites⟩
  | reviveTake hwins hcol hres hsites => exact .inr ⟨.inr (.inr ⟨hwins, hcol⟩), hsites⟩

/-- A change of a column that brings its row to life is written over the column. -/
theorem metaAt_of_revives {r : Replica schema} {c : Change n}
    (hset : r.checked.dbVersion ≠ CLOUDSYNC_VALUE_NOTSET) (hrevives : r.Revives c)
    (hcol : tableColumnLookup (schema c.tbl) c.name ≠ none)
    (hname : c.name ≠ CLOUDSYNC_TOMBSTONE_VALUE) :
    (cloudsyncMergeInsert noFaults r c).2.metaAt (c.tbl, c.pk, c.name) =
      some (r.incoming c c.colVersion) := by
  rcases hrevives with hsentinel | ⟨hwins, hgos, hlt, hlife⟩
  · exact absurd hsentinel.2.2.2.2 hname
  rcases hwins.resolve_left hgos with ⟨hpos, -, hodd, -, -⟩
  rcases Option.ne_none_iff_exists'.mp hcol with ⟨col, hcol⟩
  have hneeds : (decide (c.cl > (r.table c.tbl).metaLocalCl c.pk) &&
      decide (c.cl.tmod 2 = 1)) = true := by
    have hmod : c.cl.tmod 2 = c.cl % 2 := Int.tmod_eq_emod_of_nonneg (hpos.trans hlt.le)
    rw [Bool.and_eq_true, decide_eq_true_eq, decide_eq_true_eq, hmod]
    rw [hmod] at hodd
    omega
  have hresurrects : ((decide (c.cl > (r.table c.tbl).metaLocalCl c.pk) &&
      decide (c.cl.tmod 2 = 1)) && (decide ((r.table c.tbl).metaLocalCl c.pk ≠ 0) ||
        decide (c.cl > 1))) = true := by
    rw [hneeds, Bool.true_and, Bool.or_eq_true, decide_eq_true_eq, decide_eq_true_eq]
    exact hlife
  rw [cloudsyncMergeInsert, if_neg hgos]
  simp only [noFaults_apply]
  rw [if_neg (not_lt.mpr hpos), if_neg (not_lt.mpr hlt.le), if_neg hodd, if_neg hname,
    if_pos hresurrects]
  rcases (Merging.refl r c.dbVersion).mergeSentinelOnlyInsert hset c.pk c.cl c.siteId c.seq with
    ⟨r', hr', -, hsites, h'⟩
  rw [hr', Outcome.describe_ok, Outcome.andThen_ok, mergeColumn_of_wins r' c hcol (.inl hneeds),
    Outcome.describe_snd]
  rcases h'.mergeInsertCol hset c.pk hcol c.colValue c.colVersion c.siteId c.seq with
    ⟨r'', hr'', hmeta, -⟩
  rw [hr'', hmeta, Function.update_self, hsites, getsetSiteid_snd]
  rfl

end
end SqliteSync.Network
