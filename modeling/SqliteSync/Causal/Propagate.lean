import SqliteSync.Causal.Bootstrap
import SqliteSync.Causal.Restamped

/-!
# How a local statement propagates

Another replica with the same rows merges what the feed carries at the db
version of a local statement. It follows the statement when the clocks the
statement leaves do not fall behind those it found, which clocks that start over
at another key may do.
-/
namespace SqliteSync.Store
open Library Clock

namespace RowState
variable {table : TableContext} {q t : RowState table} {dbVersion : ℤ}

def stampedAt (t : RowState table) (dbVersion : ℤ) : Set String :=
  {name | ∃ m, t.info name = some m ∧ m.dbVersion = dbVersion}

/-- No clock of the row is at the end of its range. -/
structure BelowMax (s : RowState table) : Prop where
  sentinel : s.SentinelBelowMax
  column : ∀ col m, s.info (table.colName col) = some m → m.colVersion < INT64_MAX

instance (s : RowState table) : Decidable s.BelowMax :=
  decidable_of_iff (s.SentinelBelowMax ∧
      ∀ col, ∀ m ∈ s.info (table.colName col), m.colVersion < INT64_MAX)
    ⟨fun h => ⟨h.1, h.2⟩, fun h => ⟨h.sentinel, h.column⟩⟩

/-- What `t` has stamped with a db version makes `q` the row `t`, and no clock
of `t` has fallen behind that of `q`. -/
structure Leads (q t : RowState table) (dbVersion : ℤ) : Prop where
  delivers : q.Delivers t (t.stampedAt dbVersion)
  unmarked : t.sentinel = none → q.sentinel = none
  ahead : ∀ col v, (q.ground t.localCl).version col = some v → v ≤ (t.version col).getD 0

theorem KnownClocks.version_nonneg (h : t.KnownClocks) (col : Fin table.ncols) :
    0 ≤ (t.version col).getD 0 := by
  rw [version]
  cases hinfo : t.info (table.colName col) with
  | none => exact le_rfl
  | some m => exact (h _ m hinfo).2

theorem BelowMax.version_lt (h : t.BelowMax) (col : Fin table.ncols) :
    (t.version col).getD 0 < markVersion (t.info (table.colName col)) 1 := by
  rw [version, markVersion]
  cases hinfo : t.info (table.colName col) with
  | none => exact zero_lt_one
  | some m =>
    have hmax := h.column col m hinfo
    simp only [Option.map_some, Option.getD_some, sqlAdd]
    omega

theorem localCl_le_one (h : t.sentinel = none) : t.localCl ≤ 1 := by
  rw [localCl, h]
  dsimp only
  split_ifs <;> decide

theorem BelowMax.localCl_lt_bump (h : t.BelowMax) (hs : t.sentinel ≠ none) :
    t.localCl < bumpVersion t.sentinel := by
  rcases Option.ne_none_iff_exists'.mp hs with ⟨m, hm⟩
  have hmax := h.sentinel m hm
  have hodd := odd_INT64_MAX
  rw [localCl_of_sentinel hm, hm, bumpVersion, Option.map_some, Option.getD_some, sentinelBump,
    sqlAdd, sqlAdd]
  split_ifs <;> omega

theorem BelowMax.localCl_le_bump (h : t.BelowMax) : t.localCl ≤ bumpVersion t.sentinel := by
  by_cases hs : t.sentinel = none
  · rw [hs]
    exact localCl_le_one hs
  · exact (h.localCl_lt_bump hs).le

theorem BelowMax.localCl_lt_mark (h : t.BelowMax) : t.localCl < markVersion t.sentinel 2 := by
  rw [markVersion]
  cases hs : t.sentinel with
  | none => exact (localCl_le_one hs).trans_lt one_lt_two
  | some m =>
    have hmax := h.sentinel m hs
    rw [localCl_of_sentinel hs, Option.map_some, Option.getD_some, sqlAdd]
    omega

theorem value_of_row {row : Row table} (h : t.row = some row) (col : Fin table.ncols) :
    t.value col = some (row col) := by
  rw [value, h]
  rfl

/-- What a row that is alive at length `cl` starts from, when it is to get there. -/
theorem ground_value (hq : q.Consistent) {cl : ℤ} (hle : q.localCl ≤ cl) (hodd : cl % 2 = 1)
    (col : Fin table.ncols) : (q.ground cl).value col = some (q.row.getD table.dflt col) := by
  rcases hle.lt_or_eq with hlt | rfl
  · exact ground_value_of_lt hlt col
  · rcases Option.ne_none_iff_exists'.mp (hq.row_iff.mpr hodd) with ⟨cur, hcur⟩
    rw [ground_of_le (lt_irrefl _), value_of_row hcur, hcur, Option.getD_some]

/-- The version with which the clock of a column starts over at another key. -/
def arrivedVersion (row oldRow : Row table) (col : Fin table.ncols) : ℤ :=
  if dbutilsValueCompare (some (row col)) (some (oldRow col)) = 0 then 1 else 2

theorem mem_changedColumns {row oldRow : Row table} {col : Fin table.ncols} :
    col ∈ changedColumns row oldRow ↔
      dbutilsValueCompare (some (row col)) (some (oldRow col)) ≠ 0 := by
  simp [changedColumns]

/-- Where a row moves from `old` to a key that held `q` before the statement and
holds `t` now. A column that brings no clock has the value it had there, and the
clock a column brings wins over the one it had, unless the row starts over. -/
structure Arrives (q t old : RowState table) (row oldRow : Row table) : Prop where
  value : ∀ col, old.info (table.colName col) = none → col ∉ changedColumns row oldRow →
    q.row.getD table.dflt col = row col
  clock : t.sentinel = none → ∀ cur ∈ q.row, ∀ col, old.info (table.colName col) ≠ none →
    ∀ m ∈ q.info (table.colName col), m.colVersion < arrivedVersion row oldRow col ∨
      m.colVersion = arrivedVersion row oldRow col ∧
        (row col = cur col ∨ 0 < dbutilsValueCompare (some (row col)) (some (cur col)))

instance (q t old : RowState table) (row oldRow : Row table) :
    Decidable (q.Arrives t old row oldRow) :=
  decidable_of_iff
    ((∀ col, old.info (table.colName col) = none →
        dbutilsValueCompare (some (row col)) (some (oldRow col)) = 0 →
          q.row.getD table.dflt col = row col) ∧
      (t.sentinel = none → ∀ cur ∈ q.row, ∀ col, old.info (table.colName col) ≠ none →
        ∀ m ∈ q.info (table.colName col), m.colVersion < arrivedVersion row oldRow col ∨
          m.colVersion = arrivedVersion row oldRow col ∧
            (row col = cur col ∨ 0 < dbutilsValueCompare (some (row col)) (some (cur col)))))
    ⟨fun h => ⟨fun col hinfo hcol => h.1 col hinfo (not_not.mp (mt mem_changedColumns.mpr hcol)),
        h.2⟩,
      fun h => ⟨fun col hinfo hsame => h.value col hinfo fun hcol => mem_changedColumns.mp hcol hsame,
        h.clock⟩⟩

namespace Leads

theorem localCl_le (h : q.Leads t dbVersion) : q.localCl ≤ t.localCl := by
  cases h.delivers with
  | dead _ hreach => exact hreach.elim le_of_eq fun hlt => hlt.1.le
  | alive _ hreach _ => exact hreach.elim le_of_eq fun hlt => hlt.1.le

theorem ground_le (h : q.Leads t dbVersion) (hclocks : t.KnownClocks) {cl : ℤ}
    (hcl : t.localCl ≤ cl) {col : Fin table.ncols} {v : ℤ}
    (hv : (q.ground cl).version col = some v) : v ≤ (t.version col).getD 0 := by
  have hle := h.localCl_le
  by_cases hlt : q.localCl < cl
  · rw [ground_version_of_lt hlt, Option.map_eq_some_iff] at hv
    rcases hv with ⟨_, _, rfl⟩
    exact hclocks.version_nonneg col
  · obtain rfl : cl = t.localCl := by omega
    exact h.ahead col v hv

theorem refl (q : RowState table) (dbVersion : ℤ) : q.Leads q dbVersion where
  delivers := by
    rcases Int.emod_two_eq_zero_or_one q.localCl with heven | hodd
    · exact .dead heven (.inl rfl)
    · refine .alive hodd (.inl rfl) fun col => .inr ?_
      rw [ground_of_le (lt_irrefl _)]
  unmarked := id
  ahead col v hv := by
    rw [ground_of_le (lt_irrefl _)] at hv
    rw [hv, Option.getD_some]

theorem deleted (h : q.Leads t dbVersion) (ht : t.Consistent) (hrow : t.row ≠ none)
    (hbelow : t.BelowMax) (seq : ℤ) :
    q.Leads ((t.setRow none).deleted dbVersion seq) dbVersion := by
  have hdeleted := ht.deleted hrow hbelow.sentinel dbVersion seq
  have hinfo : ((t.setRow none).deleted dbVersion seq).info CLOUDSYNC_TOMBSTONE_VALUE =
      some ⟨markVersion t.sentinel 2, dbVersion, 0, seq⟩ := by
    simp [RowState.deleted, RowState.markDeleted]
  have hcl : ((t.setRow none).deleted dbVersion seq).localCl = markVersion t.sentinel 2 :=
    localCl_of_sentinel hinfo
  have heven : ((t.setRow none).deleted dbVersion seq).localCl % 2 = 0 := by
    by_contra hodd
    exact hdeleted.row_iff.mpr (by omega) rfl
  have hlt : q.localCl < ((t.setRow none).deleted dbVersion seq).localCl :=
    hcl ▸ h.localCl_le.trans_lt hbelow.localCl_lt_mark
  refine ⟨.dead heven (.inr ⟨hlt, CLOUDSYNC_TOMBSTONE_VALUE, _, hinfo, rfl⟩), fun hnone => ?_,
    fun col v hv => ?_⟩
  · cases hinfo.symm.trans hnone
  · rw [ground_version_of_lt hlt, Option.map_eq_some_iff] at hv
    rcases hv with ⟨_, _, rfl⟩
    rw [version, hdeleted.dead heven _ (colName_ne_tombstone table col)]
    exact le_rfl

theorem column_marked (h : q.Leads t dbVersion) (hclocks : t.KnownClocks) (hbelow : t.BelowMax)
    {cl : ℤ} (hcl : t.localCl ≤ cl) {t' : RowState table} {row : Row table}
    (hrow : t'.row = some row) {col : Fin table.ncols} {seq : ℤ}
    (hinfo : t'.info (table.colName col) =
      some ⟨markVersion (t.info (table.colName col)) 1, dbVersion, 0, seq⟩) :
    (table.colName col ∈ t'.stampedAt dbVersion ∧ t'.Overtakes (q.ground cl) col) ∧
      ∀ v, (q.ground cl).version col = some v → v ≤ (t'.version col).getD 0 := by
  have hversion : t'.version col = some (markVersion (t.info (table.colName col)) 1) := by
    rw [version, hinfo]
    rfl
  have hlt : ∀ v, (q.ground cl).version col = some v →
      v < markVersion (t.info (table.colName col)) 1 :=
    fun v hv => (h.ground_le hclocks hcl hv).trans_lt (hbelow.version_lt col)
  refine ⟨⟨⟨_, hinfo, rfl⟩, _, row, hversion, hrow, fun v hv => .inl (hlt v hv)⟩, fun v hv => ?_⟩
  rw [hversion]
  exact (hlt v hv).le

/-- A row written in place propagates when each value that changed is seen. -/
theorem marked (h : q.Leads t dbVersion) (ht : t.Consistent) (hclocks : t.KnownClocks)
    (hbelow : t.BelowMax) {row oldRow : Row table} (hold : t.row = some oldRow)
    (hseen : ∀ col, row col ≠ oldRow col → col ∈ changedColumns row oldRow) (seq : String → ℤ) :
    q.Leads ((t.setRow (some row)).markColumns (changedColumns row oldRow) dbVersion seq)
      dbVersion := by
  have hodd : t.localCl % 2 = 1 := ht.alive_of_row hold
  have hcl : ((t.setRow (some row)).markColumns (changedColumns row oldRow) dbVersion seq).localCl =
      t.localCl := localCl_markColumns hodd _ _ _
  have hrow : ((t.setRow (some row)).markColumns (changedColumns row oldRow) dbVersion seq).row =
      some row := rfl
  have hmarked : ∀ col ∈ changedColumns row oldRow,
      ((t.setRow (some row)).markColumns (changedColumns row oldRow) dbVersion seq).info
        (table.colName col) = some ⟨markVersion (t.info (table.colName col)) 1, dbVersion, 0,
          seq (table.colName col)⟩ :=
    fun col hcol => markColumns_of_mem _ hcol _ _
  have hother : ∀ name, (∀ col ∈ changedColumns row oldRow, table.colName col ≠ name) →
      ((t.setRow (some row)).markColumns (changedColumns row oldRow) dbVersion seq).info name =
        t.info name :=
    fun name hname => markColumns_of_notMem _ hname _ _
  have hsentinel := (t.setRow (some row)).markColumns_sentinel (changedColumns row oldRow)
    dbVersion seq
  generalize (t.setRow (some row)).markColumns (changedColumns row oldRow) dbVersion seq = t' at *
  -- what was stamped before still is
  have hstamped : t.stampedAt dbVersion ⊆ t'.stampedAt dbVersion := by
    rintro name ⟨m, hm, hdb⟩
    by_cases hin : ∃ col ∈ changedColumns row oldRow, table.colName col = name
    · rcases hin with ⟨col, hcol, rfl⟩
      exact ⟨_, hmarked col hcol, rfl⟩
    · exact ⟨m, (hother name fun col hcol he => hin ⟨col, hcol, he⟩).trans hm, hdb⟩
  have hsame : ∀ col, col ∉ changedColumns row oldRow →
      t'.version col = t.version col ∧ row col = oldRow col := by
    intro col hcol
    have hinfo := hother (table.colName col) fun col' hcol' he =>
      hcol (table.colName_injective he ▸ hcol')
    rw [version, hinfo]
    exact ⟨rfl, not_not.mp fun hne => hcol (hseen col hne)⟩
  cases h.delivers with
  | dead heven => omega
  | alive _ hreach hcols =>
    refine ⟨.alive (hcl ▸ hodd) ?_ fun col => ?_, fun hnone => ?_, fun col v hv => ?_⟩
    · rw [hcl]
      exact hreach.imp_right (And.imp_right fun hsent => hsent.mono hstamped)
    · rw [hcl]
      by_cases hcol : col ∈ changedColumns row oldRow
      · exact .inl (h.column_marked hclocks hbelow le_rfl hrow (hmarked col hcol)).1
      · rcases hsame col hcol with ⟨hver, hval⟩
        refine (hcols col).imp (And.imp (fun hin => hstamped hin) ?_) fun hvalue => ?_
        · rintro ⟨v, row', hv, hrow', hle⟩
          obtain rfl := Option.some_inj.mp (hold.symm.trans hrow')
          exact ⟨v, row, hver.trans hv, hrow, hval ▸ hle⟩
        · rw [value_of_row hrow, hval, ← value_of_row hold]
          exact hvalue
    · exact h.unmarked (hsentinel.symm.trans hnone)
    · rw [hcl] at hv
      by_cases hcol : col ∈ changedColumns row oldRow
      · exact (h.column_marked hclocks hbelow le_rfl hrow (hmarked col hcol)).2 v hv
      · rw [(hsame col hcol).1]
        exact h.ahead col v hv

theorem revived (h : q.Leads t dbVersion) (hbelow : t.BelowMax) {t' : RowState table}
    (hcl : t'.localCl = bumpVersion t.sentinel) (hsent : (t'.stampedAt dbVersion).Nonempty)
    (hunmarked : t'.sentinel = none → t.sentinel = none)
    (hcol : ∀ col, ((table.colName col ∈ t'.stampedAt dbVersion ∧
        t'.Overtakes (q.ground (bumpVersion t.sentinel)) col) ∨
          t'.value col = (q.ground (bumpVersion t.sentinel)).value col) ∧
      ∀ v, (q.ground (bumpVersion t.sentinel)).version col = some v →
        v ≤ (t'.version col).getD 0) : q.Leads t' dbVersion := by
  have hle := h.localCl_le.trans hbelow.localCl_le_bump
  rw [← hcl] at hcol hle
  refine ⟨.alive (hcl ▸ bumpVersion_odd _) ?_ fun col => (hcol col).1, ?_, fun col => (hcol col).2⟩
  · exact hle.eq_or_lt.imp_right fun hlt => ⟨hlt, hsent⟩
  · exact fun hnone => h.unmarked (hunmarked hnone)

theorem inserted (h : q.Leads t dbVersion) (hclocks : t.KnownClocks) (hbelow : t.BelowMax)
    (row : Row table) (seq₁ : ℤ) (seq : String → ℤ) :
    q.Leads ((t.setRow (some row)).inserted dbVersion seq₁ seq) dbVersion := by
  have hrow := (t.setRow (some row)).inserted_row dbVersion seq₁ seq
  have hinfo : ∀ col, ((t.setRow (some row)).inserted dbVersion seq₁ seq).info (table.colName col) =
      some ⟨markVersion (t.info (table.colName col)) 1, dbVersion, 0,
        seq (table.colName col)⟩ := by
    intro col
    have htomb := colName_ne_tombstone table col
    rw [RowState.inserted, markColumns_of_mem _ (List.mem_finRange col)]
    split_ifs
    · rw [RowState.markAlive, setInfo_info, if_neg htomb, setRow_info]
    · rw [RowState.bumpAlive]
      cases (t.setRow (some row)).sentinel with
      | none => rw [setRow_info]
      | some m => rw [RowState.markAlive, setInfo_info, if_neg htomb, setRow_info]
  refine h.revived hbelow (inserted_localCl _ _ _ _) ?_ ?_ fun col => ?_
  · by_cases hcols : table.ncols = 0
    · refine ⟨CLOUDSYNC_TOMBSTONE_VALUE, ⟨bumpVersion t.sentinel, dbVersion, 0, seq₁⟩, ?_, rfl⟩
      rw [RowState.inserted, if_pos hcols]
      exact (markColumns_sentinel _ _ _ _).trans (setInfo_tombstone_sentinel _ _)
    · exact ⟨_, _, hinfo ⟨0, Nat.pos_of_ne_zero hcols⟩, rfl⟩
  · rw [RowState.inserted, markColumns_sentinel]
    split_ifs
    · intro hnone
      cases (setInfo_tombstone_sentinel _ _).symm.trans hnone
    · rw [RowState.bumpAlive, setRow_sentinel]
      cases hs : t.sentinel with
      | none => exact fun _ => rfl
      | some m =>
        intro hnone
        cases (setInfo_tombstone_sentinel _ _).symm.trans hnone
  · have hmarked := h.column_marked hclocks hbelow hbelow.localCl_le_bump hrow (hinfo col)
    exact ⟨.inl hmarked.1, hmarked.2⟩

theorem column_arrived (h : q.Leads t dbVersion) (hq : q.Consistent) (hbelow : t.BelowMax)
    {old t' : RowState table} {row oldRow : Row table} (harrives : q.Arrives t old row oldRow)
    (hrow : t'.row = some row) {col : Fin table.ncols}
    (hclock : old.info (table.colName col) ≠ none) {seq : ℤ}
    (hinfo : t'.info (table.colName col) =
      some ⟨arrivedVersion row oldRow col, dbVersion, 0, seq⟩) :
    ((table.colName col ∈ t'.stampedAt dbVersion ∧
        t'.Overtakes (q.ground (bumpVersion t.sentinel)) col) ∨
      t'.value col = (q.ground (bumpVersion t.sentinel)).value col) ∧
      ∀ v, (q.ground (bumpVersion t.sentinel)).version col = some v →
        v ≤ (t'.version col).getD 0 := by
  have hversion : t'.version col = some (arrivedVersion row oldRow col) := by
    rw [version, hinfo]
    rfl
  have hpos : 0 < arrivedVersion row oldRow col := by
    rw [arrivedVersion]
    split_ifs <;> decide
  have hle := h.localCl_le.trans hbelow.localCl_le_bump
  rw [hversion, Option.getD_some]
  by_cases hlt : q.localCl < bumpVersion t.sentinel
  · have hzero : ∀ v, (q.ground (bumpVersion t.sentinel)).version col = some v → v = 0 := by
      intro v hv
      rw [ground_version_of_lt hlt, Option.map_eq_some_iff] at hv
      rcases hv with ⟨_, _, rfl⟩
      rfl
    refine ⟨.inl ⟨⟨_, hinfo, rfl⟩, _, row, hversion, hrow, fun v hv => .inl ?_⟩, fun v hv => ?_⟩
    · rwa [hzero v hv]
    · rw [hzero v hv]
      exact hpos.le
  · -- the row does not start over, and is one without a sentinel
    have hsentinel : t.sentinel = none := by
      by_contra hs
      exact hlt (h.localCl_le.trans_lt (hbelow.localCl_lt_bump hs))
    have hodd : q.localCl % 2 = 1 := by
      rw [show q.localCl = bumpVersion t.sentinel by omega]
      exact bumpVersion_odd _
    rcases Option.ne_none_iff_exists'.mp (hq.row_iff.mpr hodd) with ⟨cur, hcur⟩
    rw [ground_of_le hlt]
    cases hm : q.info (table.colName col) with
    | none =>
      have hnone : q.version col = none := by
        rw [version, hm]
        rfl
      refine ⟨.inl ⟨⟨_, hinfo, rfl⟩, _, row, hversion, hrow, fun v hv => ?_⟩, fun v hv => ?_⟩ <;>
      · rw [hnone] at hv
        cases hv
    | some m =>
      have hknown : ∀ v, q.version col = some v → v = m.colVersion := by
        intro v hv
        rw [version, hm] at hv
        exact (Option.some_inj.mp hv).symm
      have hwins := harrives.clock hsentinel cur hcur col hclock m hm
      refine ⟨?_, fun v hv => ?_⟩
      · rcases hwins with hwin | ⟨heq, hsame | hgreater⟩
        · refine .inl ⟨⟨_, hinfo, rfl⟩, _, row, hversion, hrow, fun v hv => .inl ?_⟩
          rwa [hknown v hv]
        · right
          rw [value_of_row hrow, value_of_row hcur, hsame]
        · refine .inl ⟨⟨_, hinfo, rfl⟩, _, row, hversion, hrow, fun v hv => .inr ⟨?_, ?_⟩⟩
          · rw [hknown v hv, heq]
          · rwa [value_of_row hcur]
      · rw [hknown v hv]
        exact hwins.elim le_of_lt fun h => h.1.le

theorem arrived (h : q.Leads t dbVersion) (hq : q.Consistent) (hclocks : t.KnownClocks)
    (hbelow : t.BelowMax) {old : RowState table} {row oldRow : Row table}
    (harrives : q.Arrives t old row oldRow) (seqMove seqAlive : ℤ) (seq : String → ℤ) :
    q.Leads ((t.setRow (some row)).arrived old (changedColumns row oldRow) dbVersion seqMove
      seqAlive seq) dbVersion := by
  have hrow : ((t.setRow (some row)).arrived old (changedColumns row oldRow) dbVersion seqMove
      seqAlive seq).row = some row := rfl
  have hsentinel : ((t.setRow (some row)).arrived old (changedColumns row oldRow) dbVersion seqMove
      seqAlive seq).info CLOUDSYNC_TOMBSTONE_VALUE =
        some ⟨bumpVersion t.sentinel, dbVersion, 0, seqAlive⟩ := by
    refine (markColumns_sentinel _ _ _ _).trans ((setInfo_tombstone_sentinel _ _).trans ?_)
    rw [sentinel, receive_info, if_pos rfl]
    rfl
  have hreceived : ∀ col, (((t.setRow (some row)).receive old dbVersion seqMove).markAlive dbVersion
      seqAlive).info (table.colName col) =
        if old.info (table.colName col) = none then t.info (table.colName col)
        else some ⟨1, dbVersion, 0, seqMove⟩ := by
    intro col
    have htomb := colName_ne_tombstone table col
    rw [RowState.markAlive, setInfo_info, if_neg htomb, receive_info, if_neg htomb, setRow_info]
  have hchanged : ∀ col ∈ changedColumns row oldRow, ((t.setRow (some row)).arrived old
      (changedColumns row oldRow) dbVersion seqMove seqAlive seq).info (table.colName col) =
        some ⟨markVersion (if old.info (table.colName col) = none then t.info (table.colName col)
          else some ⟨1, dbVersion, 0, seqMove⟩) 1, dbVersion, 0, seq (table.colName col)⟩ := by
    intro col hcol
    rw [RowState.arrived, markColumns_of_mem _ hcol, hreceived]
  have hunchanged : ∀ col, col ∉ changedColumns row oldRow → ((t.setRow (some row)).arrived old
      (changedColumns row oldRow) dbVersion seqMove seqAlive seq).info (table.colName col) =
        if old.info (table.colName col) = none then t.info (table.colName col)
        else some ⟨1, dbVersion, 0, seqMove⟩ := by
    intro col hcol
    rw [RowState.arrived, markColumns_of_notMem, hreceived]
    exact fun col' hcol' he => hcol (table.colName_injective he ▸ hcol')
  refine h.revived hbelow (arrived_localCl _ _ _ _ _ _ _) ⟨_, _, hsentinel, rfl⟩ ?_ fun col => ?_
  · intro hnone
    cases hsentinel.symm.trans hnone
  generalize (t.setRow (some row)).arrived old (changedColumns row oldRow) dbVersion seqMove
    seqAlive seq = t' at *
  have hle := hbelow.localCl_le_bump
  by_cases hclock : old.info (table.colName col) = none
  · by_cases hcol : col ∈ changedColumns row oldRow
    · have hinfo := hchanged col hcol
      rw [if_pos hclock] at hinfo
      have hmarked := h.column_marked hclocks hbelow hle hrow hinfo
      exact ⟨.inl hmarked.1, hmarked.2⟩
    · have hinfo := hunchanged col hcol
      rw [if_pos hclock] at hinfo
      refine ⟨.inr ?_, fun v hv => ?_⟩
      · rw [ground_value hq (h.localCl_le.trans hle) (bumpVersion_odd _), value_of_row hrow,
          harrives.value col hclock hcol]
      · rw [version, hinfo]
        exact h.ground_le hclocks hle hv
  · by_cases hcol : col ∈ changedColumns row oldRow
    · have hinfo := hchanged col hcol
      rw [if_neg hclock] at hinfo
      apply h.column_arrived hq hbelow harrives hrow hclock
      rw [arrivedVersion, if_neg (mem_changedColumns.mp hcol)]
      exact hinfo
    · have hinfo := hunchanged col hcol
      rw [if_neg hclock] at hinfo
      apply h.column_arrived hq hbelow harrives hrow hclock
      rw [arrivedVersion, if_pos (not_not.mp (mt mem_changedColumns.mpr hcol))]
      exact hinfo

end Leads

/-- Two rows have the same values and the same versions. -/
structure Matches (s t : RowState table) : Prop where
  row : s.row = t.row
  info : ∀ name, (s.info name).map MetaRow.colVersion = (t.info name).map MetaRow.colVersion

namespace Matches
variable {s : RowState table}

theorem refl (t : RowState table) : t.Matches t := ⟨rfl, fun _ => rfl⟩

theorem info_ne_none (h : s.Matches t) (name : String) : s.info name ≠ none ↔ t.info name ≠ none := by
  rw [not_iff_not, ← Option.map_eq_none_iff (f := MetaRow.colVersion), h.info,
    Option.map_eq_none_iff]

theorem localCl (h : s.Matches t) : s.localCl = t.localCl := by
  have hs : s.sentinel.map MetaRow.colVersion = t.sentinel.map MetaRow.colVersion := h.info _
  cases ht : t.sentinel with
  | some m =>
    rw [ht, Option.map_some, Option.map_eq_some_iff] at hs
    rcases hs with ⟨m', hm', hv⟩
    rw [localCl_of_sentinel hm', localCl_of_sentinel ht, hv]
  | none =>
    rw [ht, Option.map_none, Option.map_eq_none_iff] at hs
    by_cases hinfo : ∃ name, t.info name ≠ none
    · rcases hinfo with ⟨name, hname⟩
      rw [localCl_of_info ht hname, localCl_of_info hs ((h.info_ne_none name).mpr hname)]
    · rw [not_exists] at hinfo
      rw [localCl_of_none fun name => not_not.mp (hinfo name),
        localCl_of_none fun name => not_not.mp (mt (h.info_ne_none name).mp (hinfo name))]

theorem value (h : s.Matches t) (col : Fin table.ncols) : s.value col = t.value col := by
  rw [RowState.value, h.row, RowState.value]

theorem version (h : s.Matches t) (col : Fin table.ncols) : s.version col = t.version col :=
  h.info _

theorem ground (h : s.Matches t) (cl : ℤ) (col : Fin table.ncols) :
    (s.ground cl).value col = (t.ground cl).value col ∧
      (s.ground cl).version col = (t.ground cl).version col := by
  by_cases hlt : t.localCl < cl
  · have hlt' : s.localCl < cl := h.localCl ▸ hlt
    rw [ground_value_of_lt hlt, ground_value_of_lt hlt', ground_version_of_lt hlt,
      ground_version_of_lt hlt', h.row, h.version]
    exact ⟨rfl, rfl⟩
  · rw [ground_of_le hlt, ground_of_le (h.localCl ▸ hlt)]
    exact ⟨h.value col, h.version col⟩

theorem consistent (h : s.Matches t) (ht : t.Consistent) : s.Consistent where
  pos m hm := by
    have hs : s.sentinel.map MetaRow.colVersion = t.sentinel.map MetaRow.colVersion := h.info _
    rw [hm, Option.map_some] at hs
    rcases Option.map_eq_some_iff.mp hs.symm with ⟨m', hm', hv⟩
    exact hv ▸ ht.pos m' hm'
  row_iff := by
    rw [h.row, h.localCl]
    exact ht.row_iff
  dead heven name hname := by
    by_contra hinfo
    exact (h.info_ne_none name).mp hinfo (ht.dead (h.localCl ▸ heven) name hname)

theorem delivers (h : s.Matches q) {sent : Set String} (hd : q.Delivers t sent) :
    s.Delivers t sent := by
  cases hd with
  | dead heven hreach =>
    rw [← h.localCl] at hreach
    exact .dead heven hreach
  | alive hodd hreach hcol =>
    rw [← h.localCl] at hreach
    refine .alive hodd hreach fun col => ?_
    rcases h.ground t.localCl col with ⟨hvalue, hversion⟩
    refine (hcol col).imp (And.imp_right ?_) fun heq => heq.trans hvalue.symm
    rintro ⟨v, row, hv, hrow, hle⟩
    refine ⟨v, row, hv, hrow, fun v' hv' => ?_⟩
    rw [hvalue]
    exact hle v' (hversion.symm.trans hv')

end Matches
end RowState

namespace Replica
variable {n : ℕ} {schema : Fin n → TableContext}

/-- Merged by a replica that holds the same rows, in whatever order, the feed at
the db version of a local statement makes its base rows those the statement left. -/
def Propagates (r : Replica schema) (i : Fin n) (rows : List (RowChange (schema i))) : Prop :=
  ∀ r', applyStatement r i rows = some r' → ∃ feed, r'.cloudsyncChanges = .ok feed ∧
    ∀ (r₂ : Replica schema) D, (∀ j pk, (r₂.rows j pk).Matches (r.rows j pk)) →
      D.Perm (feed.filter fun c => c.dbVersion = (r.dbVersionNext CLOUDSYNC_VALUE_NOTSET).1) →
      ∀ j pk, ((r₂.deliver D).table j).base.get pk = (r'.table j).base.get pk

/-- The clocks a row of a statement writes overtake what its keys held before the
statement, as `before` tells it. -/
def Carries (i : Fin n) (before : Pk → RowState (schema i)) (r : Replica schema) :
    RowChange (schema i) → Prop
  | .insert _ pk _ | .delete pk => (r.rows i pk).BelowMax
  | .update _ oldpk pk row => (r.rows i oldpk).BelowMax ∧ (r.rows i pk).BelowMax ∧
      ∀ oldRow ∈ (r.rows i oldpk).row,
        if pk = oldpk then ∀ col, row col ≠ oldRow col → col ∈ changedColumns row oldRow
        else (before pk).Arrives (r.rows i pk) (r.rows i oldpk) row oldRow

/-- Every row of a statement is one whose change the code sees, and overtakes. -/
def CarriesAll (i : Fin n) (before : Pk → RowState (schema i)) (r : Replica schema) :
    List (RowChange (schema i)) → Prop
  | [] => True
  | c :: rows => r.KeepsFeed (.write i c) ∧ Carries i before r c ∧
      ∀ r' ∈ applyRowChange r i c, CarriesAll i before r' rows

instance (i : Fin n) (before : Pk → RowState (schema i)) (r : Replica schema) :
    (c : RowChange (schema i)) → Decidable (Carries i before r c)
  | .insert _ pk _ | .delete pk => inferInstanceAs (Decidable (r.rows i pk).BelowMax)
  | .update _ oldpk pk row =>
    inferInstanceAs (Decidable ((r.rows i oldpk).BelowMax ∧ (r.rows i pk).BelowMax ∧
      ∀ oldRow ∈ (r.rows i oldpk).row,
        if pk = oldpk then ∀ col, row col ≠ oldRow col → col ∈ changedColumns row oldRow
        else (before pk).Arrives (r.rows i pk) (r.rows i oldpk) row oldRow))

instance (i : Fin n) (before : Pk → RowState (schema i)) :
    (r : Replica schema) → (rows : List (RowChange (schema i))) →
      Decidable (CarriesAll i before r rows)
  | _, [] => isTrue trivial
  | r, c :: rows =>
    have : ∀ r', Decidable (CarriesAll i before r' rows) :=
      fun r' => instDecidableCarriesAll i before r' rows
    inferInstanceAs (Decidable (r.KeepsFeed (.write i c) ∧ Carries i before r c ∧
      ∀ r' ∈ applyRowChange r i c, CarriesAll i before r' rows))

/-- Rows of a local statement keep the lead over the rows before the statement. -/
theorem leads_rowStep {i : Fin n} {before : Pk → RowState (schema i)} {r : Replica schema}
    {dbVersion seq₀ : ℤ} {c : RowChange (schema i)} {rows' : Pk → RowState (schema i)}
    (hstep : RowStep dbVersion seq₀ (r.rows i) c rows') (hcarries : Carries i before r c)
    (hbefore : ∀ pk, (before pk).Consistent)
    (hr : ∀ pk, (r.rows i pk).Consistent ∧ (r.rows i pk).Complete)
    (h : ∀ pk, (before pk).Leads (r.rows i pk) dbVersion) (pk : Pk) :
    (before pk).Leads (rows' pk) dbVersion := by
  cases hstep with
  | @insert orReplace pk' row hfree seq₁ seq hseq₁ hseq =>
    rw [Function.update_apply]
    split_ifs with hpk
    · subst hpk
      exact (h pk).inserted (hr pk).2.clocks hcarries row seq₁ seq
    · exact h pk
  | @update orReplace pk' row oldRow hold seq hseq =>
    rw [Function.update_apply]
    split_ifs with hpk
    · subst hpk
      have hseen := hcarries.2.2 oldRow hold
      rw [if_pos rfl] at hseen
      exact (h pk).marked (hr pk).1 (hr pk).2.clocks hcarries.1 hold hseen seq
    · exact h pk
  | @move orReplace oldpk pk' hne row oldRow hold hfree seq₁ seq₂ seq₃ seq hseq₁ hseq₂ hseq₃ hseq =>
    have harrives := hcarries.2.2 oldRow hold
    rw [if_neg hne] at harrives
    rw [Function.update_apply, Function.update_apply]
    split_ifs with hpk hpk
    · subst hpk
      exact (h pk).arrived (hbefore pk) (hr pk).2.clocks hcarries.2.1 harrives seq₂ seq₃ seq
    · subst hpk
      exact (h pk).deleted (hr pk).1 (hold ▸ Option.some_ne_none oldRow) hcarries.1 seq₁
    · exact h pk
  | @delete pk' hold seq₁ hseq₁ =>
    rw [Function.update_apply]
    split_ifs with hpk
    · subst hpk
      exact (h pk).deleted (hr pk).1 hold hcarries seq₁
    · exact h pk

/-- Rows of a local statement have led from `r₀` to `r`. -/
structure Propagating (r₀ r : Replica schema) (i : Fin n) : Prop where
  reached : Reached schema KeepsFeed r
  dataVersion : r.dataVersion = r₀.dataVersion
  clock : r = r₀ ∨ Asked r₀ r CLOUDSYNC_VALUE_NOTSET
  tables : ∀ j ≠ i, r.table j = r₀.table j
  leads : ∀ pk, (r₀.rows i pk).Leads (r.rows i pk) (r₀.dbVersionNext CLOUDSYNC_VALUE_NOTSET).1

theorem Propagating.next {r₀ r r' : Replica schema} {i : Fin n} (h : Propagating r₀ r i)
    (hcls : ∀ i, (schema i).algo = .crdtCls)
    (hdflt : ∀ i col, (schema i).dflt col ≠ CLOUDSYNC_RLS_RESTRICTED_VALUE)
    (hsettled : r₀.Settled) (hbefore : ∀ pk, (r₀.rows i pk).Consistent)
    {c : RowChange (schema i)} (hkeeps : r.KeepsFeed (.write i c))
    (hcarries : Carries i (r₀.rows i) r c) (hr' : applyRowChange r i c = some r') :
    Propagating r₀ r' i := by
  rcases complete_of_reached hcls hdflt h.reached with ⟨hrec, hrows⟩
  rcases applyRowChange_rowStep (hrec i) hkeeps.2.1.1 hr' with ⟨rows', hstep, hholds⟩
  -- the request of this row gets the version of the first one
  have hagain : r.checked.dbVersion = r₀.checked.dbVersion ∧
      (r.dbVersionNext CLOUDSYNC_VALUE_NOTSET).1 = (r₀.dbVersionNext CLOUDSYNC_VALUE_NOTSET).1 := by
    rcases h.clock with rfl | hasked
    · exact ⟨rfl, rfl⟩
    · exact hasked.again hsettled.1 h.dataVersion
  have hsettled' : r.Settled := by
    rw [Settled, HasSuccessor, hagain.1]
    exact hsettled
  have hnext := hholds.clocked.asked (List.cons_ne_nil _ _) hsettled'
  refine ⟨h.reached.next (.write i c) hkeeps hr', hholds.clocked.dataVersion.trans h.dataVersion,
    .inr ⟨hnext.1.trans hagain.1, ?_, hnext.2.1.trans h.dataVersion⟩, fun j hj => ?_, fun pk => ?_⟩
  · exact (hholds.clocked.latest _ rfl).trans hagain.2
  · exact (hholds.tables j hj).trans (h.tables j hj)
  · have hrow : r'.rows i pk = rows' pk := hholds.rowAt pk
    rw [hrow]
    rw [hagain.2] at hstep
    exact leads_rowStep hstep hcarries hbefore (hrows i) h.leads pk

theorem Propagating.all {r₀ r r' : Replica schema} {i : Fin n}
    (hcls : ∀ i, (schema i).algo = .crdtCls)
    (hdflt : ∀ i col, (schema i).dflt col ≠ CLOUDSYNC_RLS_RESTRICTED_VALUE)
    (hsettled : r₀.Settled) (hbefore : ∀ pk, (r₀.rows i pk).Consistent)
    {rows : List (RowChange (schema i))} (h : Propagating r₀ r i)
    (hcarries : CarriesAll i (r₀.rows i) r rows) (hr' : applyStatement r i rows = some r') :
    Propagating r₀ r' i := by
  induction rows generalizing r with
  | nil =>
    cases hr'
    exact h
  | cons c rows ih =>
    rw [applyStatement, List.foldlM_cons, Option.bind_eq_bind, Option.bind_eq_some_iff] at hr'
    rcases hr' with ⟨r₁, hr₁, hr'⟩
    exact ih (h.next hcls hdflt hsettled hbefore hcarries.1 hcarries.2.1 hr₁)
      (hcarries.2.2 r₁ hr₁) hr'

/-- In every run of changes the code sees, a local statement whose clocks overtake
what they find propagates. -/
theorem propagates_of_carries (hcls : ∀ i, (schema i).algo = .crdtCls)
    (hdflt : ∀ i col, (schema i).dflt col ≠ CLOUDSYNC_RLS_RESTRICTED_VALUE) (r : Replica schema)
    (h : Reached schema KeepsFeed r) (i : Fin n) (rows : List (RowChange (schema i)))
    (hsettled : r.Settled) (hcarries : CarriesAll i (r.rows i) r rows) : r.Propagates i rows := by
  intro r' hr'
  have hbefore := (complete_of_reached hcls hdflt h).2
  have hrun : Propagating r r' i := by
    refine Propagating.all hcls hdflt hsettled (fun pk => (hbefore i pk).1) ?_ hcarries hr'
    exact ⟨h, rfl, .inl rfl, fun _ _ => rfl, fun pk => .refl _ _⟩
  have hafter := (complete_of_reached hcls hdflt hrun.reached).2
  rcases sentNames_feed (fun i pk => (hafter i pk).1) fun i pk => (hafter i pk).2 with
    ⟨feed, hfeed, hsends, hsent⟩
  refine ⟨feed, hfeed, fun r₂ D hr₂ hD j pk => ?_⟩
  have hdelivers : ∀ j pk, (r₂.rows j pk).Delivers (r'.rows j pk) (sentNames D j pk) := by
    intro j pk
    have hnames := hsent
      (fun v => decide (v = (r.dbVersionNext CLOUDSYNC_VALUE_NOTSET).1)) D hD j pk
    simp only [decide_eq_true_eq] at hnames
    rw [hnames]
    apply (hr₂ j pk).delivers
    by_cases hj : j = i
    · subst hj
      exact (hrun.leads pk).delivers
    · have hsame : r'.rows j pk = r.rows j pk := by
        rw [Replica.rows, hrun.tables j hj]
        rfl
      rw [hsame]
      exact (RowState.Leads.refl _ _).delivers
  rcases deliver_received hcls (r := r₂) (t := r'.rows)
    (fun j pk => (hr₂ j pk).consistent (hbefore j pk).1) (fun j pk => (hafter j pk).1)
    (fun j pk => (hafter j pk).2.clocks.named)
    (fun c hc => hsends c (List.mem_of_mem_filter (hD.mem_iff.mp hc))) hdelivers j pk with
      ⟨hs, hreceived⟩
  exact (hreceived.finish (hafter j pk).1 hs (hdelivers j pk)).1

/-- One row replaces another whose column has been written since: the clock that
moves in starts over at 1, and loses against the 2 it replaced. -/
theorem not_propagates : ¬ ∀ (n : ℕ) (schema : Fin n → TableContext),
    (∀ i, (schema i).algo = .crdtCls) →
    (∀ i col, (schema i).dflt col ≠ CLOUDSYNC_RLS_RESTRICTED_VALUE) →
      ∀ r, Reached schema KeepsFeed r → ∀ i rows, r.Settled → r.Propagates i rows := by
  intro h
  rcases Reachable.exists_of_runs step
    (fun r : Replica fun _ : Fin 1 => singleColumn => ∃ site, r = empty _ site) KeepsFeed
    ⟨[1], rfl⟩
    [.write ⟨0, Nat.one_pos⟩ (.insert false [.integer 1] fun _ => .integer 10),
      .write ⟨0, Nat.one_pos⟩ (.insert false [.integer 2] fun _ => .integer 20),
      .write ⟨0, Nat.one_pos⟩ (.update false [.integer 2] [.integer 2] fun _ => .integer 21), .commit]
    (fun r => decide r.Settled && (match applyStatement r ⟨0, Nat.one_pos⟩
        [.update true [.integer 1] [.integer 2] fun _ => .integer 10] with
      | none => false
      | some r' => match r'.cloudsyncChanges with
        | .ok feed => decide (((r.deliver (feed.filter fun c =>
            c.dbVersion = (r.dbVersionNext CLOUDSYNC_VALUE_NOTSET).1)).table
              ⟨0, Nat.one_pos⟩).base.get [.integer 2] ≠
                (r'.table ⟨0, Nat.one_pos⟩).base.get [.integer 2])
        | .error _ => false)) (by decide) with ⟨r, hr, hbad⟩
  rw [Bool.and_eq_true, decide_eq_true_eq] at hbad
  have hall := h 1 _ (fun _ => rfl)
    (fun _ _ => (by decide : Value.null ≠ CLOUDSYNC_RLS_RESTRICTED_VALUE)) r hr ⟨0, Nat.one_pos⟩
    [.update true [.integer 1] [.integer 2] fun _ => .integer 10] hbad.1
  cases hr' : applyStatement r ⟨0, Nat.one_pos⟩
      [.update true [.integer 1] [.integer 2] fun _ => .integer 10] with
  | none =>
    rw [hr'] at hbad
    cases hbad.2
  | some r' =>
    rcases hall r' hr' with ⟨feed, hfeed, hsame⟩
    simp only [hr', hfeed, decide_eq_true_eq] at hbad
    exact hbad.2 (hsame r _ (fun j pk => .refl _) (.refl _) ⟨0, Nat.one_pos⟩ [.integer 2])

end Replica

namespace Declared
variable {n : ℕ} {schema : Fin n → TableContext} {decl : (i : Fin n) → Declaration (schema i)}
  {cells : (i : Fin n) → Cells (schema i)}

/-- `Replica.Propagates` for a statement, a feed and a merge on declared tables. -/
def Propagates (decl : (i : Fin n) → Declaration (schema i)) (r : Replica schema) (i : Fin n)
    (rows : List (RowChange (schema i))) : Prop :=
  ∀ r', applyStatement decl r i rows = some r' → ∃ feed, cloudsyncChanges decl r' = .ok feed ∧
    ∀ (r₂ : Replica schema) D, (∀ j pk, (r₂.rows j pk).Matches (r.rows j pk)) →
      D.Perm (feed.filter fun c => c.dbVersion = (r.dbVersionNext CLOUDSYNC_VALUE_NOTSET).1) →
      ∀ j pk, ((deliver decl r₂ D).table j).base.get pk = (r'.table j).base.get pk

theorem within_of_matches {r r₂ : Replica schema} (h : r.Within cells)
    (hmatches : ∀ i pk, (r₂.rows i pk).Matches (r.rows i pk)) : r₂.Within cells := by
  refine fun i => ⟨fun pk row hrow => ?_, fun k hk => ?_⟩
  · exact (h i).base pk row ((hmatches i pk).row.symm.trans hrow)
  · exact (h i).metadata k (((hmatches i k.1).info_ne_none k.2).mp hk)

/-- In every run of changes the code sees, on tables that take its keys and values
as they are, a local statement whose clocks overtake what they find propagates. -/
theorem propagates_of_within (hcls : ∀ i, (schema i).algo = .crdtCls)
    (hdflt : ∀ i col, (schema i).dflt col ≠ CLOUDSYNC_RLS_RESTRICTED_VALUE)
    (hplain : ∀ i, (decl i).Plain (cells i)) (r : Replica schema)
    (h : Reached decl (fun r e => e.Within cells ∧ r.KeepsFeed e) r) (i : Fin n)
    (rows : List (RowChange (schema i))) (hrows : ∀ c ∈ rows, c.Within (cells i))
    (hsettled : r.Settled) (hcarries : Replica.CarriesAll i (r.rows i) r rows) :
    Propagates decl r i rows := by
  intro r' hr'
  rcases reached_of_within hplain h with ⟨hwithin, hreached⟩
  rw [applyStatement_eq hplain hwithin hrows] at hr'
  have hafter := hwithin.applyStatement hrows hr'
  rcases Replica.propagates_of_carries hcls hdflt r hreached i rows hsettled hcarries r' hr' with
    ⟨feed, hfeed, hall⟩
  refine ⟨feed, (cloudsyncChanges_eq hplain hafter).trans hfeed, fun r₂ D hr₂ hD => ?_⟩
  have hsent : ∀ c ∈ D, c.Within (cells c.tbl) := by
    intro c hc
    apply hafter.feed hfeed (List.mem_of_mem_filter (hD.mem_iff.mp hc))
    exact fun hgos => absurd ((hcls c.tbl).symm.trans hgos) (by decide)
  rw [deliver_eq hplain (within_of_matches hwithin hr₂) hsent]
  exact hall r₂ D hr₂ hD

/-- One row replaces another where its value, which changed too, wins, and a new one
takes its place. -/
theorem propagates_of_within_replaced : ∃ r : Replica fun _ : Fin 1 => singleColumn,
    applyStatement (fun _ => foldedKey) r ⟨0, Nat.one_pos⟩
      [.update true (letterKey 0x61) (letterKey 0x62) fun _ => .integer 11,
        .insert false (letterKey 0x61) fun _ => .integer 12] ≠ none ∧
    Propagates (fun _ => foldedKey) r ⟨0, Nat.one_pos⟩
      [.update true (letterKey 0x61) (letterKey 0x62) fun _ => .integer 11,
        .insert false (letterKey 0x61) fun _ => .integer 12] := by
  rcases Reachable.exists_of_runs (step fun _ : Fin 1 => foldedKey)
    (fun r => ∃ site, r = Replica.empty _ site)
    (fun r e => e.Within (fun _ => letterCells) ∧ r.KeepsFeed e) ⟨[1], rfl⟩
    [.write ⟨0, Nat.one_pos⟩ (.insert false (letterKey 0x61) fun _ => .integer 10),
      .write ⟨0, Nat.one_pos⟩ (.insert false (letterKey 0x62) fun _ => .integer 20), .commit]
    (fun r => (applyStatement (fun _ => foldedKey) r ⟨0, Nat.one_pos⟩
        [.update true (letterKey 0x61) (letterKey 0x62) fun _ => .integer 11,
          .insert false (letterKey 0x61) fun _ => .integer 12]).isSome &&
      decide (r.Settled ∧ Replica.CarriesAll ⟨0, Nat.one_pos⟩ (r.rows ⟨0, Nat.one_pos⟩) r
        [.update true (letterKey 0x61) (letterKey 0x62) fun _ => .integer 11,
          .insert false (letterKey 0x61) fun _ => .integer 12])) (by decide) with ⟨r, hr, hgood⟩
  rw [Bool.and_eq_true, decide_eq_true_eq, Option.isSome_iff_ne_none] at hgood
  refine ⟨r, hgood.1, propagates_of_within (fun _ => rfl)
    (fun _ _ => (by decide : Value.null ≠ CLOUDSYNC_RLS_RESTRICTED_VALUE)) (fun _ => foldedKey_plain)
      r hr _ _ ?_ hgood.2.1 hgood.2.2⟩
  intro c hc
  rcases List.mem_pair.mp hc with rfl | rfl
  · exact (by decide : letterCells.Has (letterKey 0x62) fun _ => .integer 11)
  · exact (by decide : letterCells.Has (letterKey 0x61) fun _ => .integer 12)

end Declared
end SqliteSync.Store
