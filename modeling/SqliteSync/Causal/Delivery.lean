import SqliteSync.Store.Feed
import SqliteSync.Causal.Converge

/-!
# Rebuilding a row from its changes

A row `q` that merges changes another row `t` sends, in whatever order, becomes
`t` when the changes sent can say so: either `t` is dead, or each of its columns
is sent with a clock that overtakes what `q` holds, or has the value of `q`.
-/
namespace SqliteSync.Store
open Library Clock

namespace RowState
variable {table : TableContext} {n : ℕ} {q t s : RowState table}

def value (s : RowState table) (col : Fin table.ncols) : Option Value :=
  s.row.map fun row => row col

def version (s : RowState table) (col : Fin table.ncols) : Option ℤ :=
  (s.info (table.colName col)).map MetaRow.colVersion

/-- Two rows hold the same in a column. -/
def Agrees (s t : RowState table) (col : Fin table.ncols) : Prop :=
  s.value col = t.value col ∧ s.version col = t.version col

/-- What the columns of a row are decided on when changes of causal length `cl`
arrive: a row whose length grows starts over. -/
noncomputable def ground (q : RowState table) (cl : ℤ) : RowState table :=
  if q.localCl < cl then (q.setRow (some (q.row.getD table.dflt))).zeroColumns 0 else q

/-- The clock of `t` in a column overtakes that of `g`, or is level with it and
the value of `t` is the larger one. -/
def Overtakes (t g : RowState table) (col : Fin table.ncols) : Prop :=
  ∃ v row, t.version col = some v ∧ t.row = some row ∧
    ∀ v', g.version col = some v' → v' < v ∨ v' = v ∧
      0 < dbutilsValueCompare (some (row col)) (g.value col)

/-- The changes `t` sends under the names `sent` make `q` the row `t`. -/
inductive Delivers (q t : RowState table) (sent : Set String) : Prop
  | dead (heven : t.localCl % 2 = 0)
      (h : q.localCl = t.localCl ∨ q.localCl < t.localCl ∧ sent.Nonempty)
  | alive (hodd : t.localCl % 2 = 1)
      (h : q.localCl = t.localCl ∨ q.localCl < t.localCl ∧ sent.Nonempty)
      (hcol : ∀ col, (table.colName col ∈ sent ∧ t.Overtakes (q.ground t.localCl) col) ∨
        t.value col = (q.ground t.localCl).value col)

/-- What a column of a row on the way from `g` to `t` holds. -/
structure ColumnReceived (g t s : RowState table) (col : Fin table.ncols) (seen : Prop) :
    Prop where
  value : seen → s.value col = t.value col
  version : seen → t.Overtakes g col → s.version col = t.version col
  unseen : ¬ seen → s.Agrees g col

/-- A row on the way from `q` to `t`, which has merged the changes under the
names `seen`. -/
inductive Received (q t : RowState table) (seen : Set String) (s : RowState table) : Prop
  | before (hseen : seen = ∅) (hlt : q.localCl < t.localCl) (hs : s = q)
  | during (hcl : s.localCl = t.localCl)
      (hcol : t.localCl % 2 = 1 → ∀ col,
        ColumnReceived (q.ground t.localCl) t s col (table.colName col ∈ seen))

theorem ground_of_le {cl : ℤ} (h : ¬ q.localCl < cl) : q.ground cl = q := if_neg h

theorem ground_value_of_lt {cl : ℤ} (h : q.localCl < cl) (col : Fin table.ncols) :
    (q.ground cl).value col = some (q.row.getD table.dflt col) := by
  rw [ground, if_pos h]
  rfl

theorem zeroColumns_version (s : RowState table) (dbVersion : ℤ) (col : Fin table.ncols) :
    (s.zeroColumns dbVersion).version col = (s.version col).map fun _ => 0 := by
  rw [version, zeroColumns_info, if_neg (colName_ne_tombstone table col), version]
  cases s.info (table.colName col) <;> rfl

theorem ground_version_of_lt {cl : ℤ} (h : q.localCl < cl) (col : Fin table.ncols) :
    (q.ground cl).version col = (q.version col).map fun _ => 0 := by
  rw [ground, if_pos h, zeroColumns_version]
  rfl

@[simp] theorem setInfo_tombstone_version (s : RowState table) (m : MetaRow)
    (col : Fin table.ncols) :
    (s.setInfo CLOUDSYNC_TOMBSTONE_VALUE m).version col = s.version col := by
  rw [version, setInfo_info, if_neg (colName_ne_tombstone table col)]
  rfl

@[simp] theorem resurrect_value (s : RowState table) (cl : ℤ) (c : Change n) (st : Stamps)
    (col : Fin table.ncols) :
    (s.resurrect cl c st).value col = some (s.row.getD table.dflt col) := rfl

@[simp] theorem resurrect_version (s : RowState table) (cl : ℤ) (c : Change n) (st : Stamps)
    (col : Fin table.ncols) :
    (s.resurrect cl c st).version col = (s.version col).map fun _ => 0 := by
  rw [resurrect, setInfo_tombstone_version, zeroColumns_version]
  rfl

theorem take_value_self (s : RowState table) (col : Fin table.ncols) (c : Change n) (st : Stamps) :
    (s.take col c st).value col = some c.colValue := by
  simp [value]

theorem take_version_self {col : Fin table.ncols} {c : Change n}
    (hname : c.name = table.colName col) (st : Stamps) :
    (s.take col c st).version col = some c.colVersion := by
  rw [version, ← hname, take_info_self]
  rfl

theorem take_version_of_ne {col col' : Fin table.ncols} (hne : col' ≠ col) {c : Change n}
    (hname : c.name = table.colName col) (st : Stamps) :
    (s.take col c st).version col' = s.version col' := by
  rw [version, (take_other hne hname st).1, version]

theorem take_value_of_ne {col col' : Fin table.ncols} (hne : col' ≠ col) (c : Change n)
    (st : Stamps) : (s.take col c st).value col' = some (s.row.getD table.dflt col') := by
  simp [value, hne]

/-- A column of `s` is beaten by what `t` sends exactly when `t` overtakes it. -/
theorem beaten_iff_overtakes {g : RowState table} {col : Fin table.ncols} {c : Change n}
    (hname : c.name = table.colName col) (hc : t.Sends c) (h : s.Agrees g col) :
    s.Beaten col c ↔ t.Overtakes g col := by
  rcases hc.value col hname with ⟨row, hrow, hvalue⟩
  rcases hc.version with ⟨m, hm, hv, -⟩
  have hversion : t.version col = some c.colVersion := by
    rw [version, ← hname, hm, hv]
    rfl
  constructor
  · intro hb
    refine ⟨c.colVersion, row, hversion, hrow, fun v' hv' => ?_⟩
    rw [← h.2, version, Option.map_eq_some_iff] at hv'
    rcases hv' with ⟨m', hm', rfl⟩
    rw [← h.1, ← hvalue]
    exact hb m' (hname ▸ hm')
  · rintro ⟨v, row', hv', hrow', hle⟩ m' hm'
    rw [hversion, Option.some.injEq] at hv'
    rw [hrow, Option.some.injEq] at hrow'
    have hlt := hle m'.colVersion (by
      rw [← h.2, version, ← hname, hm']
      rfl)
    rw [← hv', ← hrow', ← hvalue, ← h.1] at hlt
    exact hlt

theorem Sends.wellFormed {c : Change n} (hc : t.Sends c) (ht : t.Consistent) : c.WellFormed := by
  rcases hc.version with ⟨m, hm, hv, -⟩
  rw [Change.WellFormed]
  split_ifs with htomb
  · rw [htomb] at hm
    rw [hv, hc.cl, localCl_of_sentinel hm]
  · rw [hc.cl]
    by_contra heven
    have hnone := ht.dead (by omega) c.name htomb
    rw [hm] at hnone
    cases hnone

theorem Sends.colVersion_of_tombstone {c : Change n} (hc : t.Sends c)
    (htomb : c.name = CLOUDSYNC_TOMBSTONE_VALUE) : c.colVersion = t.localCl := by
  rcases hc.version with ⟨m, hm, hv, -⟩
  rw [htomb] at hm
  rw [hv, localCl_of_sentinel hm]

/-- The next change of a column, once the row has the causal length of `t`. -/
theorem ColumnReceived.merge {g : RowState table} {col : Fin table.ncols} {seen : Prop}
    {c : Change n} (hname : c.name = table.colName col) (hc : t.Sends c)
    (hgoal : t.Overtakes g col ∨ t.value col = g.value col) (h : ColumnReceived g t s col seen)
    (st : Stamps) :
    (s.Beaten col c → ColumnReceived g t (s.take col c st) col True) ∧
      (¬ s.Beaten col c → ColumnReceived g t s col True) := by
  rcases hc.value col hname with ⟨row, hrow, hvalue⟩
  rcases hc.version with ⟨m, hm, hv, -⟩
  have hvalue' : t.value col = some c.colValue := by
    rw [RowState.value, hrow, hvalue]
    rfl
  have hversion' : t.version col = some c.colVersion := by
    rw [RowState.version, ← hname, hm, hv]
    rfl
  have htake : (s.take col c st).value col = t.value col :=
    (take_value_self s col c st).trans hvalue'.symm
  have hversion : (s.take col c st).version col = t.version col :=
    (take_version_self hname st).trans hversion'.symm
  constructor
  · intro _
    exact ⟨fun _ => htake, fun _ _ => hversion, fun hn => absurd trivial hn⟩
  · intro hb
    by_cases hseen : seen
    · exact ⟨fun _ => h.value hseen, fun _ => h.version hseen, fun hn => absurd trivial hn⟩
    · have hno := mt (beaten_iff_overtakes hname hc (h.unseen hseen)).mpr hb
      refine ⟨fun _ => ?_, fun _ ho => absurd ho hno, fun hn => absurd trivial hn⟩
      exact (h.unseen hseen).1.trans (hgoal.resolve_left hno).symm

theorem ColumnReceived.congr {g : RowState table} {s' : RowState table} {col : Fin table.ncols}
    {seen seen' : Prop} (h : ColumnReceived g t s col seen) (hseen : seen' ↔ seen)
    (hs : s'.Agrees s col) : ColumnReceived g t s' col seen' where
  value hn := hs.1.trans (h.value (hseen.mp hn))
  version hn ho := hs.2.trans (h.version (hseen.mp hn) ho)
  unseen hn := ⟨hs.1.trans (h.unseen (mt hseen.mpr hn)).1, hs.2.trans (h.unseen (mt hseen.mpr hn)).2⟩

theorem Received.start (hcl : q.localCl = t.localCl ∨ q.localCl < t.localCl) :
    Received q t ∅ q := by
  rcases hcl with heq | hlt
  · refine .during heq fun _ col => ?_
    rw [ground_of_le (by omega)]
    exact ⟨fun h => h.elim, fun h => h.elim, fun _ => ⟨rfl, rfl⟩⟩
  · exact .before rfl hlt rfl

theorem take_localCl {c : Change n} (hname : c.name ≠ CLOUDSYNC_TOMBSTONE_VALUE)
    (s : RowState table) (col : Fin table.ncols) (st : Stamps) :
    (s.take col c st).localCl = (s.sentinel.map MetaRow.colVersion).getD 1 :=
  localCl_setInfo (s.setRow _) hname _

theorem prepared_of_lt {c : Change n} (hq : q.Consistent) (hlt : q.localCl < c.cl) (st : Stamps) :
    (q.prepared c st).row.getD table.dflt = q.row.getD table.dflt ∧
      (∀ col, (q.prepared c st).version col = (q.version col).map fun _ => 0) ∧
      ((q.prepared c st).sentinel.map MetaRow.colVersion).getD 1 = c.cl := by
  rw [prepared]
  split_ifs with hrevives
  · refine ⟨rfl, fun col => resurrect_version q c.cl c st col, ?_⟩
    rw [resurrect, setInfo_tombstone_sentinel]
    rfl
  · have hpos := hq.localCl_nonneg
    have hzero : q.localCl = 0 := by omega
    refine ⟨rfl, fun col => ?_, ?_⟩
    · rw [version, (hq.info_of_zero hzero col).2]
      rfl
    · cases hs : q.sentinel with
      | none =>
        change 1 = c.cl
        omega
      | some m =>
        have hlong := hq.pos m hs
        rw [localCl_of_sentinel hs] at hzero
        omega

theorem Received.merge_before {c : Change n} (hq : q.Consistent) (ht : t.Consistent)
    (hc : t.Sends c)
    (hknown : c.name = CLOUDSYNC_TOMBSTONE_VALUE ∨ ∃ col, c.name = table.colName col)
    (hlt : q.localCl < t.localCl) (st : Stamps) :
    Received q t {c.name} (q.merged c st) := by
  have hcl := hc.cl
  have hpos := hq.localCl_nonneg
  -- a column the change does not name has been prepared, no more
  have hother : ∀ (s : RowState table) (col : Fin table.ncols), table.colName col ≠ c.name →
      s.value col = some (q.row.getD table.dflt col) →
      s.version col = (q.version col).map (fun _ => 0) →
        ColumnReceived (q.ground t.localCl) t s col (table.colName col ∈ ({c.name} : Set String)) := by
    intro s col hne hvalue hversion
    refine ⟨fun hin => (hne hin).elim, fun hin => (hne hin).elim, fun _ => ⟨?_, ?_⟩⟩
    · rw [hvalue, ground_value_of_lt hlt]
    · rw [hversion, ground_version_of_lt hlt]
  rw [merged, if_neg (by omega)]
  by_cases heven : c.cl % 2 = 0
  · have htomb : c.name = CLOUDSYNC_TOMBSTONE_VALUE := by
      by_contra hne
      rcases hc.version with ⟨m, hm, -⟩
      rw [ht.dead (by omega) c.name hne] at hm
      cases hm
    rw [if_pos heven, if_neg (by omega)]
    refine .during ?_ fun hodd => by omega
    rw [← hc.colVersion_of_tombstone htomb]
    apply localCl_of_sentinel (m := ⟨c.colVersion, st.sentinel, st.site, c.seq⟩)
    rw [bury, dropColumns_sentinel, htomb, setInfo_tombstone_sentinel]
  rw [if_neg heven]
  by_cases htomb : c.name = CLOUDSYNC_TOMBSTONE_VALUE
  · rw [if_pos htomb, if_neg (by omega)]
    refine .during ((localCl_of_alive _ _).trans (hc.colVersion_of_tombstone htomb)) fun _ col => ?_
    exact hother _ col (htomb ▸ colName_ne_tombstone table col) (resurrect_value q _ c st col)
      (resurrect_version q _ c st col)
  · rcases hknown.resolve_left htomb with ⟨col, hname⟩
    have hcol : tableColumnLookup table c.name = some col := by
      rw [hname, tableColumnLookup_colName]
    rcases prepared_of_lt hq (show q.localCl < c.cl by omega) st with ⟨hrow, hversion, hsentinel⟩
    rcases hc.value col hname with ⟨row, htrow, hvalue⟩
    rcases hc.version with ⟨m, hm, hv, -⟩
    rw [if_neg htomb, columnMerged_of_wins hcol (.inl (by omega))]
    refine .during ?_ fun _ col' => ?_
    · rw [take_localCl htomb, hsentinel, hcl]
    · by_cases hne : col' = col
      · subst hne
        refine ⟨fun _ => ?_, fun _ _ => ?_, fun hnot => (hnot hname.symm).elim⟩
        · rw [take_value_self, value, htrow, hvalue]
          rfl
        · rw [take_version_self hname, version, ← hname, hm, hv]
          rfl
      · apply hother
        · rw [hname]
          exact fun he => hne (table.colName_injective he)
        · rw [take_value_of_ne hne, hrow]
        · rw [take_version_of_ne hne hname, hversion]

theorem Received.merge_during {seen : Set String} {c : Change n} (hs : s.Consistent)
    (hc : t.Sends c)
    (hknown : c.name = CLOUDSYNC_TOMBSTONE_VALUE ∨ ∃ col, c.name = table.colName col)
    (hgoal : t.localCl % 2 = 1 → ∀ col, c.name = table.colName col →
      t.Overtakes (q.ground t.localCl) col ∨ t.value col = (q.ground t.localCl).value col)
    (hcl : s.localCl = t.localCl)
    (hcol : t.localCl % 2 = 1 → ∀ col,
      ColumnReceived (q.ground t.localCl) t s col (table.colName col ∈ seen)) (st : Stamps) :
    Received q t (insert c.name seen) (s.merged c st) := by
  have hlen := hc.cl
  have hseen : ∀ col, table.colName col ≠ c.name →
      (table.colName col ∈ insert c.name seen ↔ table.colName col ∈ seen) :=
    fun col hne => ⟨fun hin => hin.resolve_left hne, fun hin => .inr hin⟩
  rw [merged, if_neg (by omega)]
  by_cases heven : c.cl % 2 = 0
  · rw [if_pos heven, if_pos (by omega)]
    exact .during hcl fun hodd => by omega
  rw [if_neg heven]
  have hodd : t.localCl % 2 = 1 := by omega
  by_cases htomb : c.name = CLOUDSYNC_TOMBSTONE_VALUE
  · rw [if_pos htomb, if_pos (by omega)]
    exact .during hcl fun _ col => (hcol hodd col).congr
      (hseen col (htomb ▸ colName_ne_tombstone table col)) ⟨rfl, rfl⟩
  · rcases hknown.resolve_left htomb with ⟨col, hname⟩
    have hlookup : tableColumnLookup table c.name = some col := by
      rw [hname, tableColumnLookup_colName]
    have hin : table.colName col ∈ insert c.name seen ↔ True := by
      rw [hname]
      exact iff_true_intro (.inl rfl)
    have hne : ∀ col', col' ≠ col → table.colName col' ≠ c.name := by
      intro col' hne
      rw [hname]
      exact fun he => hne (table.colName_injective he)
    have hstep := (hcol hodd col).merge hname hc (hgoal hodd col hname) st
    have hprep : s.prepared c st = s := if_neg fun h => by omega
    rw [if_neg htomb]
    by_cases hbeaten : s.Beaten col c
    · rw [columnMerged_of_wins hlookup (.inr hbeaten), hprep]
      refine .during ?_ fun _ col' => ?_
      · rw [take_localCl htomb, ← localCl_of_metadata (exists_info_of_odd (by omega)), hcl]
      · by_cases hcol' : col' = col
        · subst hcol'
          exact (hstep.1 hbeaten).congr hin ⟨rfl, rfl⟩
        · apply (hcol hodd col').congr (hseen col' (hne col' hcol'))
          -- the row is alive, so what its other columns hold stays
          rcases Option.ne_none_iff_exists'.mp (hs.row_iff.mpr (by omega)) with ⟨row, hrow⟩
          refine ⟨?_, take_version_of_ne hcol' hname st⟩
          rw [take_value_of_ne hcol', value, hrow]
          rfl
    · rw [columnMerged_of_loses hlookup (not_or.mpr ⟨by omega, hbeaten⟩)]
      refine .during hcl fun _ col' => ?_
      by_cases hcol' : col' = col
      · subst hcol'
        exact (hstep.2 hbeaten).congr hin ⟨rfl, rfl⟩
      · exact (hcol hodd col').congr (hseen col' (hne col' hcol')) ⟨rfl, rfl⟩

theorem Received.merge {sent seen : Set String} {c : Change n} (hq : q.Consistent)
    (ht : t.Consistent) (hs : s.Consistent) (hd : q.Delivers t sent) (hc : t.Sends c)
    (hknown : c.name = CLOUDSYNC_TOMBSTONE_VALUE ∨ ∃ col, c.name = table.colName col)
    (h : Received q t seen s) (st : Stamps) :
    Received q t (insert c.name seen) (s.merged c st) := by
  cases h with
  | before hseen hlt hsame =>
    rw [hsame, hseen, insert_empty_eq]
    exact merge_before hq ht hc hknown hlt st
  | during hcl hcol =>
    apply merge_during hs hc hknown _ hcl hcol st
    intro hodd col _
    cases hd with
    | dead heven => omega
    | alive _ _ hgoal => exact (hgoal col).imp_left And.right

/-- Rows that agree in every column, where one exists if the other does, are one row. -/
theorem row_eq_of_value (hrow : s.row ≠ none ↔ t.row ≠ none)
    (hvalue : ∀ col, s.value col = t.value col) : s.row = t.row := by
  cases hs : s.row with
  | none =>
    cases ht : t.row with
    | none => rfl
    | some row => exact absurd hs (hrow.mpr (ht ▸ Option.some_ne_none row))
  | some row =>
    rcases Option.ne_none_iff_exists'.mp (hrow.mp (hs ▸ Option.some_ne_none row)) with ⟨row', ht⟩
    rw [ht, Option.some.injEq]
    funext col
    have hcol := hvalue col
    rw [value, value, hs, ht] at hcol
    exact Option.some_inj.mp hcol

theorem Received.finish {sent : Set String} (ht : t.Consistent) (hs : s.Consistent)
    (hd : q.Delivers t sent) (h : Received q t sent s) :
    s.row = t.row ∧ s.localCl = t.localCl ∧ (t.localCl % 2 = 1 → ∀ col,
      ColumnReceived (q.ground t.localCl) t s col (table.colName col ∈ sent)) := by
  cases h with
  | before hseen hlt =>
    have hreach : q.localCl = t.localCl ∨ q.localCl < t.localCl ∧ sent.Nonempty := by
      cases hd with
      | dead _ hreach => exact hreach
      | alive _ hreach _ => exact hreach
    rcases hreach with heq | ⟨_, hsent⟩
    · omega
    · exact (hsent.ne_empty hseen).elim
  | during hcl hcol =>
    refine ⟨row_eq_of_value ?_ fun col => ?_, hcl, hcol⟩
    · rw [hs.row_iff, ht.row_iff, hcl]
    · by_cases hodd : t.localCl % 2 = 1
      · have hreceived := hcol hodd col
        by_cases hin : table.colName col ∈ sent
        · exact hreceived.value hin
        · rw [(hreceived.unseen hin).1]
          cases hd with
          | dead heven => omega
          | alive _ _ hgoal => exact ((hgoal col).resolve_left fun hno => hin hno.1).symm
      · have hnone : s.row = none := by
          by_contra hrow
          exact hodd (hcl ▸ hs.row_iff.mp hrow)
        have hnone' : t.row = none := by
          by_contra hrow
          exact hodd (ht.row_iff.mp hrow)
        rw [value, value, hnone, hnone']

end RowState

section
variable {n : ℕ} {schema : Fin n → TableContext}

def sentNames (D : List (Change n)) (i : Fin n) (pk : Pk) : Set String :=
  Change.name '' Replica.changesOf D i pk

/-- A replica that merges changes the rows of another one send, in whatever order,
holds rows that are on their way to those, and have received all that was sent. -/
theorem deliver_received (hcls : ∀ i, (schema i).algo = .crdtCls) {r : Replica schema}
    {t : (i : Fin n) → Pk → RowState (schema i)} {D : List (Change n)}
    (hr : ∀ i pk, (r.rows i pk).Consistent) (ht : ∀ i pk, (t i pk).Consistent)
    (hnamed : ∀ i pk, (t i pk).Named) (hsends : ∀ c ∈ D, (t c.tbl c.pk).Sends c)
    (hdelivers : ∀ i pk, (r.rows i pk).Delivers (t i pk) (sentNames D i pk)) (i : Fin n) (pk : Pk) :
    ((r.deliver D).rows i pk).Consistent ∧
      (r.rows i pk).Received (t i pk) (sentNames D i pk) ((r.deliver D).rows i pk) := by
  have hrule := Replica.deliver_rule (D := D) hcls
    (P := fun i pk E s => s.Consistent ∧ (r.rows i pk).Received (t i pk) (Change.name '' E) s)
    (fun i pk E s h => h.1.localCl_nonneg) ?_ (r := r) (E := fun _ _ => ∅) ?_ i pk
  · rw [Set.union_empty] at hrule
    exact hrule
  · rintro c st E s hc ⟨hs, h⟩
    have hsend := hsends c hc
    refine ⟨RowState.consistent_merged hs (hsend.wellFormed (ht c.tbl c.pk)) st, ?_⟩
    rw [Set.image_insert_eq]
    refine h.merge (hr c.tbl c.pk) (ht c.tbl c.pk) hs (hdelivers c.tbl c.pk) hsend ?_ st
    rcases hsend.version with ⟨m, hm, -⟩
    exact hnamed c.tbl c.pk c.name (hm ▸ Option.some_ne_none m)
  · intro i pk
    refine ⟨hr i pk, ?_⟩
    rw [Set.image_empty]
    apply RowState.Received.start
    cases hdelivers i pk with
    | dead _ h => exact h.imp_right And.left
    | alive _ h _ => exact h.imp_right And.left

end
end SqliteSync.Store
