import SqliteSync.Causal.Parity

/-!
# Convergence of merges

A set of changes of one row determines the row: its causal length is the
largest of the set, and each column of a living row holds the change of that
length that is greatest by version and then by value. A row that merges the
changes in some order, some of them again, keeps track of the greatest so far.
-/
namespace SqliteSync.Store
open Library Clock

/-- The order in which changes of a column beat each other: version, then value. -/
def rank (colVersion : ℤ) (value : Value) : ℤ ×ₗ ℤ ×ₗ ℤ ×ₗ List ℕ :=
  toLex (colVersion, compareKey value)

theorem rank_lt_iff (v w : ℤ) (x y : Value) :
    rank v x < rank w y ↔ v < w ∨ v = w ∧ 0 < dbutilsValueCompare (some y) (some x) := by
  rw [rank, rank, Prod.Lex.toLex_lt_toLex, dbutilsValueCompare_pos_iff]

theorem rank_eq_iff (v w : ℤ) (x y : Value) :
    rank v x = rank w y ↔ v = w ∧ dbutilsValueCompare (some x) (some y) = 0 := by
  rw [rank, rank, EmbeddingLike.apply_eq_iff_eq, Prod.mk.injEq, dbutilsValueCompare_eq_zero_iff]

namespace RowState
variable {table : TableContext} {n : ℕ}

/-- The changes of a set that decide a column: those of the causal length `cl`. -/
def deciding (D : Set (Change n)) (cl : ℤ) (name : String) : Set (Change n) :=
  {c | c ∈ D ∧ c.cl = cl ∧ c.name = name}

def HoldsGreatest (s : RowState table) (col : Fin table.ncols) (D : Set (Change n)) : Prop :=
  ∃ m row, s.info (table.colName col) = some m ∧ s.row = some row ∧
    (∃ c ∈ D, c.colVersion = m.colVersion ∧ c.colValue = row col) ∧
    ∀ c ∈ D, rank c.colVersion c.colValue ≤ rank m.colVersion (row col)

/-- The column was never written: it has no clock and its default value. -/
def HoldsDefault (s : RowState table) (col : Fin table.ncols) : Prop :=
  s.info (table.colName col) = none ∧ ∃ row, s.row = some row ∧ row col = table.dflt col

def StartsOver (s : RowState table) (col : Fin table.ncols) : Prop :=
  ∀ m, s.info (table.colName col) = some m → m.colVersion ≤ 0

/-- What a column of a living row holds of the changes that decide it. A row in
its first life writes the first it meets over a default; a row brought back
keeps an old value until a change with a positive version decides. -/
inductive TracksColumn (s : RowState table) (col : Fin table.ncols) (D : Set (Change n)) : Prop
  | greatest (h : s.HoldsGreatest col D)
  | untouched (hempty : D = ∅) (hfirst : s.localCl = 1) (h : s.HoldsDefault col)
  | stale (hlater : s.localCl ≠ 1) (hzero : ∀ c ∈ D, c.colVersion ≤ 0) (h : s.StartsOver col)

/-- What a row holds of the changes it has merged. -/
structure Tracks (s : RowState table) (D : Set (Change n)) : Prop where
  consistent : s.Consistent
  le_localCl : ∀ c ∈ D, c.cl ≤ s.localCl
  exists_localCl : s.localCl ≠ 0 → ∃ c ∈ D, c.cl = s.localCl
  columns : s.localCl % 2 = 1 → ∀ col,
    s.TracksColumn col (deciding D s.localCl (table.colName col))

theorem tracks_absent : (absent table).Tracks (∅ : Set (Change n)) where
  consistent := consistent_absent
  le_localCl _ hc := hc.elim
  exists_localCl h := absurd localCl_absent h
  columns h := by
    rw [localCl_absent] at h
    cases h

variable {s : RowState table} {D : Set (Change n)} {c : Change n}

theorem deciding_insert_of_ne {cl : ℤ} {name : String} (h : ¬ (c.cl = cl ∧ c.name = name)) :
    deciding (insert c D) cl name = deciding D cl name := by
  ext d
  simp only [deciding, Set.mem_insert_iff, Set.mem_ofPred_eq]
  constructor
  · rintro ⟨rfl | hd, hcl, hname⟩
    · exact absurd ⟨hcl, hname⟩ h
    · exact ⟨hd, hcl, hname⟩
  · rintro ⟨hd, hcl, hname⟩
    exact ⟨.inr hd, hcl, hname⟩

theorem deciding_insert_self (D : Set (Change n)) (c : Change n) :
    deciding (insert c D) c.cl c.name = insert c (deciding D c.cl c.name) := by
  ext d
  simp only [deciding, Set.mem_insert_iff, Set.mem_ofPred_eq]
  constructor
  · rintro ⟨rfl | hd, hcl, hname⟩
    · exact .inl rfl
    · exact .inr ⟨hd, hcl, hname⟩
  · rintro (rfl | ⟨hd, hcl, hname⟩)
    · exact ⟨.inl rfl, rfl, rfl⟩
    · exact ⟨.inr hd, hcl, hname⟩

theorem Tracks.deciding_eq_empty (h : s.Tracks D) {cl : ℤ} (hcl : s.localCl < cl)
    (name : String) : deciding D cl name = ∅ := by
  ext d
  simp only [deciding, Set.mem_ofPred_eq, Set.mem_empty_iff_false, iff_false]
  rintro ⟨hd, rfl, -⟩
  exact absurd (h.le_localCl d hd) (not_le.mpr hcl)

/-- A change that leaves the row as it is, and decides none of its columns, or
one that is even. -/
theorem Tracks.ignore (h : s.Tracks D) (hle : c.cl ≤ s.localCl)
    (hcol : s.localCl % 2 = 1 → ∀ col, ¬ (c.cl = s.localCl ∧ c.name = table.colName col)) :
    s.Tracks (insert c D) where
  consistent := h.consistent
  le_localCl d hd := by
    rcases Set.mem_insert_iff.mp hd with rfl | hd
    · exact hle
    · exact h.le_localCl d hd
  exists_localCl hne := by
    rcases h.exists_localCl hne with ⟨d, hd, he⟩
    exact ⟨d, .inr hd, he⟩
  columns hodd col := by
    rw [deciding_insert_of_ne (hcol hodd col)]
    exact h.columns hodd col

theorem Tracks.advance (h : s.Tracks D) {t : RowState table} (ht : t.Consistent)
    (hcl : t.localCl = c.cl) (hlt : s.localCl < c.cl)
    (hcol : t.localCl % 2 = 1 → ∀ col,
      t.TracksColumn col (deciding {c} t.localCl (table.colName col))) :
    t.Tracks (insert c D) where
  consistent := ht
  le_localCl d hd := by
    rw [hcl]
    rcases Set.mem_insert_iff.mp hd with rfl | hd
    · exact le_rfl
    · exact (h.le_localCl d hd).trans hlt.le
  exists_localCl _ := ⟨c, .inl rfl, hcl.symm⟩
  columns hodd col := by
    have hd : deciding (insert c D) t.localCl (table.colName col) =
        deciding {c} t.localCl (table.colName col) := by
      have hempty := h.deciding_eq_empty hlt (table.colName col)
      rw [hcl]
      ext d
      have hmem : d ∉ deciding D c.cl (table.colName col) := by
        rw [hempty]
        exact Set.notMem_empty d
      simp only [deciding, Set.mem_ofPred_eq, Set.mem_insert_iff, Set.mem_singleton_iff] at hmem ⊢
      constructor
      · rintro ⟨rfl | hd, hrest⟩
        · exact ⟨rfl, hrest⟩
        · exact absurd ⟨hd, hrest⟩ hmem
      · rintro ⟨rfl, hrest⟩
        exact ⟨.inl rfl, hrest⟩
    rw [hd]
    exact hcol hodd col

theorem beaten_iff_rank {col : Fin table.ncols} (hname : c.name = table.colName col) {m : MetaRow}
    {row : Row table} (hm : s.info (table.colName col) = some m) (hrow : s.row = some row) :
    s.Beaten col c ↔ rank m.colVersion (row col) < rank c.colVersion c.colValue := by
  rw [beaten_iff (hname ▸ hm), hrow, rank_lt_iff]
  rfl

@[simp] theorem take_row (s : RowState table) (col : Fin table.ncols) (c : Change n) (st : Stamps) :
    (s.take col c st).row =
      some (Function.update (s.row.getD table.dflt) col c.colValue) := rfl

theorem take_info_self (s : RowState table) (col : Fin table.ncols) (c : Change n) (st : Stamps) :
    (s.take col c st).info c.name = some ⟨c.colVersion, st.column, st.site, c.seq⟩ := by
  simp [take]

theorem take_info_of_ne (s : RowState table) (col : Fin table.ncols) {name : String}
    (h : name ≠ c.name) (st : Stamps) : (s.take col c st).info name = s.info name := by
  simp [take, h]

theorem take_other {col col' : Fin table.ncols} (hne : col' ≠ col)
    (hname : c.name = table.colName col) (st : Stamps) :
    (s.take col c st).info (table.colName col') = s.info (table.colName col') ∧
      (s.row.getD table.dflt) col' = (Function.update (s.row.getD table.dflt) col c.colValue) col' := by
  refine ⟨take_info_of_ne s col ?_ st, (Function.update_of_ne hne _ _).symm⟩
  rw [hname]
  exact fun he => hne (table.colName_injective he)

/-- The column just written holds the greatest change, if no other is greater. -/
theorem holdsGreatest_take {col : Fin table.ncols} (hname : c.name = table.colName col)
    {D' : Set (Change n)} (hc : c ∈ D')
    (hle : ∀ d ∈ D', rank d.colVersion d.colValue ≤ rank c.colVersion c.colValue) (st : Stamps) :
    (s.take col c st).HoldsGreatest col D' := by
  refine ⟨_, _, hname ▸ take_info_self s col c st, take_row s col c st, ⟨c, hc, rfl, ?_⟩, ?_⟩
  · rw [Function.update_self]
  · rw [Function.update_self]
    exact hle

theorem TracksColumn.of_same {t : RowState table} {col : Fin table.ncols} {D' : Set (Change n)}
    (h : s.TracksColumn col D') (hcl : t.localCl = s.localCl)
    (hinfo : t.info (table.colName col) = s.info (table.colName col))
    (hrow : ∀ row, s.row = some row → ∃ row', t.row = some row' ∧ row' col = row col) :
    t.TracksColumn col D' := by
  cases h with
  | greatest h =>
    rcases h with ⟨m, row, hm, hr, hmem, hle⟩
    rcases hrow row hr with ⟨row', hr', he⟩
    exact .greatest ⟨m, row', hinfo.trans hm, hr', he ▸ hmem, he ▸ hle⟩
  | untouched hempty hfirst h =>
    rcases h.2 with ⟨row, hr, hd⟩
    rcases hrow row hr with ⟨row', hr', he⟩
    exact .untouched hempty (hcl.trans hfirst) ⟨hinfo.trans h.1, row', hr', he.trans hd⟩
  | stale hlater hzero h =>
    exact .stale (hcl ▸ hlater) hzero (fun m hm => h m (hinfo ▸ hm))

theorem Consistent.info_of_zero (h : s.Consistent) (hcl : s.localCl = 0) (col : Fin table.ncols) :
    s.row = none ∧ s.info (table.colName col) = none := by
  constructor
  · by_contra hrow
    have := h.row_iff.mp hrow
    omega
  · exact h.dead (by omega) _ (colName_ne_tombstone table col)

/-- Bringing a row to life: in its first life every column is a default, later
every clock starts over. -/
theorem tracksColumn_resurrect (h : s.Consistent) {cl : ℤ} (hlt : s.localCl < cl)
    (hodd : cl % 2 = 1) (hpos : 0 ≤ s.localCl) (st : Stamps) (col : Fin table.ncols)
    {D' : Set (Change n)} (hempty : D' = ∅) : (s.resurrect cl c st).TracksColumn col D' := by
  have hcl : (s.resurrect cl c st).localCl = cl := localCl_of_alive _ _
  have hne := colName_ne_tombstone table col
  by_cases hfirst : cl = 1
  · rcases h.info_of_zero (by omega) col with ⟨hrow, hinfo⟩
    refine .untouched hempty (hcl.trans hfirst) ⟨?_, table.dflt, ?_, rfl⟩
    · simp [resurrect, hne, hinfo]
    · simp [resurrect, hrow]
  · refine .stale (hcl ▸ hfirst) (by simp [hempty]) ?_
    intro m hm
    simp only [resurrect, setInfo_info, if_neg hne, zeroColumns_info, Option.map_eq_some_iff] at hm
    rcases hm with ⟨m', -, rfl⟩
    exact le_rfl

theorem localCl_take {col : Fin table.ncols} (hname : c.name = table.colName col) (st : Stamps) :
    (s.take col c st).localCl = (s.sentinel.map MetaRow.colVersion).getD 1 :=
  localCl_setInfo _ (hname ▸ colName_ne_tombstone table col) _

theorem localCl_take_of_alive (hodd : s.localCl % 2 = 1) {col : Fin table.ncols}
    (hname : c.name = table.colName col) (st : Stamps) : (s.take col c st).localCl = s.localCl := by
  rw [localCl_take hname, localCl_of_metadata (exists_info_of_odd hodd)]

/-- A change that beats the column is the greatest once taken, one that does not
leaves the greatest alone. -/
theorem HoldsGreatest.merge {col : Fin table.ncols} {D' : Set (Change n)}
    (h : s.HoldsGreatest col D') (hname : c.name = table.colName col) (st : Stamps) :
    (s.Beaten col c → (s.take col c st).HoldsGreatest col (insert c D')) ∧
      (¬ s.Beaten col c → s.HoldsGreatest col (insert c D')) := by
  rcases h with ⟨m, row, hm, hrow, ⟨d, hd, he⟩, hle⟩
  rw [beaten_iff_rank hname hm hrow]
  constructor
  · intro hlt
    apply holdsGreatest_take hname (Set.mem_insert c D')
    intro d hd
    rcases Set.mem_insert_iff.mp hd with rfl | hd
    · exact le_rfl
    · exact (hle d hd).trans hlt.le
  · intro hnot
    refine ⟨m, row, hm, hrow, ⟨d, .inr hd, he⟩, fun d hd => ?_⟩
    rcases Set.mem_insert_iff.mp hd with rfl | hd
    · exact not_lt.mp hnot
    · exact hle d hd

theorem TracksColumn.merge (hodd : s.localCl % 2 = 1) {col : Fin table.ncols}
    {D' : Set (Change n)} (h : s.TracksColumn col D') (hname : c.name = table.colName col)
    (hpos : 0 ≤ c.colVersion) (st : Stamps) :
    (s.Beaten col c → (s.take col c st).TracksColumn col (insert c D')) ∧
      (¬ s.Beaten col c → s.TracksColumn col (insert c D')) := by
  have hcl := localCl_take_of_alive hodd hname st
  cases h with
  | greatest h =>
    exact ⟨fun hb => .greatest ((h.merge hname st).1 hb), fun hb => .greatest ((h.merge hname st).2 hb)⟩
  | untouched hempty hfirst h =>
    have hbeaten : s.Beaten col c := beaten_of_none (hname ▸ h.1) col
    refine ⟨fun _ => .greatest ?_, fun hb => absurd hbeaten hb⟩
    apply holdsGreatest_take hname (Set.mem_insert c D')
    simp [hempty]
  | stale hlater hzero h =>
    by_cases hv : c.colVersion ≤ 0
    · have hzero' : ∀ d ∈ insert c D', d.colVersion ≤ 0 := by
        intro d hd
        rcases Set.mem_insert_iff.mp hd with rfl | hd
        · exact hv
        · exact hzero d hd
      refine ⟨fun _ => .stale (hcl ▸ hlater) hzero' ?_, fun _ => .stale hlater hzero' h⟩
      intro m hm
      rw [← hname, take_info_self] at hm
      cases hm
      exact hv
    · have hbeaten : s.Beaten col c := fun m hm => .inl (by
        have := h m (hname ▸ hm)
        omega)
      refine ⟨fun _ => .greatest ?_, fun hb => absurd hbeaten hb⟩
      apply holdsGreatest_take hname (Set.mem_insert c D')
      intro d hd
      rcases Set.mem_insert_iff.mp hd with rfl | hd
      · exact le_rfl
      · have hd0 := hzero d hd
        exact ((rank_lt_iff d.colVersion c.colVersion d.colValue c.colValue).mpr
          (.inl (by omega))).le

theorem Tracks.merge_column (h : s.Tracks D) (hcl : c.cl = s.localCl) (hodd : s.localCl % 2 = 1)
    {col : Fin table.ncols} (hname : c.name = table.colName col) (hpos : 0 ≤ c.colVersion)
    (st : Stamps) :
    (s.Beaten col c → (s.take col c st).Tracks (insert c D)) ∧
      (¬ s.Beaten col c → s.Tracks (insert c D)) := by
  have hle : ∀ d ∈ insert c D, d.cl ≤ s.localCl := by
    intro d hd
    rcases Set.mem_insert_iff.mp hd with rfl | hd
    · exact hcl.le
    · exact h.le_localCl d hd
  have hself : deciding (insert c D) s.localCl (table.colName col) =
      insert c (deciding D s.localCl (table.colName col)) := by
    rw [← hcl, ← hname]
    exact deciding_insert_self D c
  have hother : ∀ col', col' ≠ col → deciding (insert c D) s.localCl (table.colName col') =
      deciding D s.localCl (table.colName col') := by
    intro col' hne
    apply deciding_insert_of_ne
    rintro ⟨-, he⟩
    exact hne (table.colName_injective (he.symm.trans hname))
  have hcolumn := (h.columns hodd col).merge hodd hname hpos st
  rw [← hself] at hcolumn
  constructor
  · intro hbeaten
    have hcl' := localCl_take_of_alive hodd hname st
    have hexists : ∃ d ∈ insert c D, d.cl = (s.take col c st).localCl :=
      ⟨c, Set.mem_insert c D, hcl.trans hcl'.symm⟩
    refine ⟨?_, fun d hd => hcl'.symm ▸ hle d hd, fun _ => hexists, fun _ col' => ?_⟩
    · exact h.consistent.take (.inl hodd) (hname ▸ colName_ne_tombstone table col) col st
    rw [hcl']
    by_cases hne : col' = col
    · subst hne
      exact hcolumn.1 hbeaten
    · rw [hother col' hne]
      rcases take_other (s := s) hne hname st with ⟨hinfo, hrow⟩
      apply (h.columns hodd col').of_same hcl' hinfo
      intro row hr
      refine ⟨_, take_row s col c st, ?_⟩
      rw [← hrow, hr]
      rfl
  · intro hbeaten
    refine ⟨h.consistent, hle, fun _ => ⟨c, .inl rfl, hcl⟩, fun _ col' => ?_⟩
    by_cases hne : col' = col
    · subst hne
      exact hcolumn.2 hbeaten
    · rw [hother col' hne]
      exact h.columns hodd col'

theorem Tracks.revive_column (h : s.Tracks D) (hlt : s.localCl < c.cl) (hodd : c.cl % 2 = 1)
    {col : Fin table.ncols} (hname : c.name = table.colName col) (st : Stamps) :
    ((s.prepared c st).take col c st).Tracks (insert c D) := by
  have hpos := h.consistent.localCl_nonneg
  have hne := hname ▸ colName_ne_tombstone table col
  have hprep := h.consistent.prepared hodd hlt.le st
  have hcl : ((s.prepared c st).take col c st).localCl = c.cl := by
    rw [localCl_take hname, prepared]
    split_ifs with hrev
    · simp [resurrect]
    · have hzero : s.localCl = 0 := by omega
      cases hs : s.sentinel with
      | none =>
        simp only [Option.map_none, Option.getD_none]
        omega
      | some m =>
        have := h.consistent.pos m hs
        rw [localCl_of_sentinel hs] at hzero
        omega
  refine h.advance (hprep.take (localCl_prepared hodd hpos hlt.le st) hne col st) hcl hlt ?_
  intro _ col'
  rw [hcl]
  by_cases hcol : col' = col
  · subst hcol
    have hmem : c ∈ deciding {c} c.cl (table.colName col') := ⟨rfl, rfl, hname⟩
    apply TracksColumn.greatest
    apply holdsGreatest_take hname hmem
    rintro d ⟨rfl, -, -⟩
    exact le_rfl
  have hempty : deciding {c} c.cl (table.colName col') = ∅ := by
    ext d
    simp only [deciding, Set.mem_ofPred_eq, Set.mem_singleton_iff, Set.mem_empty_iff_false,
      iff_false]
    rintro ⟨rfl, -, he⟩
    exact hcol (table.colName_injective (he.symm.trans hname))
  rcases take_other (s := s.prepared c st) hcol hname st with ⟨hinfo, hrow⟩
  by_cases hrev : s.localCl < c.cl ∧ (s.localCl ≠ 0 ∨ 1 < c.cl)
  · have hp : s.prepared c st = s.resurrect c.cl c st := if_pos hrev
    have hr : (s.resurrect c.cl c st).localCl = c.cl := localCl_of_alive _ _
    rw [hp] at hinfo hrow hcl ⊢
    refine (tracksColumn_resurrect h.consistent hlt hodd hpos st col' hempty).of_same
      (hcl.trans hr.symm) hinfo ?_
    intro row hrow'
    refine ⟨_, take_row _ col c st, ?_⟩
    rw [← hrow, hrow']
    rfl
  · have hp : s.prepared c st = s := if_neg hrev
    rw [hp] at hinfo hrow hcl ⊢
    rcases h.consistent.info_of_zero (by omega) col' with ⟨hnone, hno⟩
    refine .untouched hempty (by omega) ⟨hinfo.trans hno, _, take_row s col c st, ?_⟩
    rw [← hrow, hnone]
    rfl

/-- Merging a change keeps track of it, in whatever order it comes. -/
theorem tracks_merged (h : s.Tracks D) (hwf : c.WellFormedFor table) (st : Stamps) :
    (s.merged c st).Tracks (insert c D) := by
  have hpos := h.consistent.localCl_nonneg
  rw [merged]
  split_ifs with hold heven heq htomb heq
  · exact h.ignore hold.le fun _ _ he => absurd he.1 hold.ne
  · exact h.ignore heq.ge fun hodd => by omega
  · rcases hwf with ⟨htomb, hcl, -⟩ | ⟨-, hodd, -⟩
    · have hlt : s.localCl < c.cl := by omega
      have hs : (s.bury c st).localCl = c.cl := by
        rw [bury, htomb, localCl_of_sentinel ((dropColumns_sentinel _).trans
          (setInfo_tombstone_sentinel _ _))]
        exact hcl
      refine h.advance (h.consistent.bury htomb hcl heven hlt st) hs hlt fun hodd => ?_
      omega
    · omega
  · exact h.ignore heq.ge fun _ col he => colName_ne_tombstone table col (he.2.symm.trans htomb)
  · rcases hwf with ⟨-, hcl, -⟩ | ⟨⟨col, hname⟩, -⟩
    · have hlt : s.localCl < c.cl := by omega
      have hodd : c.cl % 2 = 1 := by omega
      have hs : (s.resurrect c.colVersion c st).localCl = c.cl := (localCl_of_alive _ _).trans hcl
      refine h.advance (h.consistent.resurrect (hcl ▸ hodd) (by omega) st) hs hlt fun _ col => ?_
      refine tracksColumn_resurrect h.consistent (hcl ▸ hlt) (hcl ▸ hodd) hpos st col ?_
      ext d
      simp only [deciding, Set.mem_ofPred_eq, Set.mem_singleton_iff, Set.mem_empty_iff_false,
        iff_false]
      rintro ⟨rfl, -, he⟩
      exact colName_ne_tombstone table col (he.symm.trans htomb)
    · exact absurd (hname.symm.trans htomb) (colName_ne_tombstone table col)
  · rcases hwf with ⟨hname, -⟩ | ⟨⟨col, hname⟩, hodd, hv⟩
    · exact absurd hname htomb
    have hcol : tableColumnLookup table c.name = some col := by
      rw [hname, tableColumnLookup_colName]
    by_cases hlt : s.localCl < c.cl
    · rw [columnMerged_of_wins hcol (.inl hlt)]
      exact h.revive_column hlt hodd hname st
    · have hcl : c.cl = s.localCl := by omega
      have hp : s.prepared c st = s := if_neg fun hrev => hlt hrev.1
      have hmerge := h.merge_column hcl (hcl ▸ hodd) hname hv st
      by_cases hbeaten : s.Beaten col c
      · rw [columnMerged_of_wins hcol (.inr hbeaten), hp]
        exact hmerge.1 hbeaten
      · rw [columnMerged_of_loses hcol (not_or.mpr ⟨hlt, hbeaten⟩)]
        exact hmerge.2 hbeaten

/-- A row with a causal length took it from a change, and no other is larger. -/
theorem Tracks.localCl_le {t : RowState table} (h : s.Tracks D) (ht : t.Tracks D) :
    s.localCl ≤ t.localCl := by
  by_cases hzero : s.localCl = 0
  · rw [hzero]
    exact ht.consistent.localCl_nonneg
  · rcases h.exists_localCl hzero with ⟨c, hc, hcl⟩
    rw [← hcl]
    exact ht.le_localCl c hc

/-- Of equal rank, two changes of a set have the same version and the same value. -/
theorem HoldsGreatest.unique {t : RowState table} {col : Fin table.ncols} {D' : Set (Change n)}
    (hcompare : ∀ c ∈ D', ∀ d ∈ D',
      dbutilsValueCompare (some c.colValue) (some d.colValue) = 0 → c.colValue = d.colValue)
    (h : s.HoldsGreatest col D') (ht : t.HoldsGreatest col D') :
    s.row.map (fun row => row col) = t.row.map (fun row => row col) ∧
      (s.info (table.colName col)).map MetaRow.colVersion =
        (t.info (table.colName col)).map MetaRow.colVersion := by
  rcases h with ⟨m, row, hm, hrow, ⟨c, hc, hcv, hcx⟩, hle⟩
  rcases ht with ⟨m', row', hm', hrow', ⟨d, hd, hdv, hdx⟩, hle'⟩
  have heq : rank m.colVersion (row col) = rank m'.colVersion (row' col) := by
    apply le_antisymm
    · rw [← hcv, ← hcx]
      exact hle' c hc
    · rw [← hdv, ← hdx]
      exact hle d hd
  rcases (rank_eq_iff _ _ _ _).mp heq with ⟨hv, hx⟩
  rw [← hcx, ← hdx] at hx
  have hvalue := hcompare c hc d hd hx
  rw [hcx, hdx] at hvalue
  simp [hm, hrow, hm', hrow', hv, hvalue]

/-- A column whose length is decided by a positive version is not stale. -/
theorem TracksColumn.greatest_or_untouched {col : Fin table.ncols} {D' : Set (Change n)}
    (h : s.TracksColumn col D') (hcover : s.localCl ≠ 1 → ∃ c ∈ D', 1 ≤ c.colVersion) :
    s.HoldsGreatest col D' ∨ D' = ∅ ∧ s.HoldsDefault col := by
  cases h with
  | greatest h => exact .inl h
  | untouched hempty _ h => exact .inr ⟨hempty, h⟩
  | stale hlater hzero _ =>
    rcases hcover hlater with ⟨c, hc, hone⟩
    exact absurd hone (by simp [Int.lt_iff_add_one_le, hzero c hc])

theorem TracksColumn.unique {t : RowState table} {col : Fin table.ncols} {D' : Set (Change n)}
    (hcl : s.localCl = t.localCl) (hcover : s.localCl ≠ 1 → ∃ c ∈ D', 1 ≤ c.colVersion)
    (hcompare : ∀ c ∈ D', ∀ d ∈ D',
      dbutilsValueCompare (some c.colValue) (some d.colValue) = 0 → c.colValue = d.colValue)
    (h : s.TracksColumn col D') (ht : t.TracksColumn col D') :
    s.row.map (fun row => row col) = t.row.map (fun row => row col) ∧
      (s.info (table.colName col)).map MetaRow.colVersion =
        (t.info (table.colName col)).map MetaRow.colVersion := by
  rcases h.greatest_or_untouched hcover, ht.greatest_or_untouched (hcl ▸ hcover) with
    ⟨h | ⟨hempty, h⟩, h' | ⟨hempty', h'⟩⟩
  · exact h.unique hcompare h'
  · rcases h with ⟨m, row, -, -, ⟨c, hc, -⟩, -⟩
    simp [hempty'] at hc
  · rcases h' with ⟨m, row, -, -, ⟨c, hc, -⟩, -⟩
    simp [hempty] at hc
  · rcases h with ⟨hinfo, row, hrow, hd⟩
    rcases h' with ⟨hinfo', row', hrow', hd'⟩
    simp [hinfo, hinfo', hrow, hrow', hd, hd']

/-- The changes a row has merged determine it, when every column of a later
life is decided and values of equal rank are the same. -/
theorem Tracks.unique {t : RowState table}
    (hcover : s.localCl % 2 = 1 → s.localCl ≠ 1 → ∀ col,
      ∃ c ∈ deciding D s.localCl (table.colName col), 1 ≤ c.colVersion)
    (hcompare : ∀ c ∈ D, ∀ d ∈ D,
      dbutilsValueCompare (some c.colValue) (some d.colValue) = 0 → c.colValue = d.colValue)
    (h : s.Tracks D) (ht : t.Tracks D) :
    s.row = t.row ∧ s.localCl = t.localCl ∧ ∀ col,
      (s.info (table.colName col)).map MetaRow.colVersion =
        (t.info (table.colName col)).map MetaRow.colVersion := by
  have hcl : s.localCl = t.localCl := le_antisymm (h.localCl_le ht) (ht.localCl_le h)
  by_cases hodd : s.localCl % 2 = 1
  · have hcol : ∀ col, s.row.map (fun row => row col) = t.row.map (fun row => row col) ∧
        (s.info (table.colName col)).map MetaRow.colVersion =
          (t.info (table.colName col)).map MetaRow.colVersion := by
      intro col
      have ht' := ht.columns (hcl ▸ hodd) col
      rw [← hcl] at ht'
      refine (h.columns hodd col).unique hcl (fun hne => hcover hodd hne col) ?_ ht'
      exact fun c hc d hd => hcompare c hc.1 d hd.1
    refine ⟨?_, hcl, fun col => (hcol col).2⟩
    rcases Option.ne_none_iff_exists'.mp (h.consistent.row_iff.mpr hodd) with ⟨row, hrow⟩
    rcases Option.ne_none_iff_exists'.mp (ht.consistent.row_iff.mpr (hcl ▸ hodd)) with
      ⟨row', hrow'⟩
    rw [hrow, hrow']
    congr 1
    funext col
    have he := (hcol col).1
    rw [hrow, hrow'] at he
    exact Option.some.inj he
  · have heven : s.localCl % 2 = 0 := by omega
    have hrow : s.row = none := not_not.mp (mt h.consistent.row_iff.mp hodd)
    have hrow' : t.row = none := not_not.mp (mt ht.consistent.row_iff.mp (hcl ▸ hodd))
    refine ⟨hrow.trans hrow'.symm, hcl, fun col => ?_⟩
    rw [h.consistent.dead heven _ (colName_ne_tombstone table col),
      ht.consistent.dead (hcl ▸ heven) _ (colName_ne_tombstone table col)]

end RowState

namespace Replica
variable {n : ℕ} {schema : Fin n → TableContext}

theorem tracks_deliver (hcls : ∀ i, (schema i).algo = .crdtCls) {D : List (Change n)}
    (hwf : ∀ c ∈ D, c.WellFormedFor (schema c.tbl)) {r : Replica schema}
    (hr : ∀ i, r.table i = Table.empty (schema i)) (i : Fin n) (pk : Pk) :
    ((r.deliver D).rows i pk).Tracks (changesOf D i pk) := by
  have h := deliver_rule hcls (P := fun i pk E s => s.Tracks E) (fun _ _ _ _ h =>
    h.consistent.localCl_nonneg) (fun c st E s hc h => RowState.tracks_merged h (hwf c hc) st)
    (r := r) (E := fun _ _ => ∅) (fun i pk => by
      rw [rows, hr, Table.rowAt_empty]
      exact RowState.tracks_absent) i pk
  rw [Set.union_empty] at h
  exact h

/-- Deliveries of the same changes into empty replicas, in whatever order and
however often, end in the same rows, causal lengths and column versions. -/
theorem deliver_converges (hcls : ∀ i, (schema i).algo = .crdtCls) (C : Finset (Change n))
    (hwf : ∀ c ∈ C, c.WellFormedFor (schema c.tbl))
    (hcover : ∀ c ∈ C, (∀ d ∈ C, d.tbl = c.tbl → d.pk = c.pk → d.cl ≤ c.cl) → c.cl % 2 = 1 →
      1 < c.cl → ∀ col, ∃ d ∈ C, d.tbl = c.tbl ∧ d.pk = c.pk ∧ d.cl = c.cl ∧
        d.name = (schema c.tbl).colName col ∧ 1 ≤ d.colVersion)
    (hcompare : ∀ c ∈ C, ∀ d ∈ C,
      dbutilsValueCompare (some c.colValue) (some d.colValue) = 0 → c.colValue = d.colValue)
    (r₁ r₂ : Replica schema) (hr₁ : ∀ i, r₁.table i = Table.empty (schema i))
    (hr₂ : ∀ i, r₂.table i = Table.empty (schema i)) (D₁ D₂ : List (Change n))
    (hD₁ : ∀ c, c ∈ D₁ ↔ c ∈ C) (hD₂ : ∀ c, c ∈ D₂ ↔ c ∈ C) (i : Fin n) (pk : Pk) :
    ((r₁.deliver D₁).table i).base.get pk = ((r₂.deliver D₂).table i).base.get pk ∧
      ((r₁.deliver D₁).table i).metaLocalCl pk = ((r₂.deliver D₂).table i).metaLocalCl pk ∧
      ∀ col, ((r₁.deliver D₁).table i).metaColVersion pk ((schema i).colName col) =
        ((r₂.deliver D₂).table i).metaColVersion pk ((schema i).colName col) := by
  have h₁ := tracks_deliver hcls (fun c hc => hwf c ((hD₁ c).mp hc)) hr₁ i pk
  have h₂ := tracks_deliver hcls (fun c hc => hwf c ((hD₂ c).mp hc)) hr₂ i pk
  have hset : changesOf D₂ i pk = changesOf D₁ i pk := by
    ext c
    simp only [changesOf, Set.mem_ofPred_eq, hD₁, hD₂]
  rw [hset] at h₂
  rw [Table.metaLocalCl_eq, Table.metaLocalCl_eq]
  refine RowState.Tracks.unique (fun hodd hlater col => ?_) (fun c hc d hd => ?_) h₁ h₂
  · rcases h₁.exists_localCl (by omega) with ⟨c, ⟨hc, rfl, rfl⟩, hcl⟩
    rw [hD₁] at hc
    have hpos := h₁.consistent.localCl_nonneg
    rcases hcover c hc (fun d hd htbl hpk => hcl ▸ h₁.le_localCl d ⟨(hD₁ d).mpr hd, htbl, hpk⟩)
      (hcl ▸ hodd) (by omega) col with ⟨d, hd, htbl, hpk, hdcl, hname, hone⟩
    exact ⟨d, ⟨⟨(hD₁ d).mpr hd, htbl, hpk⟩, hdcl.trans hcl, hname⟩, hone⟩
  · exact hcompare c ((hD₁ c).mp hc.1) d ((hD₁ d).mp hd.1)

def revivedRow : List (Change 1) :=
  [⟨⟨0, Nat.one_pos⟩, [.integer 1], some "v", .integer 10, 1, 1, [2], 1, 0⟩,
    ⟨⟨0, Nat.one_pos⟩, [.integer 1], none, .null, 2, 2, [2], 2, 0⟩,
    ⟨⟨0, Nat.one_pos⟩, [.integer 1], some "v", .integer 11, 1, 3, [3], 3, 0⟩]

end Replica

/-! ## Declared tables -/

/-- A change as the extension produces them: a tombstone carries its causal
length as its version, a column comes from a living row. -/
def Change.Formed {n : ℕ} (c : Change n) : Prop :=
  if c.name = CLOUDSYNC_TOMBSTONE_VALUE then c.colVersion = c.cl ∧ 1 ≤ c.cl
  else c.cl % 2 = 1 ∧ 0 ≤ c.colVersion

instance {n : ℕ} (c : Change n) : Decidable c.Formed := by
  unfold Change.Formed
  infer_instance

/-- A change names its column as the table does. -/
def Change.Spelled {n : ℕ} (table : TableContext) (c : Change n) : Prop :=
  c.name = CLOUDSYNC_TOMBSTONE_VALUE ∨ ∃ col, c.name = table.colName col

theorem Change.Formed.wellFormedFor {n : ℕ} {table : TableContext} {c : Change n} (h : c.Formed)
    (hspelled : c.Spelled table) : c.WellFormedFor table := by
  rw [Change.Formed] at h
  rcases hspelled with hname | ⟨col, hname⟩
  · rw [if_pos hname] at h
    exact .inl ⟨hname, h⟩
  · rw [if_neg (hname ▸ colName_ne_tombstone table col)] at h
    exact .inr ⟨⟨col, hname⟩, h⟩

namespace Declared
variable {n : ℕ} {schema : Fin n → TableContext} {decl : (i : Fin n) → Declaration (schema i)}
  {cells : (i : Fin n) → Cells (schema i)}

/-- Deliveries of the changes into empty replicas, in whatever order and however
often, end in the same rows, causal lengths and column versions. -/
def Converges (decl : (i : Fin n) → Declaration (schema i)) (C : Finset (Change n)) : Prop :=
  ∀ r₁ r₂ : Replica schema, (∀ i, r₁.table i = Table.empty (schema i)) →
    (∀ i, r₂.table i = Table.empty (schema i)) → ∀ D₁ D₂ : List (Change n),
      (∀ c, c ∈ D₁ ↔ c ∈ C) → (∀ c, c ∈ D₂ ↔ c ∈ C) → ∀ i pk,
        ((deliver decl r₁ D₁).table i).base.get pk = ((deliver decl r₂ D₂).table i).base.get pk ∧
        ((deliver decl r₁ D₁).table i).metaLocalCl pk =
          ((deliver decl r₂ D₂).table i).metaLocalCl pk ∧
        ∀ col, ((deliver decl r₁ D₁).table i).metaColVersion pk ((schema i).colName col) =
          ((deliver decl r₂ D₂).table i).metaColVersion pk ((schema i).colName col)

/-- Well-formed changes that say enough of every row: each column of a later life
is decided, and values of equal rank are the same. -/
structure Decided (schema : Fin n → TableContext) (C : Finset (Change n)) : Prop where
  formed : ∀ c ∈ C, c.Formed
  cover : ∀ c ∈ C, (∀ d ∈ C, d.tbl = c.tbl → d.pk = c.pk → d.cl ≤ c.cl) → c.cl % 2 = 1 →
    1 < c.cl → ∀ col, ∃ d ∈ C, d.tbl = c.tbl ∧ d.pk = c.pk ∧ d.cl = c.cl ∧
      d.name = (schema c.tbl).colName col ∧ 1 ≤ d.colVersion
  compare : ∀ c ∈ C, ∀ d ∈ C,
    dbutilsValueCompare (some c.colValue) (some d.colValue) = 0 → c.colValue = d.colValue

/-- A row inserted, deleted and brought back by another site, under a key that
`NOCASE` compares. -/
def revivedRow : List (Change 1) :=
  [⟨⟨0, Nat.one_pos⟩, letterKey 0x61, some "v", .integer 10, 1, 1, [2], 1, 0⟩,
    ⟨⟨0, Nat.one_pos⟩, letterKey 0x61, none, .null, 2, 2, [2], 2, 0⟩,
    ⟨⟨0, Nat.one_pos⟩, letterKey 0x61, some "v", .integer 11, 1, 3, [3], 3, 0⟩,
    ⟨⟨0, Nat.one_pos⟩, letterKey 0x62, some "v", .integer 12, 1, 4, [3], 1, 0⟩]

/-- `CREATE TABLE t (k PRIMARY KEY, a, b, CHECK (a IS NULL OR b IS NULL))`. -/
def pairColumns : TableContext where
  algo := .crdtCls
  ncols := 2
  colName i := if i.val = 0 then "a" else "b"
  dflt _ := .null
  colName_lower := by decide
  colName_injective := by decide

def oneOfPair : Declaration pairColumns :=
  .plain ⟨[], [], fun _ row => row ⟨0, Nat.two_pos⟩ == .null || row ⟨1, Nat.one_lt_two⟩ == .null⟩

def digits : ℕ → ℕ → List UInt8
  | 0, _ => []
  | k + 1, m => (if m < 10 then [] else digits k (m / 10)) ++ [0x30 + UInt8.ofNat (m % 10)]

theorem length_digits_le (k m : ℕ) : (digits k m).length ≤ k := by
  induction k generalizing m with
  | zero => exact le_rfl
  | succ k ih =>
    rw [digits, List.length_append, List.length_singleton, Nat.add_le_add_iff_right]
    split_ifs
    · exact Nat.zero_le k
    · exact ih (m / 10)

/-- An integer as SQLite makes it a TEXT. -/
def integerText (i : BitVec 64) : Bytes where
  data := (if i.msb then [0x2D] else []) ++ digits 20 i.toInt.natAbs
  short := by
    have hdigits := length_digits_le 20 i.toInt.natAbs
    split_ifs <;> simp <;> omega

/-- `CREATE TABLE t (k PRIMARY KEY, v TEXT)`, with the text that SQLite makes of a REAL. -/
def textColumn (realText : Double → Bytes) : Declaration singleColumn where
  toConstraints := .unconstrained singleColumn
  storeKey := id
  store
    | _, .integer i => .text (integerText i)
    | _, .float d => .text (realText d)
    | _, value => value
  same pk pk' := pk == pk'
  same_self _ _ _ := beq_self_eq_true _

/-- A change of the first life of a row. -/
def firstChange (pk : Pk) (name : String) (value : Value) : Change 1 :=
  ⟨⟨0, Nat.one_pos⟩, pk, some name, value, 1, 1, [2], 1, 0⟩

/-- `5` and `10` as TEXT. -/
def five : Value := .text ⟨[0x35], by decide⟩

def ten : Value := .text ⟨[0x31, 0x30], by decide⟩

/-- Two changes that end in another column of a row when they come the other way round. -/
theorem not_converges {table : TableContext} {d : Declaration table} {a b : Change 1} (pk : Pk)
    (col : Fin table.ncols)
    (h : (((deliver (fun _ => d) (Replica.empty (fun _ => table) [1]) [a, b]).table 0).base.get
      pk).map (fun row => row col) ≠
        (((deliver (fun _ => d) (Replica.empty (fun _ => table) [1]) [b, a]).table 0).base.get
          pk).map fun row => row col) :
    ¬ Converges (fun _ : Fin 1 => d) {a, b} := by
  intro hconverges
  have hmem : ∀ c, c ∈ [a, b] ↔ c ∈ ({a, b} : Finset (Change 1)) := by simp
  have hback : ∀ c, c ∈ [b, a] ↔ c ∈ ({a, b} : Finset (Change 1)) := by simp [or_comm]
  have hbase := (hconverges (.empty _ [1]) (.empty _ [1]) (fun _ => rfl) (fun _ => rfl) [a, b] [b, a]
    hmem hback 0 pk).1
  exact h (congrArg (Option.map fun row => row col) hbase)

end Declared
end SqliteSync.Store
