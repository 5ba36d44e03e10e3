import SqliteSync.Causal.Run
import SqliteSync.Store.Constraint

/-!
# The rows a merge touches

Under constraints the statements of a merge may land on another row, or on
none. A merge touches its own row only, and writes it when it wins, exactly
when its upsert does not land elsewhere.
-/
namespace SqliteSync.Store
open Library Clock

variable {n : ℕ} {schema : Fin n → TableContext}

namespace Replica
variable (r : Replica schema) (c : Change n)

def SentinelWins : Prop :=
  (schema c.tbl).algo ≠ .crdtGos ∧ 0 ≤ (r.table c.tbl).metaLocalCl c.pk ∧
    (r.table c.tbl).metaLocalCl c.pk < c.cl ∧ c.cl.tmod 2 ≠ 0 ∧
    c.name = CLOUDSYNC_TOMBSTONE_VALUE

/-- The change of a column is one the merge decides to write. -/
def ColumnWins : Prop :=
  (schema c.tbl).algo = .crdtGos ∨
    0 ≤ (r.table c.tbl).metaLocalCl c.pk ∧ (r.table c.tbl).metaLocalCl c.pk ≤ c.cl ∧
      c.cl.tmod 2 ≠ 0 ∧ c.name ≠ CLOUDSYNC_TOMBSTONE_VALUE ∧
      ((r.table c.tbl).metaLocalCl c.pk < c.cl ∨
        mergeDidCidWin noFaults r c.tbl c.pk c.colValue c.name c.colVersion = .ok true)

def Resurrects : Prop :=
  (schema c.tbl).algo ≠ .crdtGos ∧ (r.table c.tbl).metaLocalCl c.pk < c.cl ∧
    ((r.table c.tbl).metaLocalCl c.pk ≠ 0 ∨ 1 < c.cl)

instance : Decidable (r.Resurrects c) := inferInstanceAs (Decidable (_ ∧ _))

end Replica

/-- From `r₀`, steps on table `i` have led to `r`, whose base table is `base`. -/
structure WritesBase (r₀ r : Replica schema) (i : Fin n) (base : Keyed Pk (Row (schema i))) :
    Prop where
  base : (r.table i).base = base
  tables : ∀ j ≠ i, r.table j = r₀.table j

namespace WritesBase
variable {r₀ r r' : Replica schema} {i : Fin n} {base : Keyed Pk (Row (schema i))}

theorem refl (r : Replica schema) (i : Fin n) : WritesBase r r i (r.table i).base :=
  ⟨rfl, fun _ _ => rfl⟩

theorem setTable (h : WritesBase r₀ r i base) (t : Table (schema i)) :
    WritesBase r₀ (r.setTable i t) i t.base :=
  ⟨by rw [Replica.setTable_table_self],
    fun j hj => (Replica.setTable_table_of_ne r hj t).trans (h.tables j hj)⟩

theorem of_table (h : WritesBase r₀ r i base) (htable : r'.table = r.table) :
    WritesBase r₀ r' i base := by
  refine ⟨?_, fun j hj => ?_⟩
  · rw [htable]
    exact h.base
  · rw [htable]
    exact h.tables j hj

theorem stepVersioned (h : WritesBase r₀ r i base) (stmt : MergeStmt) (dbVersion : ℤ)
    {f : ℤ → Table (schema i) → Table (schema i)} (hf : ∀ v t, (f v t).base = t.base) :
    ∃ r', Store.stepVersioned noFaults r i stmt dbVersion f = (.ok (), r') ∧
      WritesBase r₀ r' i base := by
  refine ⟨_, rfl, ?_⟩
  have hset := (h.of_table (r.dbVersionNext_table dbVersion)).setTable
    (f (r.dbVersionNext dbVersion).1 ((r.dbVersionNext dbVersion).2.table i))
  rw [hf, Replica.dbVersionNext_table, h.base] at hset
  exact hset

theorem mergeSetWinnerClock (h : WritesBase r₀ r i base) (pk : Pk) (colname : String)
    (colVersion dbVersion : ℤ) (siteId : SiteId) (seq : ℤ) :
    ∃ r', Store.mergeSetWinnerClock noFaults r i pk colname colVersion dbVersion siteId seq =
      (.ok (), r') ∧ WritesBase r₀ r' i base :=
  stepVersioned (r := { r with siteIds := (getsetSiteid r.siteIds siteId).2 }) (h.of_table rfl)
    (.winnerClock colname) dbVersion
    (f := fun version t => t.metaWinnerClock pk colname colVersion version seq
      (getsetSiteid r.siteIds siteId).1) fun _ _ => rfl

theorem mergeDelete (h : WritesBase r₀ r i base) (pk : Pk) (colname : String) (cl dbVersion : ℤ)
    (siteId : SiteId) (seq : ℤ) :
    ∃ r', Store.mergeDelete noFaults r i pk colname cl dbVersion siteId seq = (.ok (), r') ∧
      WritesBase r₀ r' i (base.deleteWhere fun k _ => k == pk) := by
  have hdelete := ((h.of_table (r.setInsync_table true)).setTable
    ((r.table i).realMergeDelete pk)).of_table (Replica.setInsync_table _ false)
  rcases hdelete.mergeSetWinnerClock pk colname cl dbVersion siteId seq with ⟨r', hr', hclock⟩
  refine ⟨r'.setTable i ((r'.table i).metaMergeDeleteDrop pk), ?_, ?_⟩
  · have hstep : stepInsync noFaults r i .mergeDelete (fun t => t.realMergeDelete pk) =
        (.ok (), ((r.setInsync true).setTable i ((r.table i).realMergeDelete pk)).setInsync false) :=
      rfl
    rw [Store.mergeDelete, hstep, Outcome.andThen_ok, hr']
    rfl
  · have hdrop := hclock.setTable ((r'.table i).metaMergeDeleteDrop pk)
    have hsame : ((r'.table i).metaMergeDeleteDrop pk).base =
        base.deleteWhere fun k _ => k == pk := by
      rw [← h.base]
      exact hclock.base
    rw [hsame] at hdrop
    exact hdrop

/-- Under constraints the sentinel brings its row to life where nothing is in the way. -/
theorem mergeSentinelOnlyInsert (cons : (i : Fin n) → Constraints (schema i))
    (h : WritesBase r₀ r i base) (pk : Pk) (cl dbVersion : ℤ) (siteId : SiteId) (seq : ℤ) :
    ∃ r', Constrained.mergeSentinelOnlyInsert cons r i pk cl dbVersion siteId seq = (.ok (), r') ∧
      WritesBase r₀ r' i ((cons i).insertOrIgnore base pk) := by
  have hinsert := ((h.of_table (r.setInsync_table true)).setTable
    { (r.setInsync true).table i with
      base := (cons i).insertOrIgnore ((r.setInsync true).table i).base pk }).of_table
        (Replica.setInsync_table _ false)
  rcases hinsert.stepVersioned .zeroClock dbVersion
    (f := fun version t => t.metaZeroClock version pk) (fun _ _ => rfl) with ⟨r₁, hr₁, hzero⟩
  rcases hzero.mergeSetWinnerClock pk CLOUDSYNC_TOMBSTONE_VALUE cl dbVersion siteId seq with
    ⟨r₂, hr₂, hclock⟩
  refine ⟨r₂, ?_, ?_⟩
  · rw [Constrained.mergeSentinelOnlyInsert]
    change Outcome.andThen (Store.stepVersioned _ _ _ _ _ _) _ = _
    rw [Constrained.setBase, hr₁, Outcome.andThen_ok, hr₂]
  · rw [← h.base]
    exact hclock

theorem mergeInsertCol (cons : (i : Fin n) → Constraints (schema i)) (h : WritesBase r₀ r i base)
    (pk : Pk) {colName : String} {col : Fin (schema i).ncols}
    (hcol : tableColumnLookup (schema i) colName = some col) (colValue : Value)
    (colVersion dbVersion : ℤ) (siteId : SiteId) (seq : ℤ) :
    ∃ code r', Constrained.mergeInsertCol cons r i pk colName colValue colVersion dbVersion siteId
        seq = (code, r') ∧
      match (cons i).upsert base pk col colValue with
      | .error _ => code ≠ .ok () ∧ WritesBase r₀ r' i base
      | .ok base' => code = .ok () ∧ WritesBase r₀ r' i base' := by
  rw [Constrained.mergeInsertCol, hcol]
  simp only []
  generalize hgos : ((schema i).algo == TableAlgo.crdtGos) = gos
  generalize hr₁ : (if gos then r.setEnabled i false else r).setInsync true = r₁
  have h₁ : WritesBase r₀ r₁ i base := by
    rw [← hr₁]
    refine h.of_table ?_
    cases gos <;> rfl
  rw [h₁.base]
  have hend : ∀ r₂ : Replica schema, ∀ base₂, WritesBase r₀ r₂ i base₂ →
      WritesBase r₀ (if gos then (r₂.setInsync false).setEnabled i true else r₂.setInsync false) i
        base₂ := by
    intro r₂ base₂ h₂
    refine h₂.of_table ?_
    cases gos <;> rfl
  cases (cons i).upsert base pk col colValue with
  | error err => exact ⟨.error err, _, rfl, by simp, hend r₁ base h₁⟩
  | ok base' =>
    have hset := hend _ base' (h₁.setTable { r₁.table i with base := base' })
    rcases hset.mergeSetWinnerClock pk colName colVersion dbVersion siteId seq with ⟨r', hr', hclock⟩
    exact ⟨.ok (), r', hr', rfl, hclock⟩

end WritesBase

section
variable (cons : (i : Fin n) → Constraints (schema i)) (r : Replica schema) (c : Change n)

/-- A merge touches its own row only, and the row is there with the incoming
value when the change won and the merge succeeded. -/
structure OwnRowOnly : Prop where
  others : ∀ pk ≠ c.pk, ((Constrained.cloudsyncMergeInsert cons r c).2.table c.tbl).base.get pk =
    (r.table c.tbl).base.get pk
  tables : ∀ j ≠ c.tbl, (Constrained.cloudsyncMergeInsert cons r c).2.table j = r.table j
  sentinel : r.SentinelWins c → (Constrained.cloudsyncMergeInsert cons r c).1 = .ok () →
    ((Constrained.cloudsyncMergeInsert cons r c).2.table c.tbl).base.get c.pk ≠ none
  column : ∀ col, tableColumnLookup (schema c.tbl) c.name = some col → r.ColumnWins c →
    (Constrained.cloudsyncMergeInsert cons r c).1 = .ok () →
    ∃ row, ((Constrained.cloudsyncMergeInsert cons r c).2.table c.tbl).base.get c.pk = some row ∧
      row col = c.colValue

def baseBefore : Keyed Pk (Row (schema c.tbl)) :=
  if r.Resurrects c then (cons c.tbl).insertOrIgnore (r.table c.tbl).base c.pk
  else (r.table c.tbl).base

/-- A sentinel finds its row, or nothing in the way of it; an upsert does not
write another row. -/
structure OwnRow : Prop where
  sentinel : r.SentinelWins c → (r.table c.tbl).base.get c.pk ≠ none ∨
    (cons c.tbl).Insertable (r.table c.tbl).base c.pk
  column : ∀ col, tableColumnLookup (schema c.tbl) c.name = some col → r.ColumnWins c →
    (cons c.tbl).OwnUpsert (baseBefore cons r c) c.pk col c.colValue

variable {cons r c}

theorem baseBefore_of_ne {pk : Pk} (h : pk ≠ c.pk) :
    (baseBefore cons r c).get pk = (r.table c.tbl).base.get pk := by
  rw [baseBefore]
  split_ifs
  · exact Constraints.insertOrIgnore_of_ne _ _ h
  · rfl

theorem ownRowOnly_iff_of_outcome {x : Outcome (Replica schema)}
    (hx : Constrained.cloudsyncMergeInsert cons r c = x) {base : Keyed Pk (Row (schema c.tbl))}
    (h : WritesBase r x.2 c.tbl base) :
    OwnRowOnly cons r c ↔
      (∀ pk ≠ c.pk, base.get pk = (r.table c.tbl).base.get pk) ∧
      (r.SentinelWins c → x.1 = .ok () → base.get c.pk ≠ none) ∧
      ∀ col, tableColumnLookup (schema c.tbl) c.name = some col → r.ColumnWins c → x.1 = .ok () →
        ∃ row, base.get c.pk = some row ∧ row col = c.colValue := by
  constructor
  · rintro ⟨hothers, _, hsentinel, hcolumn⟩
    rw [hx, h.base] at hothers hsentinel hcolumn
    exact ⟨hothers, hsentinel, hcolumn⟩
  · rintro ⟨hothers, hsentinel, hcolumn⟩
    refine ⟨?_, ?_, ?_, ?_⟩
    · rw [hx, h.base]
      exact hothers
    · rw [hx]
      exact h.tables
    · rw [hx, h.base]
      exact hsentinel
    · rw [hx, h.base]
      exact hcolumn

/-- A change that does not win leaves the other rows alone. -/
theorem ownRowOnly_iff_of_loses {x : Outcome (Replica schema)}
    (hx : Constrained.cloudsyncMergeInsert cons r c = x) (base : Keyed Pk (Row (schema c.tbl)))
    (h : WritesBase r x.2 c.tbl base)
    (hothers : ∀ pk ≠ c.pk, base.get pk = (r.table c.tbl).base.get pk)
    (hsentinel : ¬ r.SentinelWins c)
    (hcolumn : tableColumnLookup (schema c.tbl) c.name = none ∨ ¬ r.ColumnWins c) :
    OwnRowOnly cons r c ↔ OwnRow cons r c := by
  have hnone : ∀ col, tableColumnLookup (schema c.tbl) c.name = some col → ¬ r.ColumnWins c := by
    intro col hcol hwins
    rcases hcolumn with hno | hno
    · exact Option.some_ne_none col (hcol.symm.trans hno)
    · exact hno hwins
  refine iff_of_true ((ownRowOnly_iff_of_outcome hx h).mpr ⟨hothers, fun hs => absurd hs hsentinel,
    fun col hcol hwins => absurd hwins (hnone col hcol)⟩) ⟨fun hs => absurd hs hsentinel,
    fun col hcol hwins => absurd hwins (hnone col hcol)⟩

theorem ownRowOnly_iff_of_sentinel {x : Outcome (Replica schema)}
    (hx : Constrained.cloudsyncMergeInsert cons r c = x) (hok : x.1 = .ok ())
    (h : WritesBase r x.2 c.tbl ((cons c.tbl).insertOrIgnore (r.table c.tbl).base c.pk))
    (hsentinel : r.SentinelWins c) (hcolumn : ¬ r.ColumnWins c) :
    OwnRowOnly cons r c ↔ OwnRow cons r c := by
  rw [ownRowOnly_iff_of_outcome hx h]
  constructor
  · rintro ⟨_, hrow, _⟩
    exact ⟨fun _ => (Constraints.insertOrIgnore_ne_none_iff _ _ _).mp (hrow hsentinel hok),
      fun _ _ hwins => absurd hwins hcolumn⟩
  · rintro ⟨hrow, _⟩
    exact ⟨fun pk hpk => Constraints.insertOrIgnore_of_ne _ _ hpk,
      fun hs _ => (Constraints.insertOrIgnore_ne_none_iff _ _ _).mpr (hrow hs),
      fun _ _ hwins => absurd hwins hcolumn⟩

theorem ownRowOnly_iff_of_column {x : Outcome (Replica schema)}
    (hx : Constrained.cloudsyncMergeInsert cons r c = x) {col : Fin (schema c.tbl).ncols}
    (hcol : tableColumnLookup (schema c.tbl) c.name = some col)
    (h : match (cons c.tbl).upsert (baseBefore cons r c) c.pk col c.colValue with
      | .error _ => x.1 ≠ .ok () ∧ WritesBase r x.2 c.tbl (baseBefore cons r c)
      | .ok base => x.1 = .ok () ∧ WritesBase r x.2 c.tbl base)
    (hsentinel : ¬ r.SentinelWins c) (hcolumn : r.ColumnWins c) :
    OwnRowOnly cons r c ↔ OwnRow cons r c := by
  have hown : OwnRow cons r c ↔
      (cons c.tbl).OwnUpsert (baseBefore cons r c) c.pk col c.colValue := by
    constructor
    · rintro ⟨_, hupsert⟩
      exact hupsert col hcol hcolumn
    · intro hupsert
      refine ⟨fun hs => absurd hs hsentinel, fun col' hcol' _ => ?_⟩
      obtain rfl := Option.some.inj (hcol.symm.trans hcol')
      exact hupsert
  rw [hown, ← Constraints.ownUpsert_iff]
  cases hupsert : (cons c.tbl).upsert (baseBefore cons r c) c.pk col c.colValue with
  | error err =>
    rw [hupsert] at h
    refine iff_of_true ((ownRowOnly_iff_of_outcome hx h.2).mpr ⟨fun pk hpk => baseBefore_of_ne hpk,
      fun hs => absurd hs hsentinel, fun _ _ _ hok => absurd hok h.1⟩) (fun base' hb => nomatch hb)
  | ok base =>
    rw [hupsert] at h
    rw [ownRowOnly_iff_of_outcome hx h.2]
    constructor
    · rintro ⟨hothers, _, hrow⟩ base' ⟨rfl⟩
      exact ⟨fun pk hpk => (hothers pk hpk).trans (baseBefore_of_ne hpk).symm,
        hrow col hcol hcolumn h.1⟩
    · intro hbase
      rcases hbase base rfl with ⟨hothers, hrow⟩
      refine ⟨fun pk hpk => (hothers pk hpk).trans (baseBefore_of_ne hpk),
        fun hs => absurd hs hsentinel, fun col' hcol' _ _ => ?_⟩
      obtain rfl := Option.some.inj (hcol.symm.trans hcol')
      exact hrow

theorem Constrained.mergeColumn_of_unknown
    (hcol : tableColumnLookup (schema c.tbl) c.name = none) (needsResurrect rowExistsLocally : Bool) :
    (Constrained.mergeColumn cons r c needsResurrect rowExistsLocally).2 = r := by
  rw [Constrained.mergeColumn]
  cases mergeDidCidWin noFaults r c.tbl c.pk c.colValue c.name c.colVersion with
  | error err => rfl
  | ok flag =>
    simp only [Constrained.mergeInsertCol, hcol]
    split_ifs <;> rfl

/-- The upsert of a column, whatever the message of its failure. -/
theorem Constrained.describe_mergeInsertCol {r₁ : Replica schema}
    {base : Keyed Pk (Row (schema c.tbl))} (h₁ : WritesBase r r₁ c.tbl base)
    {col : Fin (schema c.tbl).ncols} (hcol : tableColumnLookup (schema c.tbl) c.name = some col)
    {x : Outcome (Replica schema)} (message : String)
    (hx : x = (Constrained.mergeInsertCol cons r₁ c.tbl c.pk c.name c.colValue c.colVersion
      c.dbVersion c.siteId c.seq).describe message) :
    match (cons c.tbl).upsert base c.pk col c.colValue with
    | .error _ => x.1 ≠ .ok () ∧ WritesBase r x.2 c.tbl base
    | .ok base' => x.1 = .ok () ∧ WritesBase r x.2 c.tbl base' := by
  rcases h₁.mergeInsertCol cons c.pk hcol c.colValue c.colVersion c.dbVersion c.siteId c.seq with
    ⟨code, r', hr', h⟩
  rw [hx, hr']
  cases hupsert : (cons c.tbl).upsert base c.pk col c.colValue with
  | error err =>
    rw [hupsert] at h
    cases code with
    | error err => exact ⟨by simp [Outcome.describe], h.2⟩
    | ok => exact absurd rfl h.1
  | ok base =>
    rw [hupsert] at h
    rw [h.1]
    exact ⟨rfl, h.2⟩

theorem ownRowOnly_iff_gos (hgos : (schema c.tbl).algo = .crdtGos) :
    OwnRowOnly cons r c ↔ OwnRow cons r c := by
  have hmerge : Constrained.cloudsyncMergeInsert cons r c =
      (Constrained.mergeInsertCol cons r c.tbl c.pk c.name c.colValue c.colVersion c.dbVersion
        c.siteId c.seq).describe "Unable to perform GOS merge_insert_col: " := by
    rw [Constrained.cloudsyncMergeInsert, if_pos hgos]
  have hsentinel : ¬ r.SentinelWins c := fun h => h.1 hgos
  cases hcol : tableColumnLookup (schema c.tbl) c.name with
  | none =>
    have herror : (Constrained.mergeInsertCol cons r c.tbl c.pk c.name c.colValue c.colVersion
        c.dbVersion c.siteId c.seq).2 = r := by
      simp only [Constrained.mergeInsertCol, hcol]
    refine ownRowOnly_iff_of_loses hmerge (r.table c.tbl).base ?_ (fun _ _ => rfl)
      hsentinel (.inl hcol)
    rw [Outcome.describe_snd, herror]
    exact .refl r c.tbl
  | some col =>
    refine ownRowOnly_iff_of_column rfl hcol ?_ hsentinel (.inl hgos)
    rw [baseBefore, if_neg fun h => h.1 hgos]
    exact Constrained.describe_mergeInsertCol (.refl r c.tbl) hcol _ hmerge

theorem ownRowOnly_iff_of_mergeColumn (hcls : (schema c.tbl).algo ≠ .crdtGos)
    (hpos : 0 ≤ (r.table c.tbl).metaLocalCl c.pk)
    (hle : (r.table c.tbl).metaLocalCl c.pk ≤ c.cl) (hodd : c.cl.tmod 2 ≠ 0)
    (hname : c.name ≠ CLOUDSYNC_TOMBSTONE_VALUE) {r₁ : Replica schema}
    (h₁ : WritesBase r r₁ c.tbl (baseBefore cons r c))
    (hr₁ : ¬ (r.table c.tbl).metaLocalCl c.pk < c.cl → r₁ = r)
    (hmerge : Constrained.cloudsyncMergeInsert cons r c =
      Constrained.mergeColumn cons r₁ c (decide ((r.table c.tbl).metaLocalCl c.pk < c.cl))
        (decide ((r.table c.tbl).metaLocalCl c.pk ≠ 0))) :
    OwnRowOnly cons r c ↔ OwnRow cons r c := by
  have hsentinel : ¬ r.SentinelWins c := fun h => hname h.2.2.2.2
  cases hcol : tableColumnLookup (schema c.tbl) c.name with
  | none =>
    refine ownRowOnly_iff_of_loses hmerge (baseBefore cons r c) ?_
      (fun pk hpk => baseBefore_of_ne hpk) hsentinel (.inl hcol)
    rw [Constrained.mergeColumn_of_unknown hcol]
    exact h₁
  | some col =>
    rcases mergeDidCidWin_iff r₁ c hcol with ⟨flag, hflag, -⟩
    by_cases hwin : (r.table c.tbl).metaLocalCl c.pk < c.cl ∨ flag = true
    · refine ownRowOnly_iff_of_column hmerge hcol (Constrained.describe_mergeInsertCol h₁ hcol
        "Unable to perform merge_insert_col: " ?_) hsentinel ?_
      · rw [Constrained.mergeColumn, hflag]
        rcases hwin with hlt | rfl
        · simp [hlt]
        · simp
      · refine .inr ⟨hpos, hle, hodd, hname, ?_⟩
        by_cases hlt : (r.table c.tbl).metaLocalCl c.pk < c.cl
        · exact .inl hlt
        · rw [← hr₁ hlt, hflag, hwin.resolve_left hlt]
          exact .inr rfl
    · -- the row is there at this causal length, and the change loses to what it holds
      rw [not_or, Bool.not_eq_true] at hwin
      have hexists : (r.table c.tbl).metaLocalCl c.pk ≠ 0 := by
        intro hzero
        have : c.cl = 0 := by omega
        rw [this] at hodd
        exact hodd rfl
      have hsame : Constrained.mergeColumn cons r₁ c
          (decide ((r.table c.tbl).metaLocalCl c.pk < c.cl))
          (decide ((r.table c.tbl).metaLocalCl c.pk ≠ 0)) = (.ok (), r₁) := by
        rw [Constrained.mergeColumn, hflag, hwin.2]
        simp [hwin.1, hexists]
      refine ownRowOnly_iff_of_loses (hmerge.trans hsame) _ h₁ (fun pk hpk => baseBefore_of_ne hpk)
        hsentinel (.inr ?_)
      rintro (hgos | ⟨_, _, _, _, hlt | hflag'⟩)
      · exact hcls hgos
      · exact hwin.1 hlt
      · rw [← hr₁ hwin.1, hflag, hwin.2] at hflag'
        cases hflag'

end

/-- A column `v` that is UNIQUE, where NULLs are distinct. -/
def uniqueColumn : Constraints singleColumn where
  before := []
  after := [fun _ row =>
    if row ⟨0, Nat.one_pos⟩ = .null then none else some [row ⟨0, Nat.one_pos⟩]]
  accepts _ _ := true

def takenValue : Replica fun _ : Fin 1 => singleColumn :=
  (cloudsyncMergeInsert noFaults (Replica.empty _ [1])
    ⟨⟨0, Nat.one_pos⟩, [.integer 1], some "v", .integer 10, 1, 1, [2], 1, 0⟩).2

end SqliteSync.Store
