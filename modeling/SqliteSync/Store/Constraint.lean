import SqliteSync.Store.Merge

/-!
# Base tables with constraints

A base table may have uniqueness constraints besides its primary key, NOT NULL
and CHECK constraints. `ON CONFLICT DO UPDATE` without a target then updates
the row of the first uniqueness constraint that is violated, whichever it is,
and `INSERT OR IGNORE` inserts nothing.
-/
namespace SqliteSync.Store
open Library Clock

/-- A uniqueness constraint by the key it keeps distinct, `none` when a column
of it is NULL. -/
abbrev UniqueKey (table : TableContext) := Pk → Row table → Option (List Value)

/-- The constraints of a base table: the uniqueness constraints SQLite checks
before and after the primary key, and what NOT NULL and CHECK accept. -/
structure Constraints (table : TableContext) where
  before : List (UniqueKey table)
  after : List (UniqueKey table)
  accepts : Pk → Row table → Bool

namespace Constraints
variable {table : TableContext} (cons : Constraints table) (base : Keyed Pk (Row table))

def unconstrained (table : TableContext) : Constraints table := ⟨[], [], fun _ _ => true⟩

def holder (key : UniqueKey table) (pk : Pk) (row : Row table) : Option Pk :=
  (key pk row).bind fun v => (base.rows.find? fun r => key r.1 r.2 == some v).map Prod.fst

def conflict (pk : Pk) (row : Row table) : Option Pk :=
  (cons.before.findSome? fun key => holder base key pk row).or
    ((if (base.get pk).isSome then some pk else none).or
      (cons.after.findSome? fun key => holder base key pk row))

/-- An update of the row under `pk` to `row` meets the unique key of another row. -/
def violates (pk : Pk) (row : Row table) : Bool :=
  (cons.before ++ cons.after).any fun key => base.rows.any fun r =>
    r.1 != pk && (key pk row).isSome && key r.1 r.2 == key pk row

def Insertable (pk : Pk) : Prop :=
  cons.accepts pk table.dflt = true ∧ cons.conflict base pk table.dflt = none

instance (pk : Pk) : Decidable (cons.Insertable base pk) := inferInstanceAs (Decidable (_ ∧ _))

/-- `real_merge_sentinel_stmt`. -/
def insertOrIgnore (pk : Pk) : Keyed Pk (Row table) :=
  if cons.Insertable base pk then base.replace pk table.dflt else base

/-- `col_merge_stmt`. -/
def upsert (pk : Pk) (col : Fin table.ncols) (value : Value) :
    Except String (Keyed Pk (Row table)) :=
  if cons.accepts pk (Function.update table.dflt col value) = false then
    .error "constraint failed"
  else
    match cons.conflict base pk (Function.update table.dflt col value) with
    | none => .ok (base.replace pk (Function.update table.dflt col value))
    | some pk' =>
      match base.get pk' with
      | none => .ok base
      | some row =>
        if cons.accepts pk' (Function.update row col value) = false ∨
            cons.violates base pk' (Function.update row col value) = true then
          .error "constraint failed"
        else .ok (base.replace pk' (Function.update row col value))

end Constraints

namespace Constrained
variable {n : ℕ} {schema : Fin n → TableContext} (cons : (i : Fin n) → Constraints (schema i))
  (r : Replica schema)

def setBase (r : Replica schema) (i : Fin n) (base : Keyed Pk (Row (schema i))) : Replica schema :=
  r.setTable i { r.table i with base := base }

def mergeInsertCol (i : Fin n) (pk : Pk) (colName : String) (colValue : Value)
    (colVersion dbVersion : ℤ) (siteId : SiteId) (seq : ℤ) : Outcome (Replica schema) :=
  match tableColumnLookup (schema i) colName with
  | none =>
    (.error "Unable to retrieve column merge precompiled statement in merge_insert_col.", r)
  | some col =>
    let gos := (schema i).algo == .crdtGos
    let r := (if gos then r.setEnabled i false else r).setInsync true
    let x : Outcome (Replica schema) :=
      match (cons i).upsert (r.table i).base pk col colValue with
      | .error err => (.error err, r)
      | .ok base => (.ok (), setBase r i base)
    let x : Outcome (Replica schema) := (x.1, x.2.setInsync false)
    let x : Outcome (Replica schema) := (x.1, if gos then x.2.setEnabled i true else x.2)
    x.andThen fun r =>
      mergeSetWinnerClock noFaults r i pk colName colVersion dbVersion siteId seq

def mergeSentinelOnlyInsert (i : Fin n) (pk : Pk) (cl dbVersion : ℤ) (siteId : SiteId) (seq : ℤ) :
    Outcome (Replica schema) :=
  let r := r.setInsync true
  let r := (setBase r i ((cons i).insertOrIgnore (r.table i).base pk)).setInsync false
  (mergeZeroclockOnResurrect noFaults r i pk dbVersion).andThen fun r =>
    mergeSetWinnerClock noFaults r i pk CLOUDSYNC_TOMBSTONE_VALUE cl dbVersion siteId seq

variable (c : Change n)

def mergeColumn (needsResurrect rowExistsLocally : Bool) : Outcome (Replica schema) :=
  match mergeDidCidWin noFaults r c.tbl c.pk c.colValue c.name c.colVersion with
  | .error err => (.error ("Unable to perform merge_did_cid_win: " ++ err), r)
  | .ok flag =>
    if needsResurrect || !rowExistsLocally || flag then
      (mergeInsertCol cons r c.tbl c.pk c.name c.colValue c.colVersion c.dbVersion c.siteId
        c.seq).describe "Unable to perform merge_insert_col: "
    else (.ok (), r)

def cloudsyncMergeInsert : Outcome (Replica schema) :=
  if (schema c.tbl).algo = .crdtGos then
    (mergeInsertCol cons r c.tbl c.pk c.name c.colValue c.colVersion c.dbVersion c.siteId
      c.seq).describe "Unable to perform GOS merge_insert_col: "
  else
    let localCl := (r.table c.tbl).metaLocalCl c.pk
    if localCl < 0 then
      (.error ("Unable to compute local causal length: " ++ localClError localCl), r)
    else if c.cl < localCl then (.ok (), r)
    else if c.cl.tmod 2 = 0 then
      if localCl = c.cl then (.ok (), r)
      else (mergeDelete noFaults r c.tbl c.pk c.name c.colVersion c.dbVersion c.siteId
        c.seq).describe "Unable to perform merge_delete: "
    else if c.name = CLOUDSYNC_TOMBSTONE_VALUE then
      if localCl = c.cl then (.ok (), r)
      else (mergeSentinelOnlyInsert cons r c.tbl c.pk c.colVersion c.dbVersion c.siteId
        c.seq).describe "Unable to perform merge_sentinel_only_insert: "
    else
      let needsResurrect := decide (c.cl > localCl) && decide (c.cl.tmod 2 = 1)
      let rowExistsLocally := decide (localCl ≠ 0)
      let x : Outcome (Replica schema) :=
        if needsResurrect && (rowExistsLocally || decide (c.cl > 1)) then
          (mergeSentinelOnlyInsert cons r c.tbl c.pk c.cl c.dbVersion c.siteId
            c.seq).describe "Unable to perform merge_sentinel_only_insert: "
        else (.ok (), r)
      x.andThen fun r => mergeColumn cons r c needsResurrect rowExistsLocally

end Constrained

namespace Constraints
variable {table : TableContext} (cons : Constraints table) (base : Keyed Pk (Row table))

/-- If the upsert for `pk` lands on another row and is allowed to write it, it
finds the value there and in the row of `pk`. -/
def OwnUpsert (pk : Pk) (col : Fin table.ncols) (value : Value) : Prop :=
  ∀ pk' row', cons.accepts pk (Function.update table.dflt col value) = true →
    cons.conflict base pk (Function.update table.dflt col value) = some pk' → pk' ≠ pk →
    base.get pk' = some row' → cons.accepts pk' (Function.update row' col value) = true →
    cons.violates base pk' (Function.update row' col value) = false →
    row' col = value ∧ ∃ row, base.get pk = some row ∧ row col = value

theorem insertOrIgnore_of_ne {pk pk' : Pk} (h : pk' ≠ pk) :
    (cons.insertOrIgnore base pk).get pk' = base.get pk' := by
  rw [insertOrIgnore]
  split_ifs
  · rw [Keyed.get_replace, if_neg h]
  · rfl

theorem insertOrIgnore_ne_none_iff (pk : Pk) :
    (cons.insertOrIgnore base pk).get pk ≠ none ↔
      base.get pk ≠ none ∨ cons.Insertable base pk := by
  rw [insertOrIgnore]
  by_cases h : cons.Insertable base pk
  · rw [if_pos h, Keyed.get_replace, if_pos rfl]
    simp [h]
  · rw [if_neg h]
    simp [h]

theorem holder_ne_none {key : UniqueKey table} {pk pk' : Pk} {row : Row table}
    (h : holder base key pk row = some pk') : base.get pk' ≠ none := by
  rw [holder, Option.bind_eq_some_iff] at h
  rcases h with ⟨v, _, h⟩
  rcases Option.map_eq_some_iff.mp h with ⟨r, hr, rfl⟩
  rw [(Keyed.get_eq_some_iff base r.1 r.2).mpr (List.mem_of_find?_eq_some hr)]
  exact Option.some_ne_none r.2

theorem conflict_ne_none {pk pk' : Pk} {row : Row table}
    (h : cons.conflict base pk row = some pk') : base.get pk' ≠ none := by
  have hkeys : ∀ keys : List (UniqueKey table),
      (keys.findSome? fun key => holder base key pk row) = some pk' → base.get pk' ≠ none := by
    intro keys hkeys
    rcases List.exists_of_findSome?_eq_some hkeys with ⟨key, _, hkey⟩
    exact holder_ne_none base hkey
  rw [conflict, Option.or_eq_some_iff, Option.or_eq_some_iff] at h
  rcases h with h | ⟨_, h | ⟨_, h⟩⟩
  · exact hkeys _ h
  · rw [Option.ite_none_right_eq_some, Option.some.injEq] at h
    rcases h with ⟨hsome, rfl⟩
    exact Option.isSome_iff_ne_none.mp hsome
  · exact hkeys _ h

/-- An upsert that succeeds writes the row of `pk` and no other exactly when
what it does to another row changes nothing. -/
theorem ownUpsert_iff (pk : Pk) (col : Fin table.ncols) (value : Value) :
    (∀ base', cons.upsert base pk col value = .ok base' →
      (∀ pk' ≠ pk, base'.get pk' = base.get pk') ∧
        ∃ row, base'.get pk = some row ∧ row col = value) ↔
    cons.OwnUpsert base pk col value := by
  rw [upsert, OwnUpsert]
  by_cases hrow : cons.accepts pk (Function.update table.dflt col value) = false
  · simp [hrow]
  rw [if_neg hrow]
  cases hconflict : cons.conflict base pk (Function.update table.dflt col value) with
  | none =>
    refine iff_of_true ?_ ?_
    · rintro base' ⟨rfl⟩
      refine ⟨fun pk' hpk => by rw [Keyed.get_replace, if_neg hpk],
        Function.update table.dflt col value, ?_, Function.update_self col value table.dflt⟩
      rw [Keyed.get_replace, if_pos rfl]
    · rintro pk' row' _ ⟨⟩
  | some pk₁ =>
    rcases Option.ne_none_iff_exists'.mp (cons.conflict_ne_none base hconflict) with ⟨row₁, hget⟩
    simp only [hget]
    by_cases hupdate : cons.accepts pk₁ (Function.update row₁ col value) = false ∨
        cons.violates base pk₁ (Function.update row₁ col value) = true
    · rw [if_pos hupdate]
      refine iff_of_true ?_ ?_
      · rintro base' ⟨⟩
      · rintro pk' row' _ ⟨rfl⟩ _ hrow' haccepts hviolates
        obtain rfl := Option.some.inj (hget.symm.trans hrow')
        rcases hupdate with h | h
        · exact absurd (haccepts.symm.trans h) (by decide)
        · exact absurd (h.symm.trans hviolates) (by decide)
    · rw [if_neg hupdate]
      rw [not_or, Bool.not_eq_false, Bool.not_eq_true] at hupdate
      simp only [Except.ok.injEq, forall_eq', Keyed.get_replace, Option.some.injEq]
      by_cases hpk : pk₁ = pk
      · subst hpk
        refine iff_of_true ⟨fun pk' hne => if_neg hne, Function.update row₁ col value, if_pos rfl,
          Function.update_self col value row₁⟩ ?_
        rintro pk' row' _ rfl hne
        exact absurd rfl hne
      · constructor
        · rintro ⟨hothers, row, hrow, hvalue⟩ pk' row' _ rfl _ hrow' _ _
          obtain rfl := Option.some.inj (hget.symm.trans hrow')
          have hsame := hothers pk₁ hpk
          rw [if_pos rfl, hget, Option.some.injEq] at hsame
          rw [if_neg (Ne.symm hpk)] at hrow
          refine ⟨?_, row, hrow, hvalue⟩
          rw [← hsame, Function.update_self]
        · intro h
          rcases h pk₁ row₁ (Bool.not_eq_false _ ▸ hrow) rfl hpk hget hupdate.1 hupdate.2 with
            ⟨hvalue, row, hown, hown_value⟩
          have hsame : Function.update row₁ col value = row₁ := by
            rw [← hvalue, Function.update_eq_self]
          refine ⟨fun pk' _ => ?_, row, ?_, hown_value⟩
          · by_cases hpk' : pk' = pk₁
            · rw [if_pos hpk', hpk', hget, hsame]
            · rw [if_neg hpk']
          · rw [if_neg (Ne.symm hpk)]
            exact hown

end Constraints
end SqliteSync.Store
