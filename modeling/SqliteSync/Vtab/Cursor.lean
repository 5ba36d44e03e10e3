import SqliteSync.Library.Handles
import SqliteSync.Library.Run
import SqliteSync.Vtab.Faithful

/-!
# Cursors of the changes table

A cursor runs the statement of its last filter: it is prepared when the cursor is
filtered, stepped row by row, and finalized at its end, at the next filter or when the
cursor is closed.
-/
namespace SqliteSync.Vtab
open Library

def SQLITE_ERROR : ℤ := 1
def SQLITE_NOMEM : ℤ := 7
def SQLITE_MISUSE : ℤ := 21
def SQLITE_ROW : ℤ := 100
def SQLITE_DONE : ℤ := 101

/-- What a statement returns once it has no more rows, which is never `SQLITE_OK`. -/
abbrev Ending := { rc : ℤ // rc ≠ 0 ∧ rc ≠ SQLITE_ROW }

/-- A prepared statement: the row it is at, and what its steps will give. -/
structure Statement (Row : Type) where
  id : ℕ
  row : Option Row
  rest : List Row
  ending : Ending

/-- What a filter meets: whether its query is built, the codes of its preparation and of
the binding of each argument, and what the steps will give. -/
structure Filtering (Row : Type) where
  sql : Bool
  prepare : ℤ
  binds : List ℤ
  rows : List Row
  ending : Ending

section
variable {Row : Type}

/-- What a filter meets of a statement of which nothing fails, but the preparation where it
does not parse. -/
def Filtering.ofChanges {Value : Type} (changes : Option (List Row)) (argv : List Value) :
    Filtering Row where
  sql := true
  prepare := if changes.isSome then 0 else SQLITE_ERROR
  binds := argv.map fun _ => 0
  rows := changes.getD []
  ending := ⟨SQLITE_DONE, by decide⟩

/-- `sqlite3_step`. -/
def Statement.step (s : Statement Row) : ℤ × Statement Row :=
  match s.rest with
  | r :: rest => (SQLITE_ROW, { s with row := some r, rest := rest })
  | [] => (s.ending, { s with row := none })

/-- `if (c->vm) sqlite3_finalize(c->vm)`. -/
def finalize (x : Handles) (vm : Option (Statement Row)) : Option Handles :=
  match vm with
  | none => some x
  | some s => x.release s.id

/-- `cloudsync_changesvtab_filter`; the outer `none` is a statement finalized twice. -/
def cloudsyncChangesvtabFilter (x : Handles) (vm : Option (Statement Row)) (q : Filtering Row) :
    Option (ℤ × Handles × Option (Statement Row)) :=
  if q.sql = false then some (SQLITE_NOMEM, x, vm)
  else do
    let x ← finalize x vm
    if q.prepare ≠ 0 then some (q.prepare, x, none)
    else
      let s : Statement Row := ⟨x.fresh, none, q.rows, q.ending⟩
      let x := x.acquire
      match q.binds.find? (· ≠ 0) with
      | some rc => (x.release s.id).map fun x => (rc, x, none)
      | none =>
        let (rc, s) := s.step
        if rc = SQLITE_DONE then (x.release s.id).map fun x => (0, x, none)
        else if rc ≠ SQLITE_ROW then (x.release s.id).map fun x => (rc, x, none)
        else some (0, x, some s)

/-- `cloudsync_changesvtab_next`; a step of no statement is a misuse. -/
def cloudsyncChangesvtabNext (x : Handles) (vm : Option (Statement Row)) :
    Option (ℤ × Handles × Option (Statement Row)) :=
  match vm with
  | none => some (SQLITE_MISUSE, x, none)
  | some s =>
    let (rc, s) := s.step
    if rc = SQLITE_DONE then (x.release s.id).map fun x => (0, x, none)
    else some (if rc = SQLITE_ROW then 0 else rc, x, some s)

def cloudsyncChangesvtabEof (vm : Option (Statement Row)) : Bool := vm.isNone

/-- How SQLite reads a cursor that is filtered: the row it is at, unless it is at its end,
and then the next one, with so many rows to read at most. -/
def scan : ℕ → Handles → Option (Statement Row) →
    Option (List Row × ℤ × Handles × Option (Statement Row))
  | 0, _, _ => none
  | fuel + 1, x, vm =>
    if cloudsyncChangesvtabEof vm then some ([], 0, x, vm)
    else do
      let row := (vm.bind (·.row)).toList
      let (rc, x, vm) ← cloudsyncChangesvtabNext x vm
      if rc ≠ 0 then some (row, rc, x, vm)
      else
        let (rows, z) ← scan fuel x vm
        some (row ++ rows, z)

/-- How SQLite reads the rows of a query. -/
def select (fuel : ℕ) (x : Handles) (vm : Option (Statement Row)) (q : Filtering Row) :
    Option (List Row × ℤ × Handles × Option (Statement Row)) := do
  let (rc, x, vm) ← cloudsyncChangesvtabFilter x vm q
  if rc ≠ 0 then some ([], rc, x, vm) else scan fuel x vm

end

/-- The statements, and the `vm` of each cursor that is open. -/
structure Cursors (κ Row : Type) where
  handles : Handles
  vm : κ → Option (Option (Statement Row))

namespace Cursors
variable {κ Row : Type}

inductive Event (κ Row : Type) where
  | opened (k : κ)
  | filter (k : κ) (q : Filtering Row)
  | next (k : κ)
  | close (k : κ)

def Initial (s : Cursors κ Row) : Prop := s.handles.live = ∅ ∧ s.vm = fun _ => none

/-- The cursor of a call is open, that of `xOpen` is a new one. -/
def Usable (s : Cursors κ Row) : Event κ Row → Prop
  | .opened k => s.vm k = none
  | .filter k _ => s.vm k ≠ none
  | .next k => s.vm k ≠ none
  | .close k => s.vm k ≠ none

instance (s : Cursors κ Row) : (e : Event κ Row) → Decidable (s.Usable e)
  | .opened k => inferInstanceAs (Decidable (s.vm k = none))
  | .filter k _ => inferInstanceAs (Decidable (s.vm k ≠ none))
  | .next k => inferInstanceAs (Decidable (s.vm k ≠ none))
  | .close k => inferInstanceAs (Decidable (s.vm k ≠ none))

def held (s : Cursors κ Row) (k : κ) : Option ℕ := (s.vm k).join.map (·.id)

section
variable [DecidableEq κ]

def put (s : Cursors κ Row) (k : κ) (x : Handles) (vm : Option (Option (Statement Row))) :
    Cursors κ Row :=
  ⟨x, Function.update s.vm k vm⟩

def step (s : Cursors κ Row) : Event κ Row → Option (Cursors κ Row)
  | .opened k => if (s.vm k).isNone then some (s.put k s.handles (some none)) else none
  | .filter k q => do
    let vm ← s.vm k
    (cloudsyncChangesvtabFilter s.handles vm q).map fun z => s.put k z.2.1 (some z.2.2)
  | .next k => do
    let vm ← s.vm k
    (cloudsyncChangesvtabNext s.handles vm).map fun z => s.put k z.2.1 (some z.2.2)
  | .close k => do
    let vm ← s.vm k
    (finalize s.handles vm).map fun x => s.put k x none

end

/-! ## Statements are finalized once -/

section
variable [DecidableEq κ] {x : Handles} {held : κ → Option ℕ} {k : κ}
  {vm : Option (Statement Row)}

theorem finalize_spec (h : x.Held (Function.update held k (vm.map (·.id)))) :
    ∃ y, finalize x vm = some y ∧ y.Held (Function.update held k none) := by
  cases vm with
  | none => exact ⟨x, rfl, h⟩
  | some s =>
    rcases h.release (Function.update_self _ _ _) with ⟨y, hy, hheld⟩
    rw [Function.update_idem] at hheld
    exact ⟨y, hy, hheld⟩

theorem acquire_spec (h : x.Held (Function.update held k none)) :
    x.acquire.Held (Function.update held k (some x.fresh)) ∧
      ∃ y, x.acquire.release x.fresh = some y ∧ y.Held (Function.update held k none) := by
  have hacquired := h.acquire (Function.update_self k _ _)
  rw [Function.update_idem] at hacquired
  rcases hacquired.release (Function.update_self _ _ _) with ⟨y, hy, hheld⟩
  rw [Function.update_idem] at hheld
  exact ⟨hacquired, y, hy, hheld⟩

theorem step_id (s : Statement Row) : s.step.2.id = s.id := by
  rw [Statement.step]
  split <;> rfl

theorem cloudsyncChangesvtabFilter_spec (h : x.Held (Function.update held k (vm.map (·.id))))
    (q : Filtering Row) : ∃ z, cloudsyncChangesvtabFilter x vm q = some z ∧
      z.2.1.Held (Function.update held k (z.2.2.map (·.id))) := by
  rw [cloudsyncChangesvtabFilter]
  by_cases hsql : q.sql = false
  · rw [if_pos hsql]
    exact ⟨_, rfl, h⟩
  · rcases finalize_spec h with ⟨y, hy, hfinalized⟩
    rw [if_neg hsql, hy, Option.bind_eq_bind, Option.bind_some]
    by_cases hprepare : q.prepare ≠ 0
    · rw [if_pos hprepare]
      exact ⟨_, rfl, hfinalized⟩
    · rcases acquire_spec hfinalized with ⟨hacquired, y', hy', hreleased⟩
      rw [if_neg hprepare]
      dsimp only
      cases q.binds.find? (· ≠ 0) with
      | some rc =>
        dsimp only
        rw [hy']
        exact ⟨_, rfl, hreleased⟩
      | none =>
        dsimp only
        rw [step_id, hy']
        split_ifs
        · exact ⟨_, rfl, hreleased⟩
        · exact ⟨_, rfl, hreleased⟩
        · refine ⟨_, rfl, ?_⟩
          rw [Option.map_some, step_id]
          exact hacquired

theorem cloudsyncChangesvtabNext_spec (h : x.Held (Function.update held k (vm.map (·.id)))) :
    ∃ z, cloudsyncChangesvtabNext x vm = some z ∧
      z.2.1.Held (Function.update held k (z.2.2.map (·.id))) := by
  cases vm with
  | none => exact ⟨_, rfl, h⟩
  | some s =>
    rcases finalize_spec h with ⟨y, hy, hfinalized⟩
    rw [cloudsyncChangesvtabNext]
    dsimp only
    rw [step_id]
    split_ifs
    · rw [finalize] at hy
      rw [hy]
      exact ⟨_, rfl, hfinalized⟩
    all_goals
      refine ⟨_, rfl, ?_⟩
      rw [Option.map_some, step_id]
      exact h

variable {s t : Cursors κ Row}

theorem held_put (s : Cursors κ Row) (k : κ) (x : Handles) (vm : Option (Option (Statement Row))) :
    (s.put k x vm).held = Function.update s.held k (vm.join.map (·.id)) := by
  funext l
  rw [held, put]
  dsimp only
  rw [Function.update_apply, Function.update_apply]
  split_ifs <;> rfl

theorem held_at {vm : Option (Statement Row)} (hk : s.vm k = some vm) :
    Function.update s.held k (vm.map (·.id)) = s.held := by
  rw [Function.update_eq_self_iff, held, hk]
  rfl

/-- A call on an open cursor does what it does, and keeps the statements held. -/
theorem exists_step (h : s.handles.Held s.held) {e : Event κ Row} (he : s.Usable e) :
    ∃ t, s.step e = some t ∧ t.handles.Held t.held := by
  cases e with
  | opened k =>
    have hk : s.vm k = none := he
    have hnone : s.held k = none := by
      rw [held, hk]
      rfl
    refine ⟨s.put k s.handles (some none), ?_, ?_⟩
    · rw [step, hk]
      rfl
    · rw [held_put]
      change s.handles.Held (Function.update s.held k none)
      rwa [Function.update_eq_self_iff.mpr hnone.symm]
  | filter k q =>
    rcases Option.ne_none_iff_exists'.mp he with ⟨vm, hk⟩
    rcases cloudsyncChangesvtabFilter_spec ((held_at hk).symm ▸ h) q with ⟨z, hz, hheld⟩
    refine ⟨s.put k z.2.1 (some z.2.2), ?_, ?_⟩
    · rw [step, hk, Option.bind_eq_bind, Option.bind_some, hz]
      rfl
    · rw [held_put]
      exact hheld
  | next k =>
    rcases Option.ne_none_iff_exists'.mp he with ⟨vm, hk⟩
    rcases cloudsyncChangesvtabNext_spec ((held_at hk).symm ▸ h) with ⟨z, hz, hheld⟩
    refine ⟨s.put k z.2.1 (some z.2.2), ?_, ?_⟩
    · rw [step, hk, Option.bind_eq_bind, Option.bind_some, hz]
      rfl
    · rw [held_put]
      exact hheld
  | close k =>
    rcases Option.ne_none_iff_exists'.mp he with ⟨vm, hk⟩
    rcases finalize_spec ((held_at hk).symm ▸ h) with ⟨y, hy, hheld⟩
    refine ⟨s.put k y none, ?_, ?_⟩
    · rw [step, hk, Option.bind_eq_bind, Option.bind_some, hy]
      rfl
    · rw [held_put]
      exact hheld

theorem held_of_reachable (h : Reachable step Initial Usable s) : s.handles.Held s.held := by
  apply h.invariant
  · rintro s ⟨hlive, hvm⟩
    have hnone : ∀ k, s.held k = none := by
      intro k
      rw [held, hvm]
      rfl
    refine ⟨fun id => ?_, fun k l id hk => ?_, fun id hid => ?_⟩
    · simp [hlive, hnone]
    · cases (hnone k).symm.trans hk
    · rw [hlive] at hid
      cases hid
  · intro s e t hs he ht
    rcases exists_step hs he with ⟨t', ht', hheld⟩
    rw [ht, Option.some_inj] at ht'
    exact ht' ▸ hheld

/-- Whatever is called on whichever cursors in whatever order: no statement is finalized
twice, and those that are not finalized are the ones the open cursors hold, each its own. -/
theorem mem_live_iff (h : Reachable step Initial Usable s) :
    (∀ e, s.Usable e → (s.step e).isSome) ∧
      (∀ id, id ∈ s.handles.live ↔ ∃ k stmt, s.vm k = some (some stmt) ∧ stmt.id = id) ∧
      ∀ k l stmt stmt', s.vm k = some (some stmt) → s.vm l = some (some stmt') →
        stmt.id = stmt'.id → k = l := by
  have hheld := held_of_reachable h
  have hheld_iff : ∀ k id,
      s.held k = some id ↔ ∃ stmt, s.vm k = some (some stmt) ∧ stmt.id = id := by
    intro k id
    rw [held, Option.map_eq_some_iff]
    simp only [Option.join_eq_some_iff]
  refine ⟨fun e he => ?_, fun id => ?_, fun k l stmt stmt' hk hl hid => ?_⟩
  · rcases exists_step hheld he with ⟨t, ht, -⟩
    rw [ht]
    rfl
  · rw [hheld.live]
    simp only [hheld_iff]
  · exact hheld.unique k l stmt.id ((hheld_iff k _).mpr ⟨stmt, hk, rfl⟩)
      ((hheld_iff l _).mpr ⟨stmt', hl, hid.symm⟩)

def unopened : Cursors κ Row := ⟨⟨∅, 0⟩, fun _ => none⟩

/-- A query of some rows that nothing fails in. -/
def querying (rows : List Row) : Filtering Row := ⟨true, 0, [0], rows, ⟨SQLITE_DONE, by decide⟩⟩

theorem mem_live_iff_refiltered : ∃ s : Cursors Bool ℕ, s.handles.live = {2} ∧
    (∀ e, s.Usable e → (s.step e).isSome) ∧
      (∀ id, id ∈ s.handles.live ↔ ∃ k stmt, s.vm k = some (some stmt) ∧ stmt.id = id) ∧
      ∀ k l stmt stmt', s.vm k = some (some stmt) → s.vm l = some (some stmt') →
        stmt.id = stmt'.id → k = l := by
  rcases Reachable.exists_of_runs (@step Bool ℕ _) Initial Usable (s := unopened) ⟨rfl, rfl⟩
    [.opened true, .opened false, .filter true (querying [5]), .filter false (querying [6, 7]),
      .filter true (querying [8, 9]), .next true, .close false]
    (fun s => decide (s.handles.live = {2})) (by decide +kernel) with ⟨s, hs, hlive⟩
  exact ⟨s, of_decide_eq_true hlive, mem_live_iff hs⟩

end

/-! ## A scan reads the rows of its statement -/

section
variable {x : Handles} {stmt : Statement Row}

/-- The code of a scan that has read all rows. -/
def scanCode (ending : Ending) : ℤ := if ending.1 = SQLITE_DONE then 0 else ending.1

theorem step_nil (h : stmt.rest = []) :
    stmt.step = (stmt.ending.1, { stmt with row := none }) := by
  rw [Statement.step, h]

theorem step_cons {r : Row} {rest : List Row} (h : stmt.rest = r :: rest) :
    stmt.step = (SQLITE_ROW, { stmt with row := some r, rest := rest }) := by
  rw [Statement.step, h]

theorem scan_none (fuel : ℕ) : scan (fuel + 1) x (none : Option (Statement Row)) =
    some ([], 0, x, none) := rfl

theorem scan_last {r : Row} (hrow : stmt.row = some r) (hlive : stmt.id ∈ x.live)
    (hrest : stmt.rest = []) (fuel : ℕ) :
    ∃ z, scan (fuel + 2) x (some stmt) = some ([r], scanCode stmt.ending, z) := by
  by_cases hdone : stmt.ending.1 = SQLITE_DONE
  · refine ⟨({ x with live := x.live.erase stmt.id }, none), ?_⟩
    simp [scan, cloudsyncChangesvtabEof, cloudsyncChangesvtabNext, step_nil hrest, hdone, hrow,
      Handles.release, hlive, scanCode]
  · refine ⟨(x, some { stmt with row := none }), ?_⟩
    simp [scan, cloudsyncChangesvtabEof, cloudsyncChangesvtabNext, step_nil hrest, hdone, hrow,
      stmt.ending.2.1, stmt.ending.2.2, scanCode]

theorem scan_next {r r' : Row} {rest : List Row} (hrow : stmt.row = some r)
    (hrest : stmt.rest = r' :: rest) (fuel : ℕ) :
    scan (fuel + 1) x (some stmt) =
      (scan fuel x (some { stmt with row := some r', rest := rest })).map
        fun z => (r :: z.1, z.2) := by
  rw [scan, cloudsyncChangesvtabEof, cloudsyncChangesvtabNext]
  simp [step_cons hrest, hrow, SQLITE_ROW, SQLITE_DONE, Option.map_eq_bind]

theorem scan_rows {r : Row} {rest : List Row} {fuel : ℕ} (hrow : stmt.row = some r)
    (hlive : stmt.id ∈ x.live) (hrest : stmt.rest = rest) (hfuel : rest.length + 1 < fuel) :
    ∃ z, scan fuel x (some stmt) = some (r :: rest, scanCode stmt.ending, z) := by
  induction rest generalizing stmt r fuel with
  | nil =>
    rcases Nat.exists_eq_add_of_lt hfuel with ⟨n, rfl⟩
    rw [show List.length ([] : List Row) + 1 + n + 1 = n + 2 by simp; omega]
    exact scan_last hrow hlive hrest n
  | cons r' rest ih =>
    cases fuel with
    | zero => cases hfuel
    | succ fuel =>
      have hscan : ∃ z, scan fuel x (some { stmt with row := some r', rest := rest }) =
          some (r' :: rest, scanCode stmt.ending, z) :=
        ih rfl hlive rfl (by simpa using hfuel)
      rcases hscan with ⟨z, hz⟩
      refine ⟨z, ?_⟩
      rw [scan_next hrow hrest, hz]
      rfl

variable {y : Handles} {vm : Option (Statement Row)} {q : Filtering Row}

theorem cloudsyncChangesvtabFilter_of_prepared (hfinalize : finalize x vm = some y) (hsql : q.sql = true)
    (hprepare : q.prepare = 0) (hbinds : ∀ rc ∈ q.binds, rc = 0)
    (hstmt : stmt = ⟨y.fresh, none, q.rows, q.ending⟩) :
    cloudsyncChangesvtabFilter x vm q =
      if stmt.step.1 = SQLITE_DONE then (y.acquire.release stmt.step.2.id).map fun z => (0, z, none)
      else if stmt.step.1 ≠ SQLITE_ROW then
        (y.acquire.release stmt.step.2.id).map fun z => (stmt.step.1, z, none)
      else some (0, y.acquire, some stmt.step.2) := by
  have hfind : q.binds.find? (· ≠ 0) = none := by simpa using hbinds
  rw [cloudsyncChangesvtabFilter, hsql, if_neg (by decide), hfinalize, Option.bind_eq_bind, Option.bind_some,
    if_neg (not_not.mpr hprepare), hfind, hstmt]

theorem cloudsyncChangesvtabFilter_cons (hfinalize : finalize x vm = some y) (hsql : q.sql = true)
    (hprepare : q.prepare = 0) (hbinds : ∀ rc ∈ q.binds, rc = 0) {r : Row} {rest : List Row}
    (hrows : q.rows = r :: rest) :
    cloudsyncChangesvtabFilter x vm q = some (0, y.acquire, some ⟨y.fresh, some r, rest, q.ending⟩) := by
  rw [cloudsyncChangesvtabFilter_of_prepared hfinalize hsql hprepare hbinds rfl, step_cons hrows,
    if_neg (show SQLITE_ROW ≠ SQLITE_DONE by decide), if_neg (not_not.mpr rfl)]

theorem cloudsyncChangesvtabFilter_nil (hfinalize : finalize x vm = some y) (hsql : q.sql = true)
    (hprepare : q.prepare = 0) (hbinds : ∀ rc ∈ q.binds, rc = 0) (hrows : q.rows = []) :
    cloudsyncChangesvtabFilter x vm q =
      (y.acquire.release y.fresh).map fun z => (scanCode q.ending, z, none) := by
  rw [cloudsyncChangesvtabFilter_of_prepared hfinalize hsql hprepare hbinds rfl, step_nil hrows,
    if_pos q.ending.2.2, scanCode]
  split_ifs <;> rfl

end

section
variable [DecidableEq κ] {s : Cursors κ Row} {k : κ} {vm : Option (Statement Row)}

/-- A query that prepares and binds is read on a cursor whose statement can be finalized. -/
theorem exists_select {x : Handles} {held : κ → Option ℕ}
    (h : x.Held (Function.update held k (vm.map (·.id)))) {q : Filtering Row}
    (hsql : q.sql = true) (hprepare : q.prepare = 0) (hbinds : ∀ rc ∈ q.binds, rc = 0) {fuel : ℕ}
    (hfuel : q.rows.length < fuel) :
    ∃ z, select fuel x vm q = some (q.rows, scanCode q.ending, z) := by
  rcases finalize_spec h with ⟨y, hy, hfinalized⟩
  rcases acquire_spec hfinalized with ⟨hacquired, y', hy', -⟩
  cases hrows : q.rows with
  | nil =>
    refine ⟨(y', none), ?_⟩
    rw [select, cloudsyncChangesvtabFilter_nil hy hsql hprepare hbinds hrows, hy', Option.map_some,
      Option.bind_eq_bind, Option.bind_some]
    dsimp only
    by_cases hcode : scanCode q.ending = 0
    · rcases Nat.exists_eq_succ_of_ne_zero (Nat.ne_of_gt (Nat.zero_lt_of_lt hfuel)) with ⟨n, rfl⟩
      rw [if_neg (not_not.mpr hcode), scan_none, hcode]
    · rw [if_pos hcode]
  | cons r rest =>
    rw [hrows] at hfuel
    have hscan : ∃ z, scan fuel y.acquire (some ⟨y.fresh, some r, rest, q.ending⟩) =
        some (r :: rest, scanCode q.ending, z) :=
      scan_rows rfl (Finset.mem_insert_self _ _) rfl hfuel
    rcases hscan with ⟨z, hz⟩
    refine ⟨z, ?_⟩
    rw [select, cloudsyncChangesvtabFilter_cons hy hsql hprepare hbinds hrows, Option.bind_eq_bind,
      Option.bind_some]
    dsimp only
    rw [if_neg (by decide), hz]

theorem held_vm (h : Reachable step Initial Usable s) (hk : s.vm k = some vm) :
    s.handles.Held (Function.update s.held k (vm.map (·.id))) := by
  rw [held_at hk]
  exact held_of_reachable h

/-- However the cursor was used before, a query that prepares and binds reads exactly the
rows of its statement, in their order, and returns the code the statement ends with. -/
theorem select_rows (h : Reachable step Initial Usable s) (hk : s.vm k = some vm)
    {q : Filtering Row} (hsql : q.sql = true) (hprepare : q.prepare = 0)
    (hbinds : ∀ rc ∈ q.binds, rc = 0) {fuel : ℕ} (hfuel : q.rows.length < fuel) :
    ∃ z, select fuel s.handles vm q = some (q.rows, scanCode q.ending, z) :=
  exists_select (held_vm h hk) hsql hprepare hbinds hfuel

theorem select_rows_again : ∃ s : Cursors Bool ℕ, ∃ vm z, s.vm true = some vm ∧ vm.isSome ∧
    select 4 s.handles vm (querying [8, 9]) =
      some ([8, 9], scanCode ⟨SQLITE_DONE, by decide⟩, z) := by
  rcases Reachable.exists_of_runs (@step Bool ℕ _) Initial Usable (s := unopened) ⟨rfl, rfl⟩
    [.opened true, .filter true (querying [5, 6, 7]), .next true]
    (fun s => (s.vm true).join.isSome) (by decide +kernel) with ⟨s, hs, hheld⟩
  rcases Option.isSome_iff_exists.mp hheld with ⟨stmt, hstmt⟩
  have hk := Option.join_eq_some_iff.mp hstmt
  rcases select_rows hs hk (q := querying [8, 9]) rfl rfl (by decide) (show 2 < 4 by decide) with
    ⟨z, hz⟩
  exact ⟨s, some stmt, z, hk, rfl, hz⟩

/-- Where the index is well posed, a scan of its query reads exactly the changes that meet
the omitted constraints. -/
theorem select_omitted (h : Reachable step Initial Usable s) (hk : s.vm k = some vm)
    {tables : List String} {cs : List IndexConstraint} {os : List IndexOrderBy}
    (hposed : WellPosed tables cs os) {Value : Type} (cell : Row → ℤ → Value) (m : Meaning Value)
    (null : Value) (feed : List Row) {values : List Value} (hlen : values.length = cs.length)
    {fuel : ℕ} (hfuel : feed.length < fuel) :
    let info := cloudsyncChangesvtabBestIndex cs os
    let argv := argvOf info.aConstraintUsage values
    ∃ z, select fuel s.handles vm
        (Filtering.ofChanges (buildChangesSql cell m null tables feed info.idxStr.text argv)
          argv) =
      some (feed.filter fun r =>
        meetsOmitted cell m IndexConstraint.comparing r cs info.aConstraintUsage values, 0, z) := by
  intro info argv
  have hrows := hposed.bestIndex_rows cell m null feed hlen
  rw [hrows]
  refine exists_select (held_vm h hk) rfl rfl ?_ ?_
  · intro rc hrc
    rcases List.mem_map.mp hrc with ⟨-, -, rfl⟩
    rfl
  · exact Nat.lt_of_le_of_lt (List.length_filter_le _ feed) hfuel

end
end Cursors
end SqliteSync.Vtab
