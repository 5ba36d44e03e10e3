import SqliteSync.Causal.Run
import SqliteSync.Store.Plain

/-!
# Runs on declared tables

A run whose steps keep to keys and values that the tables take as they are is a
run on tables whose only constraint is their primary key.
-/
namespace SqliteSync.Store
open Library Clock

variable {n : ℕ} {schema : Fin n → TableContext} {decl : (i : Fin n) → Declaration (schema i)}
  {cells : (i : Fin n) → Cells (schema i)} {r : Replica schema}

namespace Replica

/-- A step keeps to the cells. -/
def Event.Within (cells : (i : Fin n) → Cells (schema i)) : Event schema → Prop
  | .write i c => c.Within (cells i)
  | .merge c => c.Within (cells c.tbl)
  | .commit => True

theorem Within.empty (cells : (i : Fin n) → Cells (schema i)) (site : SiteId) :
    (Replica.empty schema site).Within cells := fun i => .empty (schema i) (cells i)

end Replica

namespace Declared

section
variable (decl : (i : Fin n) → Declaration (schema i))

def step (r : Replica schema) : Replica.Event schema → Option (Replica schema)
  | .write i c => applyRowChange decl r i c
  | .merge c => if c.WellFormed then some (cloudsyncMergeInsert decl noFaults r c).2 else none
  | .commit => some { r with data := cloudsyncCommitHook r.data }

def Reached (allowed : Replica schema → Replica.Event schema → Prop) : Replica schema → Prop :=
  Reachable (step decl) (fun r => ∃ site, r = Replica.empty schema site) allowed

def deliver (r : Replica schema) (D : List (Change n)) : Replica schema :=
  D.foldl (fun r c => (cloudsyncMergeInsert decl noFaults r c).2) r

end

variable (hplain : ∀ i, (decl i).Plain (cells i))
include hplain

theorem step_eq (hr : r.Within cells) {e : Replica.Event schema} (he : e.Within cells) :
    step decl r e = r.step e := by
  cases e with
  | write i c => exact applyRowChange_eq hplain hr he
  | merge c =>
    change (if c.WellFormed then some (cloudsyncMergeInsert decl noFaults r c).2 else none) = _
    rw [cloudsyncMergeInsert_eq hplain noFaults hr he]
    rfl
  | commit => rfl

theorem within_of_step (hr : r.Within cells) {e : Replica.Event schema} (he : e.Within cells)
    {r' : Replica schema} (hr' : r.step e = some r') : r'.Within cells := by
  cases e with
  | write i c => exact hr.applyRowChange he hr'
  | merge c =>
    rw [Replica.step, Option.ite_none_right_eq_some, Option.some.injEq] at hr'
    rcases hr' with ⟨-, rfl⟩
    exact hr.of_ran hplain he (cloudsyncMergeInsert_ran noFaults r c)
  | commit =>
    cases hr'
    exact hr.of_table rfl

theorem reached_of_within {allowed : Replica schema → Replica.Event schema → Prop}
    (h : Reached decl (fun r e => e.Within cells ∧ allowed r e) r) :
    r.Within cells ∧ Replica.Reached schema allowed r := by
  apply h.simulates
  · rintro r ⟨site, rfl⟩
    exact ⟨.empty cells site, site, rfl⟩
  · rintro r e r' - hr ⟨he, hallowed⟩ hr'
    rw [step_eq hplain hr he] at hr'
    exact ⟨within_of_step hplain hr he hr', e, hallowed, hr'⟩

theorem deliver_eq {D : List (Change n)} (hr : r.Within cells)
    (hD : ∀ c ∈ D, c.Within (cells c.tbl)) : deliver decl r D = r.deliver D := by
  induction D generalizing r with
  | nil => rw [deliver, Replica.deliver, List.foldl_nil, List.foldl_nil]
  | cons c D ih =>
    have hc := hD c List.mem_cons_self
    have hrest := hr.of_ran hplain hc (cloudsyncMergeInsert_ran noFaults r c)
    rw [deliver, List.foldl_cons, ← deliver, Replica.deliver, List.foldl_cons, ← Replica.deliver,
      cloudsyncMergeInsert_eq hplain noFaults hr hc, ih hrest fun d hd => hD d (.tail c hd)]

theorem applyStatement_eq {i : Fin n} {rows : List (RowChange (schema i))} (hr : r.Within cells)
    (hrows : ∀ c ∈ rows, c.Within (cells i)) :
    applyStatement decl r i rows = Store.applyStatement r i rows := by
  induction rows generalizing r with
  | nil => rfl
  | cons c rows ih =>
    have hc := hrows c List.mem_cons_self
    rw [applyStatement, Store.applyStatement, List.foldlM_cons, List.foldlM_cons,
      applyRowChange_eq hplain hr hc]
    cases hr' : Store.applyRowChange r i c with
    | none => rfl
    | some r' =>
      have hrest := ih (hr.applyRowChange hc hr') fun d hd => hrows d (.tail c hd)
      rw [applyStatement, Store.applyStatement] at hrest
      rw [Option.bind_eq_bind, Option.bind_some, Option.bind_some, hrest]

omit hplain in
instance [∀ i pk, Decidable ((cells i).keys pk)]
    [∀ i pk col value, Decidable ((cells i).values pk col value)] :
    (e : Replica.Event schema) → Decidable (e.Within cells)
  | .write i (.insert _ pk row) | .write i (.update _ _ pk row) =>
    inferInstanceAs (Decidable ((cells i).Has pk row))
  | .write _ (.delete _) | .commit => isTrue trivial
  | .merge c => inferInstanceAs (Decidable (c.Within (cells c.tbl)))

end Declared

/-- Bytes as `NOCASE` compares them. -/
def noCase (bytes : List UInt8) : List UInt8 :=
  bytes.map fun b => if 0x41 ≤ b ∧ b ≤ 0x5A then b + 0x20 else b

/-- `CREATE TABLE t (k COLLATE NOCASE NOT NULL PRIMARY KEY CHECK (typeof(k) = 'text'),
v CHECK (typeof(v) <> 'blob'))`. -/
def foldedKey : Declaration singleColumn where
  before := []
  after := []
  accepts
    | [.text _], row => sqlite3ValueType (row ⟨0, Nat.one_pos⟩) != 4
    | _, _ => false
  storeKey := id
  store _ := id
  same
    | [.text a], [.text b] => noCase a.data == noCase b.data
    | _, _ => false
  same_self
    | [.text a], _, _ => beq_self_eq_true (noCase a.data)
    | [], _, h | [.integer _], _, h | [.float _], _, h | [.blob _], _, h | [.null], _, h
    | _ :: _ :: _, _, h => absurd h (by simp)

/-- A key with one letter. -/
def letterKey (b : UInt8) : Pk := [.text ⟨[b], Nat.one_lt_two_pow (by decide)⟩]

/-- The keys `a` and `b`, with anything but a BLOB. -/
def letterCells : Cells singleColumn where
  keys pk := pk = letterKey 0x61 ∨ pk = letterKey 0x62
  values _ _ value := sqlite3ValueType value ≠ 4

instance (pk : Pk) : Decidable (letterCells.keys pk) := inferInstanceAs (Decidable (_ ∨ _))

instance (pk : Pk) (col : Fin singleColumn.ncols) (value : Value) :
    Decidable (letterCells.values pk col value) := inferInstanceAs (Decidable (_ ≠ _))

theorem foldedKey_plain : foldedKey.Plain letterCells where
  dflt _ _ _ := (by decide : sqlite3ValueType .null ≠ 4)
  storeKey _ _ := rfl
  store _ _ _ _ _ := rfl
  same := by
    rintro pk pk' (rfl | rfl) (rfl | rfl) <;> decide
  accepts := by
    rintro pk row ⟨rfl | rfl, hrow⟩
    · exact bne_iff_ne.mpr (hrow ⟨0, Nat.one_pos⟩)
    · exact bne_iff_ne.mpr (hrow ⟨0, Nat.one_pos⟩)
  unique _ hkey := nomatch hkey

end SqliteSync.Store
