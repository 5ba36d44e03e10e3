import SqliteSync.Clock.Context
import SqliteSync.Store.Table

/-!
# A replica

The database as one connection sees it, with the context of the connection.
Tables are known by their position among the registered ones, sites by their
rowid in `cloudsync_site_id`, where the local site is row 0.
-/
namespace SqliteSync.Store
open Library Clock

abbrev SiteId := List UInt8

structure Replica {n : ℕ} (schema : Fin n → TableContext) where
  data : Context
  dataVersion : ℤ
  siteIds : List SiteId
  enabled : Fin n → Bool
  table : (i : Fin n) → Table (schema i)

/-- `getset_siteid_stmt`: the rowid of a site, which is stored if it is new. -/
def getsetSiteid (siteIds : List SiteId) (site : SiteId) : ℕ × List SiteId :=
  if site ∈ siteIds then (siteIds.idxOf site, siteIds) else (siteIds.length, siteIds ++ [site])

/-- The outcome of a function that returns a code and may have written before it failed. -/
abbrev Outcome (σ : Type) := Except String Unit × σ

namespace Outcome
variable {σ : Type}

/-- `if (rc != SQLITE_OK) return rc;`. -/
def andThen (x : Outcome σ) (f : σ → Outcome σ) : Outcome σ :=
  match x.1 with
  | .ok () => f x.2
  | .error err => (.error err, x.2)

def describe (x : Outcome σ) (message : String) : Outcome σ :=
  match x.1 with
  | .ok () => x
  | .error err => (.error (message ++ err), x.2)

@[simp] theorem andThen_ok (s : σ) (f : σ → Outcome σ) : andThen (.ok (), s) f = f s := rfl

@[simp] theorem andThen_error (err : String) (s : σ) (f : σ → Outcome σ) :
    andThen (.error err, s) f = (.error err, s) := rfl

theorem andThen_fst_ok {x : Outcome σ} {f : σ → Outcome σ} :
    (x.andThen f).1 = .ok () ↔ x.1 = .ok () ∧ (f x.2).1 = .ok () := by
  rcases x with ⟨err | ⟨⟩, s⟩
  · simp
  · rw [andThen_ok, and_iff_right rfl]

theorem andThen_keeps (p : σ → Prop) {x : Outcome σ} {f : σ → Outcome σ} (hx : p x.2)
    (hf : ∀ s, p s → p (f s).2) : p (x.andThen f).2 := by
  rcases x with ⟨err | ⟨⟩, s⟩
  · exact hx
  · exact hf s hx

@[simp] theorem describe_ok (s : σ) (message : String) :
    describe (.ok (), s) message = (.ok (), s) := rfl

@[simp] theorem describe_snd (x : Outcome σ) (message : String) :
    (x.describe message).2 = x.2 := by
  rcases x with ⟨_ | _, s⟩ <;> rfl

end Outcome

namespace Replica
variable {n : ℕ} {schema : Fin n → TableContext}

def view (r : Replica schema) : DbView where
  dataVersion := r.dataVersion
  stored := (List.finRange n).flatMap fun i => (r.table i).dbVersions

def setTable (r : Replica schema) (i : Fin n) (t : Table (schema i)) : Replica schema :=
  { r with table := Function.update r.table i t }

def setInsync (r : Replica schema) (insync : Bool) : Replica schema :=
  { r with data := { r.data with insync := insync } }

def setEnabled (r : Replica schema) (i : Fin n) (enabled : Bool) : Replica schema :=
  { r with enabled := Function.update r.enabled i enabled }

/-- `db_version_next` on the connection of the replica. -/
def dbVersionNext (r : Replica schema) (mergingVersion : ℤ) : ℤ × Replica schema :=
  let next := Clock.dbVersionNext r.view r.data mergingVersion
  (next.1, { r with data := next.2 })

def bumpSeq (r : Replica schema) : ℤ × Replica schema :=
  ((Clock.bumpSeq r.data).1, { r with data := (Clock.bumpSeq r.data).2 })

/-- `cloudsync_is_sync`, the guard of the triggers. -/
def cloudsyncIsSync (r : Replica schema) (i : Fin n) : Bool := r.data.insync || !r.enabled i

@[simp] theorem setTable_table_self (r : Replica schema) (i : Fin n) (t : Table (schema i)) :
    (r.setTable i t).table i = t := by
  simp [setTable]

theorem setTable_table_of_ne (r : Replica schema) {i j : Fin n} (h : j ≠ i)
    (t : Table (schema i)) : (r.setTable i t).table j = r.table j := by
  simp [setTable, h]

@[simp] theorem setTable_data (r : Replica schema) (i : Fin n) (t : Table (schema i)) :
    (r.setTable i t).data = r.data := rfl

@[simp] theorem setTable_dataVersion (r : Replica schema) (i : Fin n) (t : Table (schema i)) :
    (r.setTable i t).dataVersion = r.dataVersion := rfl

@[simp] theorem setTable_siteIds (r : Replica schema) (i : Fin n) (t : Table (schema i)) :
    (r.setTable i t).siteIds = r.siteIds := rfl

@[simp] theorem setTable_setTable (r : Replica schema) (i : Fin n) (t u : Table (schema i)) :
    (r.setTable i t).setTable i u = r.setTable i u := by
  simp [setTable]

@[simp] theorem setInsync_table (r : Replica schema) (insync : Bool) :
    (r.setInsync insync).table = r.table := rfl

@[simp] theorem setEnabled_table (r : Replica schema) (i : Fin n) (enabled : Bool) :
    (r.setEnabled i enabled).table = r.table := rfl

@[simp] theorem dbVersionNext_table (r : Replica schema) (mergingVersion : ℤ) :
    (r.dbVersionNext mergingVersion).2.table = r.table := rfl

@[simp] theorem bumpSeq_table (r : Replica schema) : r.bumpSeq.2.table = r.table := rfl

end Replica
end SqliteSync.Store
