import SqliteSync.Causal.Transaction
import SqliteSync.Network.Send

/-!
# A connection that sends

A connection writes, merges and sends in transactions. The cursor is a row of the
database, so a rollback takes back what a send stored, and with it, if the
extension was installed in the same transaction, the table of the site id: the
context keeps the id.
-/
namespace SqliteSync.Network
open Library Store Config

section
variable {n : ℕ} {schema : Fin n → TableContext}

/-! ## The row of the local site -/

/-- Row 0 of `cloudsync_site_id`. -/
def LocalSite (id : SiteId) (r : Replica schema) : Prop := r.siteIds.head? = some id

theorem LocalSite.siteOf {id : SiteId} {r : Replica schema} (h : LocalSite id r) :
    r.siteOf 0 = id := by
  rw [Replica.siteOf, List.getD_eq_getElem?_getD, ← List.head?_eq_getElem?, h]
  rfl

theorem getsetSiteid_head {siteIds : List SiteId} {id : SiteId} (h : siteIds.head? = some id)
    (site : SiteId) : (getsetSiteid siteIds site).2.head? = some id := by
  rw [getsetSiteid]
  split_ifs
  · exact h
  · rw [List.head?_append, h]
    rfl

section
variable {id : SiteId} {r : Replica schema} (faults : Faults) (i : Fin n) (pk : Pk)

theorem stepStmt_localSite (h : LocalSite id r) (stmt : MergeStmt)
    (f : Table (schema i) → Table (schema i)) : LocalSite id (stepStmt faults r i stmt f).2 := by
  rw [stepStmt]
  cases faults stmt <;> exact h

theorem stepInsync_localSite (h : LocalSite id r) (stmt : MergeStmt)
    (f : Table (schema i) → Table (schema i)) : LocalSite id (stepInsync faults r i stmt f).2 :=
  stepStmt_localSite (r := r.setInsync true) faults i h stmt f

theorem stepVersioned_localSite (h : LocalSite id r) (stmt : MergeStmt) (dbVersion : ℤ)
    (f : ℤ → Table (schema i) → Table (schema i)) :
    LocalSite id (stepVersioned faults r i stmt dbVersion f).2 := by
  rw [stepVersioned]
  cases faults stmt <;> exact h

theorem mergeSetWinnerClock_localSite (h : LocalSite id r) (colname : String)
    (colVersion dbVersion : ℤ) (site : SiteId) (seq : ℤ) : LocalSite id
      (mergeSetWinnerClock faults r i pk colname colVersion dbVersion site seq).2 := by
  rw [mergeSetWinnerClock]
  cases faults (.siteId colname) with
  | some err => exact h
  | none =>
    exact stepVersioned_localSite (r := { r with siteIds := (getsetSiteid r.siteIds site).2 })
      faults i (getsetSiteid_head h site) _ dbVersion _

theorem mergeInsertCol_localSite (h : LocalSite id r) (colName : String) (colValue : Value)
    (colVersion dbVersion : ℤ) (site : SiteId) (seq : ℤ) : LocalSite id
      (mergeInsertCol faults r i pk colName colValue colVersion dbVersion site seq).2 := by
  rw [mergeInsertCol]
  cases tableColumnLookup (schema i) colName with
  | none => exact h
  | some col =>
    apply Outcome.andThen_keeps (LocalSite id)
    · dsimp only
      split_ifs
      · exact stepInsync_localSite (r := r.setEnabled i false) faults i h _ _
      · exact stepInsync_localSite faults i h _ _
    · exact fun s hs => mergeSetWinnerClock_localSite faults i pk hs colName colVersion dbVersion
        site seq

theorem mergeDelete_localSite (h : LocalSite id r) (colname : String) (cl dbVersion : ℤ)
    (site : SiteId) (seq : ℤ) :
    LocalSite id (mergeDelete faults r i pk colname cl dbVersion site seq).2 := by
  apply Outcome.andThen_keeps (LocalSite id) (stepInsync_localSite faults i h _ _)
  intro s hs
  apply Outcome.andThen_keeps (LocalSite id)
    (mergeSetWinnerClock_localSite faults i pk hs colname cl dbVersion site seq)
  exact fun t ht => stepStmt_localSite faults i ht _ _

theorem mergeSentinelOnlyInsert_localSite (h : LocalSite id r) (cl dbVersion : ℤ) (site : SiteId)
    (seq : ℤ) : LocalSite id (mergeSentinelOnlyInsert faults r i pk cl dbVersion site seq).2 := by
  apply Outcome.andThen_keeps (LocalSite id) (stepInsync_localSite faults i h _ _)
  intro s hs
  apply Outcome.andThen_keeps (LocalSite id) (stepVersioned_localSite faults i hs _ dbVersion _)
  exact fun t ht => mergeSetWinnerClock_localSite faults i pk ht _ cl dbVersion site seq

theorem mergeColumn_localSite (h : LocalSite id r) (c : Change n)
    (needsResurrect rowExistsLocally : Bool) :
    LocalSite id (mergeColumn faults r c needsResurrect rowExistsLocally).2 := by
  rw [mergeColumn]
  cases mergeDidCidWin faults r c.tbl c.pk c.colValue c.name c.colVersion with
  | error err => exact h
  | ok flag =>
    dsimp only
    split_ifs
    · rw [Outcome.describe_snd]
      exact mergeInsertCol_localSite faults c.tbl c.pk h c.name c.colValue c.colVersion c.dbVersion
        c.siteId c.seq
    · exact h

theorem cloudsyncMergeInsert_localSite (h : LocalSite id r) (c : Change n) :
    LocalSite id (cloudsyncMergeInsert faults r c).2 := by
  rw [cloudsyncMergeInsert]
  by_cases hgos : (schema c.tbl).algo = .crdtGos
  · rw [if_pos hgos, cloudsyncMergeInsertGos, Outcome.describe_snd]
    exact mergeInsertCol_localSite faults c.tbl c.pk h c.name c.colValue c.colVersion c.dbVersion
      c.siteId c.seq
  rw [if_neg hgos]
  cases faults .localCl with
  | some err => exact h
  | none =>
    dsimp only
    split_ifs
    · exact h
    · exact h
    · exact h
    · rw [Outcome.describe_snd]
      exact mergeDelete_localSite faults c.tbl c.pk h c.name c.colVersion c.dbVersion c.siteId c.seq
    · exact h
    · rw [Outcome.describe_snd]
      exact mergeSentinelOnlyInsert_localSite faults c.tbl c.pk h c.colVersion c.dbVersion c.siteId
        c.seq
    all_goals
      apply Outcome.andThen_keeps (LocalSite id)
      · first
        | exact h
        | rw [Outcome.describe_snd]
          exact mergeSentinelOnlyInsert_localSite faults c.tbl c.pk h c.cl c.dbVersion c.siteId c.seq
      · exact fun s hs => mergeColumn_localSite faults hs c _ _

end

theorem markColumns_siteIds (r : Replica schema) (i : Fin n) (pk : Pk) (dbVersion : ℤ)
    (cols : List (Fin (schema i).ncols)) :
    (markColumns r i pk dbVersion cols).siteIds = r.siteIds := by
  induction cols generalizing r with
  | nil => rfl
  | cons col cols ih => exact ih _

theorem cloudsyncInsert_siteIds (r : Replica schema) (i : Fin n) (pk : Pk) :
    (cloudsyncInsert r i pk).siteIds = r.siteIds := by
  rw [cloudsyncInsert, markColumns_siteIds]
  split_ifs <;> rfl

theorem cloudsyncUpdate_siteIds (r : Replica schema) (i : Fin n) (pk oldpk : Pk)
    (row oldRow : Row (schema i)) :
    (cloudsyncUpdate r i pk oldpk row oldRow).siteIds = r.siteIds := by
  rw [cloudsyncUpdate, markColumns_siteIds]
  split_ifs <;> rfl

theorem applyRowChange_siteIds {r r' : Replica schema} {i : Fin n} {c : RowChange (schema i)}
    (h : applyRowChange r i c = some r') : r'.siteIds = r.siteIds := by
  cases applyRowChange_applied h with
  | insert _ _ _ _ =>
    split_ifs
    · rfl
    · rw [cloudsyncInsert_siteIds]
      rfl
  | update _ _ _ _ _ _ _ =>
    split_ifs
    · rfl
    · rw [cloudsyncUpdate_siteIds]
      rfl
  | delete _ _ _ => split_ifs <;> rfl

end

/-! ## The connection -/

/-- A connection with its transaction, the settings in it and those a rollback goes
back to, and the site id in the context. -/
structure Sender {n : ℕ} (schema : Fin n → TableContext) where
  tx : Transaction schema
  settings : Settings
  saved : Settings
  siteId : SiteId

namespace Sender
variable {n : ℕ} {schema : Fin n → TableContext}

def client (s : Sender schema) : Client schema := ⟨s.tx.live, s.settings, s.siteId⟩

/-- `init` is the part of `cloudsync_init` that concerns the site id, `set` a call of
`cloudsync_set`. -/
inductive Event (schema : Fin n → TableContext) where
  | db (e : Transaction.Event schema)
  | init (uuid : SiteId)
  | set (key : Option String) (value : Option CString)
  | send (d : Reader) (inp : SendInput)

/-- The settings a rollback goes back to, or that are there now when the step commits. -/
def savedAfter (s : Sender schema) : Transaction.Event schema → Settings
  | .commit => s.settings
  | _ => s.saved

/-- The settings after a step of the database. -/
def settingsAfter (s : Sender schema) : Transaction.Event schema → Settings
  | .rollback => s.saved
  | _ => s.settings

/-- `cloudsync_context_init`: the site id is made if its table is missing, and is loaded
unless the context has one. -/
def cloudsyncContextInit (s : Sender schema) (uuid : SiteId) : Sender schema :=
  let live := if s.tx.live.siteIds = [] then { s.tx.live with siteIds := [uuid] } else s.tx.live
  { s with
    tx := { s.tx with live := live }
    siteId := if s.siteId.headD 0 = 0 then live.siteOf 0 else s.siteId }

def step (s : Sender schema) : Event schema → Option (Sender schema)
  | .db e => (s.tx.step e).map fun tx =>
    { s with tx := tx, settings := s.settingsAfter e, saved := s.savedAfter e }
  | .init uuid => some (s.cloudsyncContextInit uuid)
  | .set key value => some { s with settings := dbutilsSettingsSetKeyValue s.settings key value }
  | .send d inp => some { s with
      settings := (s.client.cloudsyncNetworkSendChangesInternal d inp).settings }

/-- A context that has loaded its site id, on a database that holds it: since before
the transaction, or since the extension was installed in it. -/
inductive Started : Sender schema → Prop
  | opened (site : SiteId) (settings : Settings) :
    Started ⟨Transaction.opened schema site, settings, settings, site⟩
  | installed (site : SiteId) (settings : Settings) :
    Started ⟨⟨Replica.empty schema site, { Replica.empty schema site with siteIds := [] }, false⟩,
      settings, Keyed.empty, site⟩

/-- A rollback leads to a database that has the site id of the context. -/
def KeepsSite (s : Sender schema) : Event schema → Prop
  | .db .rollback => LocalSite s.siteId s.tx.saved
  | _ => True

def Identified (s : Sender schema) : Prop := LocalSite s.siteId s.tx.live

section
variable {s : Sender schema}

theorem Identified.db (hs : s.Identified) {e : Transaction.Event schema}
    (hallowed : s.KeepsSite (.db e)) {tx : Transaction schema} (h : s.tx.step e = some tx) :
    LocalSite s.siteId tx.live := by
  cases e with
  | write i c =>
    rcases Option.map_eq_some_iff.mp h with ⟨r, hr, rfl⟩
    rw [LocalSite, applyRowChange_siteIds hr]
    exact hs
  | merge c =>
    cases h
    exact cloudsyncMergeInsert_localSite noFaults hs c
  | commit =>
    cases h
    exact hs
  | rollback =>
    cases h
    exact hallowed

theorem Identified.init (hs : s.Identified) (uuid : SiteId) :
    (s.cloudsyncContextInit uuid).Identified := by
  have hne : s.tx.live.siteIds ≠ [] := by
    intro hnil
    rw [Identified, LocalSite, hnil] at hs
    cases hs
  rw [cloudsyncContextInit, if_neg hne, hs.siteOf, ite_self]
  exact hs

/-- The context keeps the site id that is stored in every run whose rollbacks keep it. -/
theorem identified_of_reachable (h : Reachable step Started KeepsSite s) : s.Identified := by
  apply h.invariant
  · intro s hs
    cases hs <;> rfl
  · intro s e t hs hallowed ht
    cases e with
    | db e =>
      rcases Option.map_eq_some_iff.mp ht with ⟨tx, htx, rfl⟩
      exact hs.db hallowed htx
    | init uuid =>
      cases ht
      exact hs.init uuid
    | set key value =>
      cases ht
      exact hs
    | send d inp =>
      cases ht
      exact hs

end
end Sender
end SqliteSync.Network
