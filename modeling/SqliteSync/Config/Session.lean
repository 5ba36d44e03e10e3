import SqliteSync.Library.Run
import SqliteSync.Store.Replica

/-!
# The configuration of a connection

What the database stores about the synchronised tables, what the context of a
connection keeps of it in memory, and the functions that change both: a
rollback undoes what they did to the database, and leaves the context alone.
Names of tables are compared with the case ignored, so they are any type here.
-/
namespace SqliteSync.Config
open Library Store

/-- The `UUID_LEN` bytes of a site id. -/
structure Uuid where
  first : UInt8
  rest : Fin 15 → UInt8
deriving DecidableEq

namespace Uuid

/-- `site_id[0] != 0`. -/
def IsSet (id : Uuid) : Prop := id.first ≠ 0

instance (id : Uuid) : Decidable id.IsSet := inferInstanceAs (Decidable (_ ≠ _))

def cleared (id : Uuid) : Uuid := { id with first := 0 }

/-- The site id of a zero-allocated context. -/
def zero : Uuid := ⟨0, fun _ => 0⟩

theorem not_isSet_cleared (id : Uuid) : ¬ id.cleared.IsSet := fun h => h rfl

theorem not_isSet_zero : ¬ zero.IsSet := fun h => h rfl

end Uuid

/-- The tables of the extension, `none` where a table is missing: row 0 of
`cloudsync_site_id`, the `algo` rows of `cloudsync_table_settings`, the hashes
of `cloudsync_schema_versions` in the order of `seq`; and the SQL of the tables
of the user, in lower case and by name. -/
structure Db (ι : Type) where
  siteId : Option (Option Uuid)
  algos : Option (ι → Option TableAlgo)
  schemaVersions : Option (List UInt64)
  schema : List (ι × String)

/-- The configuration in `cloudsync_context`: the site id, the registered tables
with whether their `pk_name` is set, and the hash of the schema. -/
structure Context (ι : Type) where
  siteId : Uuid
  tables : ι → Option Bool
  schemaHash : UInt64

inductive Savepoint where
  | transaction
  | cloudsyncInit
  | cloudsyncAlter
deriving DecidableEq

/-- A connection: its database, its context, the open savepoints with what the
database held when they were opened, innermost first, and what each call of
`cloudsync_context_init` that did not fail returned, with what row 0 of
`cloudsync_site_id` held then. -/
structure Session (ι : Type) where
  db : Db ι
  data : Context ι
  saves : List (Savepoint × Db ι)
  returned : List (Uuid × Option (Option Uuid))

/-- How the statements of `cloudsync_context_init` go: whether the settings, the
new site id and the other tables can be written, which tables can be added to
the context, and whether the statements of the context can be prepared. -/
structure ContextInput (ι : Type) where
  settings : Bool
  uuid : Option Uuid
  tables : Bool
  addable : ι → Bool
  stmts : Bool

/-- A call of `cloudsync_init_internal`: its arguments, and how the checks and
the statements it runs go. Whether the algorithm is `written` to the settings is
not looked at. -/
structure InitInput (ι : Type) where
  table : ι
  algo : TableAlgo
  sanity : Except String Unit
  context : ContextInput ι
  written : Bool
  stmts : Bool
  addable : Bool
  refill : Bool

/-- A call of `cloudsync_cleanup_internal`. Whether the settings of the table are
deleted is not looked at. -/
structure CleanupInput (ι : Type) where
  table : ι
  context : ContextInput ι
  drop : Bool
  deleted : Bool

/-- A table met by `cloudsync_init_all`, with the cleanup made if it fails. -/
structure InitAllRow (ι : Type) extends InitInput ι where
  cleanupContext : ContextInput ι
  cleanupDrop : Bool
  cleanupDeleted : Bool

def InitAllRow.cleanup {ι : Type} (row : InitAllRow ι) : CleanupInput ι :=
  ⟨row.table, row.cleanupContext, row.cleanupDrop, row.cleanupDeleted⟩

/-- A table, or `*` with the tables the query finds. -/
inductive InitTarget (ι : Type) where
  | one (inp : InitInput ι)
  | all (rows : List (InitAllRow ι))

/-- The wildcard goes with how many statements of `dbutils_settings_cleanup` are
carried out. -/
inductive CleanupTarget (ι : Type) where
  | one (inp : CleanupInput ι)
  | all (rows : List (CleanupInput ι)) (drops : ℕ)

/-- Whether a savepoint can be opened, and released, which may be a commit; and, where
the call has to roll it back, whether it can be released then. -/
structure SavepointInput where
  opened : Bool
  released : Bool
  releasedAfter : Bool

def SavepointInput.succeeds : SavepointInput := ⟨true, true, true⟩

structure BeginAlterInput (ι : Type) where
  table : ι
  context : ContextInput ι
  opened : Bool
  primaryKeys : Bool
  releasedAfter : Bool

structure CommitAlterInput (ι : Type) where
  table : ι
  context : ContextInput ι
  finalize : Bool
  init : InitInput ι
  released : Bool
  releasedAfter : Bool

namespace Db
variable {ι : Type} (db : Db ι)

/-- The `algo` row of a table. -/
def algo (t : ι) : Option TableAlgo := db.algos.bind fun algos => algos t

/-- `dbutils_table_settings_get_algo`. -/
def getAlgo (t : ι) : TableAlgo := (db.algo t).getD .none

/-- `dbutils_schema_hash`. -/
def schemaHash : UInt64 := (db.schemaVersions.bind List.getLast?).getD 0

/-- `group_concat(LOWER(sql))` over the tables in the settings. -/
def schemaText : Option String :=
  match db.schema.filter fun t => (db.algo t.1).isSome with
  | [] => none
  | tables => some (String.intercalate "," (tables.map Prod.snd))

end Db

namespace Session
variable {ι : Type} [DecidableEq ι] (hash : String → UInt64) (s : Session ι)

/-- `dbutils_settings_load`: the tables of the settings join the context. -/
def dbutilsSettingsLoad (inp : ContextInput ι) : Session ι :=
  { s with
    data := { s.data with
      tables := fun t => (s.data.tables t).or
        (if (s.db.algo t).isSome ∧ inp.addable t then some false else none) } }

/-- The table `cloudsync_site_id` is created before its row. -/
def createSiteId (inp : ContextInput ι) : Outcome (Session ι) :=
  match s.db.siteId with
  | some _ => (.ok (), s)
  | none =>
    match inp.uuid with
    | none =>
      (.error "Unable to create UUIDv7 site_id", { s with db := { s.db with siteId := some none } })
    | some id => (.ok (), { s with db := { s.db with siteId := some (some id) } })

def dbutilsSettingsInit (inp : ContextInput ι) : Outcome (Session ι) :=
  if inp.settings then
    (s.createSiteId inp).andThen fun s =>
      if inp.tables then
        (.ok (), dbutilsSettingsLoad { s with
          db := { s.db with
            algos := some (s.db.algos.getD fun _ => none)
            schemaVersions := some (s.db.schemaVersions.getD []) } } inp)
      else (.error "unable to create table", s)
  else (.error "unable to create table", s)

/-- `cloudsync_load_siteid`; a missing row is no error. -/
def cloudsyncLoadSiteid : Session ι :=
  if s.data.siteId.IsSet then s
  else
    match s.db.siteId with
    | some (some id) => { s with data := { s.data with siteId := id } }
    | _ => s

def cloudsyncContextInit (inp : ContextInput ι) : Outcome (Session ι) :=
  let x : Outcome (Session ι) :=
    if ¬ s.data.siteId.IsSet ∨ s.db.siteId = none then
      (s.dbutilsSettingsInit inp).andThen fun s =>
        if inp.stmts then
          let s := s.cloudsyncLoadSiteid
          (.ok (), { s with data := { s.data with schemaHash := s.db.schemaHash } })
        else (.error "unable to prepare statements", s)
    else (.ok (), s)
  x.andThen fun s => (.ok (), { s with returned := (s.data.siteId, s.db.siteId) :: s.returned })

/-- `dbutils_table_settings_set_key_value` with the key `algo`. -/
def setAlgo (t : ι) (algo : Option TableAlgo) : Session ι :=
  { s with db := { s.db with algos := s.db.algos.map fun algos => Function.update algos t algo } }

def setTable (t : ι) (table : Option Bool) : Session ι :=
  { s with data := { s.data with tables := Function.update s.data.tables t table } }

/-- The settings agree with the algorithm of the call, or are written. -/
def checkAlgo (inp : InitInput ι) : Outcome (Session ι) :=
  if inp.algo = .none then (.error "algo name does not exist", s)
  else if inp.algo = s.db.getAlgo inp.table then (.ok (), s)
  else if s.db.getAlgo inp.table = .none then
    (.ok (), if inp.written then s.setAlgo inp.table (some inp.algo) else s)
  else (.error "Before changing a table algorithm you must call cloudsync_cleanup(table_name)", s)

def tableAddToContext (inp : InitInput ι) : Outcome (Session ι) :=
  if s.data.tables inp.table ≠ none then (.ok (), s)
  else if inp.addable then (.ok (), s.setTable inp.table (some false))
  else (.error "An error occurred while adding table information to global context", s)

def cloudsyncInitInternal (inp : InitInput ι) : Outcome (Session ι) :=
  match inp.sanity with
  | .error err => (.error err, s)
  | .ok () =>
    (s.cloudsyncContextInit inp.context).andThen fun s =>
      (s.checkAlgo inp).andThen fun s =>
        if inp.stmts then
          (s.tableAddToContext inp).andThen fun s =>
            if inp.refill then (.ok (), s)
            else (.error "An error occurred while trying to fill the augmented table.", s)
        else (.error "An error occurred while trying to compile prepared SQL statements.", s)

def cloudsyncCleanupInternal (inp : CleanupInput ι) : Outcome (Session ι) :=
  (s.cloudsyncContextInit inp.context).andThen fun s =>
    if s.data.tables inp.table = none then (.ok (), s)
    else
      let s := s.setTable inp.table none
      if inp.drop then (.ok (), if inp.deleted then s.setAlgo inp.table none else s)
      else (.error "Unable to drop cloudsync table", s)

def cloudsyncInitAll : Session ι → List (InitAllRow ι) → Outcome (Session ι)
  | s, [] => (.ok (), s)
  | s, row :: rows =>
    match s.cloudsyncInitInternal row.toInitInput with
    | (.ok (), s) => cloudsyncInitAll s rows
    | (.error err, s) => (.error err, (s.cloudsyncCleanupInternal row.cleanup).2)

/-- `dbutils_update_schema_hash`; a write that fails leaves the context alone as well. -/
def dbutilsUpdateSchemaHash : Session ι :=
  match s.db.schemaText with
  | none => s
  | some text =>
    if s.data.schemaHash = hash text then s
    else
      match s.db.schemaVersions with
      | none => s
      | some hashes =>
        { s with
          db := { s.db with
            schemaVersions := some ((hashes.filter fun h => h ≠ hash text) ++ [hash text]) }
          data := { s.data with schemaHash := hash text } }

/-- The call inside the savepoint `cloudsync_init`. -/
def initTarget : InitTarget ι → Outcome (Session ι)
  | .one inp => s.cloudsyncInitInternal inp
  | .all rows => cloudsyncInitAll s rows

/-- `ROLLBACK TO cloudsync_init; RELEASE cloudsync_init`, from `t` to what `s` held. -/
def rollbackInit (t : Session ι) (released : Bool) : Session ι :=
  { t with
    db := s.db
    saves := if released then s.saves else (.cloudsyncInit, s.db) :: s.saves }

def cloudsyncInit (target : InitTarget ι) (sp : SavepointInput) : Outcome (Session ι) :=
  if sp.opened = false then (.error "Unable to create cloudsync_init savepoint.", s)
  else
    match s.initTarget target with
    | (.ok (), t) =>
      if sp.released then (.ok (), dbutilsUpdateSchemaHash hash t)
      else
        (.error "Unable to release cloudsync_init savepoint.", s.rollbackInit t sp.releasedAfter)
    | (.error err, t) => (.error err, s.rollbackInit t sp.releasedAfter)

/-- The loop of `cloudsync_cleanup_all`, with whether every table was cleaned up. -/
def cleanupEach : Session ι → List (CleanupInput ι) → Bool × Session ι
  | s, [] => (true, s)
  | s, row :: rows =>
    match s.cloudsyncCleanupInternal row with
    | (.ok (), s) => cleanupEach s rows
    | (.error _, s) => (false, (cleanupEach s rows).2)

/-- `dbutils_settings_cleanup`: the tables of the extension are dropped one after the
other, `cloudsync_settings` first. -/
def dbutilsSettingsCleanup (db : Db ι) (drops : ℕ) : Db ι :=
  { db with
    siteId := if 2 ≤ drops then none else db.siteId
    algos := if 3 ≤ drops then none else db.algos
    schemaVersions := if 4 ≤ drops then none else db.schemaVersions }

/-- A query that finds no table has no column, which is taken for an error. -/
def cloudsyncCleanupAll (rows : List (CleanupInput ι)) (drops : ℕ) : Session ι :=
  if rows.isEmpty then s
  else
    match cleanupEach s rows with
    | (true, s) =>
      { s with
        db := dbutilsSettingsCleanup s.db drops
        data := { s.data with siteId := s.data.siteId.cleared } }
    | (false, s) => s

def cleanupTarget : CleanupTarget ι → Session ι
  | .one inp => (s.cloudsyncCleanupInternal inp).2
  | .all rows drops => s.cloudsyncCleanupAll rows drops

def cloudsyncCleanup (target : CleanupTarget ι) : Session ι :=
  let s := s.cleanupTarget target
  if s.db.algos = none then s else dbutilsUpdateSchemaHash hash s

def cloudsyncTerminate : Session ι :=
  { s with
    data := { s.data with tables := fun _ => none, siteId := s.data.siteId.cleared } }

/-- The savepoints from the innermost `cloudsync_alter` outwards. -/
def alterSaves : List (Savepoint × Db ι) :=
  s.saves.dropWhile fun save => save.1 ≠ .cloudsyncAlter

/-- `ROLLBACK TO cloudsync_alter; RELEASE cloudsync_alter`. -/
def rollbackAlter (released : Bool) : Session ι :=
  match s.alterSaves with
  | [] => s
  | save :: saves => { s with db := save.2, saves := if released then saves else save :: saves }

/-- `RELEASE cloudsync_alter`; without such a savepoint it fails. -/
def releaseAlter (released : Bool) : Option (Session ι) :=
  match s.alterSaves with
  | [] => none
  | _ :: saves => if released then some { s with saves := saves } else none

def cloudsyncBeginAlter (inp : BeginAlterInput ι) : Outcome (Session ι) :=
  (s.cloudsyncContextInit inp.context).andThen fun s =>
    if inp.opened = false then
      (.error "Unable to create cloudsync_alter savepoint.", s.rollbackAlter inp.releasedAfter)
    else
      let s := { s with saves := (.cloudsyncAlter, s.db) :: s.saves }
      if s.data.tables inp.table = none then
        (.error "Unable to find table", s.rollbackAlter inp.releasedAfter)
      else if inp.primaryKeys then (.ok (), s.setTable inp.table (some true))
      else (.error "Unable to get primary keys for table", s.rollbackAlter inp.releasedAfter)

/-- `crdt_algo_name` of the stored algorithm, `cls` when there is none. -/
def currentAlgo (t : ι) : TableAlgo :=
  if s.db.getAlgo t = .none then .crdtCls else s.db.getAlgo t

/-- What `cloudsync_commit_alter` does before it releases its savepoint. -/
def reloadTable (inp : CommitAlterInput ι) : Outcome (Session ι) :=
  if s.data.tables inp.table ≠ some true then (.error "Unable to find table context.", s)
  else if inp.finalize then
    cloudsyncInitInternal (s.setTable inp.table none)
      { inp.init with table := inp.table, algo := s.currentAlgo inp.table }
  else (.error "unable to finalize the table", s.setTable inp.table (some false))

def cloudsyncCommitAlter (inp : CommitAlterInput ι) : Outcome (Session ι) :=
  match (s.cloudsyncContextInit inp.context).andThen fun s => s.reloadTable inp with
  | (.error err, s) => (.error err, s.rollbackAlter inp.releasedAfter)
  | (.ok (), s) =>
    match s.releaseAlter inp.released with
    | none => (.error "cannot release savepoint cloudsync_alter", s.rollbackAlter inp.releasedAfter)
    | some s => (.ok (), dbutilsUpdateSchemaHash hash s)

/-- `BEGIN`, which fails inside a transaction. -/
def begin : Session ι :=
  if s.saves = [] then { s with saves := [(.transaction, s.db)] } else s

def commit : Session ι := { s with saves := [] }

/-- `ROLLBACK`, to what the database held when the outermost savepoint was opened. -/
def rollback : Session ι :=
  match s.saves.getLast? with
  | none => s
  | some save => { s with db := save.2, saves := [] }

inductive Event (ι : Type) where
  | begin
  | commit
  | rollback
  | contextInit (inp : ContextInput ι)
  | init (target : InitTarget ι) (sp : SavepointInput)
  | cleanup (target : CleanupTarget ι)
  | terminate
  | beginAlter (inp : BeginAlterInput ι)
  | commitAlter (inp : CommitAlterInput ι)
  | alterSchema (schema : List (ι × String))

def step (s : Session ι) : Event ι → Option (Session ι)
  | .begin => some s.begin
  | .commit => some s.commit
  | .rollback => some s.rollback
  | .contextInit inp => some (s.cloudsyncContextInit inp).2
  | .init target sp => some (s.cloudsyncInit hash target sp).2
  | .cleanup target => some (s.cloudsyncCleanup hash target)
  | .terminate => some s.cloudsyncTerminate
  | .beginAlter inp => some (s.cloudsyncBeginAlter inp).2
  | .commitAlter inp => some (s.cloudsyncCommitAlter hash inp).2
  | .alterSchema schema => some { s with db := { s.db with schema := schema } }

/-- A connection that has just loaded the extension, which initialises the
context of a database that was configured before. -/
def opened (db : Db ι) (inp : ContextInput ι) : Session ι :=
  let s : Session ι := ⟨db, ⟨.zero, fun _ => none, 0⟩, [], []⟩
  if db.siteId = none then s else (s.cloudsyncContextInit inp).2

/-- `cloudsync_context_init` returns a site id. -/
def ContextInits (inp : ContextInput ι) : Prop :=
  s.data.siteId.IsSet ∧ s.db.siteId ≠ none ∨
    inp.settings ∧ (s.db.siteId ≠ none ∨ inp.uuid ≠ none) ∧ inp.tables ∧ inp.stmts

/-- The checks and the statements of `cloudsync_init_internal` succeed. -/
structure Completes (inp : InitInput ι) : Prop where
  sanity : inp.sanity = .ok ()
  context : s.ContextInits inp.context
  algo : inp.algo ≠ .none
  current : s.db.getAlgo inp.table = .none ∨ inp.algo = s.db.getAlgo inp.table
  stmts : inp.stmts
  addable : s.data.tables inp.table ≠ none ∨ inp.addable
  refill : inp.refill

/-- So do those of `cloudsync_init_all`, table after table. -/
def CompletesAll : Session ι → List (InitAllRow ι) → Prop
  | _, [] => True
  | s, row :: rows => s.Completes row.toInitInput ∧
      CompletesAll (s.cloudsyncInitInternal row.toInitInput).2 rows

omit [DecidableEq ι] in
theorem createSiteId_fst (inp : ContextInput ι) :
    (s.createSiteId inp).1 = .ok () ↔ s.db.siteId ≠ none ∨ inp.uuid ≠ none := by
  rw [createSiteId]
  cases s.db.siteId <;> cases inp.uuid <;> simp

omit [DecidableEq ι] in
theorem dbutilsSettingsInit_fst (inp : ContextInput ι) :
    (s.dbutilsSettingsInit inp).1 = .ok () ↔
      inp.settings ∧ (s.db.siteId ≠ none ∨ inp.uuid ≠ none) ∧ inp.tables := by
  rw [dbutilsSettingsInit]
  cases inp.settings with
  | false => simp
  | true =>
    rw [if_pos rfl, Outcome.andThen_fst_ok, createSiteId_fst]
    cases inp.tables <;> simp

omit [DecidableEq ι] in
theorem cloudsyncContextInit_fst (inp : ContextInput ι) :
    (s.cloudsyncContextInit inp).1 = .ok () ↔ s.ContextInits inp := by
  rw [cloudsyncContextInit, Outcome.andThen_fst_ok, and_iff_left rfl, ContextInits]
  by_cases hinit : ¬ s.data.siteId.IsSet ∨ s.db.siteId = none
  · have hcached : ¬ (s.data.siteId.IsSet ∧ s.db.siteId ≠ none) := by
      rwa [not_and_or, not_not]
    rw [if_pos hinit, Outcome.andThen_fst_ok, dbutilsSettingsInit_fst, or_iff_right hcached]
    cases inp.stmts <;> simp
  · rw [if_neg hinit]
    rw [not_or, not_not] at hinit
    exact iff_of_true rfl (.inl hinit)

omit [DecidableEq ι] in
theorem cloudsyncLoadSiteid_db : s.cloudsyncLoadSiteid.db = s.db := by
  rw [cloudsyncLoadSiteid]
  split_ifs
  · rfl
  · rcases s.db.siteId with _ | _ | id <;> rfl

omit [DecidableEq ι] in
theorem cloudsyncLoadSiteid_tables : s.cloudsyncLoadSiteid.data.tables = s.data.tables := by
  rw [cloudsyncLoadSiteid]
  split_ifs
  · rfl
  · rcases s.db.siteId with _ | _ | id <;> rfl

omit [DecidableEq ι] in
theorem createSiteId_algo (inp : ContextInput ι) : (s.createSiteId inp).2.db.algo = s.db.algo := by
  rw [createSiteId]
  cases s.db.siteId <;> cases inp.uuid <;> rfl

omit [DecidableEq ι] in
theorem dbutilsSettingsInit_algo (inp : ContextInput ι) :
    (s.dbutilsSettingsInit inp).2.db.algo = s.db.algo := by
  rw [dbutilsSettingsInit]
  cases inp.settings with
  | false => rfl
  | true =>
    rw [if_pos rfl]
    apply Outcome.andThen_keeps (fun t : Session ι => t.db.algo = s.db.algo) (s.createSiteId_algo inp)
    intro t ht
    rw [← ht]
    cases inp.tables with
    | false => rfl
    | true =>
      funext i
      change (some (t.db.algos.getD _)).bind _ = t.db.algos.bind _
      cases t.db.algos <;> rfl

omit [DecidableEq ι] in
theorem cloudsyncContextInit_algo (inp : ContextInput ι) :
    (s.cloudsyncContextInit inp).2.db.algo = s.db.algo := by
  rw [cloudsyncContextInit]
  refine Outcome.andThen_keeps (fun t : Session ι => t.db.algo = s.db.algo) ?_ fun _ h => h
  by_cases hinit : ¬ s.data.siteId.IsSet ∨ s.db.siteId = none
  · rw [if_pos hinit]
    apply Outcome.andThen_keeps (fun t : Session ι => t.db.algo = s.db.algo)
      (s.dbutilsSettingsInit_algo inp)
    intro t ht
    cases inp.stmts with
    | false => exact ht
    | true =>
      change t.cloudsyncLoadSiteid.db.algo = _
      rw [t.cloudsyncLoadSiteid_db, ht]
  · rw [if_neg hinit]

omit [DecidableEq ι] in
theorem createSiteId_data (inp : ContextInput ι) : (s.createSiteId inp).2.data = s.data := by
  rw [createSiteId]
  cases s.db.siteId <;> cases inp.uuid <;> rfl

omit [DecidableEq ι] in
/-- The tables of the settings are registered last: an initialisation that fails
has registered none. -/
theorem dbutilsSettingsInit_cases (inp : ContextInput ι) :
    ((∃ err, (s.dbutilsSettingsInit inp).1 = .error err) ∧
        (s.dbutilsSettingsInit inp).2.data.tables = s.data.tables) ∨
      (s.dbutilsSettingsInit inp).2.data.tables = (s.dbutilsSettingsLoad inp).data.tables := by
  have halgo := s.dbutilsSettingsInit_algo inp
  have hdata := s.createSiteId_data inp
  rw [dbutilsSettingsInit] at halgo ⊢
  cases hsettings : inp.settings with
  | false => exact .inl ⟨⟨_, rfl⟩, rfl⟩
  | true =>
    rw [hsettings, if_pos rfl] at halgo
    rw [if_pos rfl]
    generalize s.createSiteId inp = x at hdata halgo ⊢
    rcases x with ⟨err | ⟨⟩, t⟩
    · exact .inl ⟨⟨_, rfl⟩, congrArg Context.tables hdata⟩
    · cases htables : inp.tables with
      | false => exact .inl ⟨⟨_, rfl⟩, congrArg Context.tables hdata⟩
      | true =>
        rw [htables, Outcome.andThen_ok, if_pos rfl] at halgo
        right
        funext i
        change (t.data.tables i).or (if (Db.algo _ i).isSome ∧ _ then _ else _) = _
        rw [hdata]
        exact congrArg (fun algo => (s.data.tables i).or
          (if (algo i).isSome ∧ inp.addable i then some false else none)) halgo

omit [DecidableEq ι] in
theorem dbutilsSettingsInit_tables (inp : ContextInput ι) :
    (s.dbutilsSettingsInit inp).2.data.tables = s.data.tables ∨
      (s.dbutilsSettingsInit inp).2.data.tables = (s.dbutilsSettingsLoad inp).data.tables :=
  (s.dbutilsSettingsInit_cases inp).imp_left And.right

omit [DecidableEq ι] in
theorem cloudsyncContextInit_tables (inp : ContextInput ι) :
    (s.cloudsyncContextInit inp).2.data.tables = s.data.tables ∨
      (s.cloudsyncContextInit inp).2.data.tables = (s.dbutilsSettingsLoad inp).data.tables := by
  rw [cloudsyncContextInit]
  refine Outcome.andThen_keeps (fun t : Session ι => t.data.tables = s.data.tables ∨
    t.data.tables = (s.dbutilsSettingsLoad inp).data.tables) ?_ fun _ h => h
  by_cases hinit : ¬ s.data.siteId.IsSet ∨ s.db.siteId = none
  · rw [if_pos hinit]
    refine Outcome.andThen_keeps (fun t : Session ι => t.data.tables = s.data.tables ∨
      t.data.tables = (s.dbutilsSettingsLoad inp).data.tables) (s.dbutilsSettingsInit_tables inp)
        fun t ht => ?_
    cases inp.stmts with
    | false => exact ht
    | true =>
      change t.cloudsyncLoadSiteid.data.tables = _ ∨ t.cloudsyncLoadSiteid.data.tables = _
      rwa [t.cloudsyncLoadSiteid_tables]
  · rw [if_neg hinit]
    exact .inl rfl

end Session
end SqliteSync.Config
