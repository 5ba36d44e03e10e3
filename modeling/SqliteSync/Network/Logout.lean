import SqliteSync.Config.Missing
import SqliteSync.Library.Like
import SqliteSync.Network.StoredCursor
import SqliteSync.Store.Local

/-!
# Logging out

`cloudsync_network_logout` keeps the rows of `cloudsync_table_settings`, takes the
extension off the database with `cloudsync_cleanup('*')`, and then empties and
initialises each table that had an `algo` row. The cleanup finds its tables by
patterns on their names, so a table may go through the second part with its triggers
and its metadata in place.

The context of the connection is initialised and its statements are prepared, so that a
call of `cloudsync_init` that fails says so. Statements whose result the code does not look
at are taken to succeed.
-/
namespace SqliteSync.Network
open Library Store Config

/-- The delete trigger of a table: it records the deletion, or forbids it. -/
inductive DeleteTrigger where
  | record
  | prohibit
deriving DecidableEq

/-- A connection and its database: the tables with what the context and the schema have of
each, the algorithm in its context, its metadata table, and its delete trigger; and the
settings, `none` when their tables are dropped. -/
structure Connection {n : ℕ} (schema : Fin n → TableContext) where
  replica : Replica schema
  registered : Fin n → Option TableAlgo
  metatable : Fin n → Bool
  deleteTrigger : Fin n → Option DeleteTrigger
  stored : Option (Settings × TableSettings)

/-- How a call of `cloudsync_init` goes: its checks and statements, the site id and the
schema version it stores, what the stack holds, and the delete trigger it makes. -/
structure InitCall where
  sanity : Except String Unit
  context : Bool
  siteId : SiteId
  schemaVersion : ℤ
  alloc : Bool
  stack : List UInt8
  trigger : Option DeleteTrigger
  metatable : Bool
  stmts : Bool
  addable : Bool
  refill : Bool

/-- How a logout goes: whether the settings can be read and a savepoint opened, and for
each table whether its metadata can be dropped and its rows deleted, and for each row
whether the database version can be read when its deletion is recorded. -/
structure LogoutInput (n : ℕ) where
  snapshot : Bool
  savepoint : Bool
  drop : Fin n → Bool
  delete : Fin n → Bool
  version : Fin n → Pk → Bool
  init : Fin n → InitCall

/-- Every statement succeeds; the site id is new. -/
def InitCall.sound (siteId : SiteId) : InitCall :=
  ⟨.ok (), true, siteId, 1, true, [], some .record, true, true, true, true⟩

def LogoutInput.sound (n : ℕ) (siteId : SiteId) : LogoutInput n :=
  ⟨true, true, fun _ => true, fun _ => true, fun _ _ => true, fun _ => .sound siteId⟩

/-- `name NOT LIKE 'cloudsync_%' AND name NOT LIKE '%_cloudsync'` fails. -/
def skipped (name : String) : Bool :=
  like "cloudsync_%".toList name.toList || like "%_cloudsync".toList name.toList

def dbutilsIsStarTable (tableName : List Char) : Bool := tableName == ['*']

/-- The rows `dbutils_settings_init` puts into a new `cloudsync_settings`. -/
def initialSettings (schemaVersion : ℤ) : Settings :=
  dbutilsSettingsSetKeyValue
    (dbutilsSettingsSetKeyValue Keyed.empty (some CLOUDSYNC_KEY_LIBVERSION) (some (ascii "0.8.12")))
    (some "schemaversion") (some (printInt schemaVersion))

namespace Connection
variable {n : ℕ} {schema : Fin n → TableContext} (name : Fin n → String) (x : Connection schema)

/-! ## Cleaning up -/

def cloudsyncCleanupInternal (i : Fin n) (drop : Bool) : Outcome (Connection schema) :=
  if x.registered i = none then (.ok (), x)
  else
    let x := { x with registered := Function.update x.registered i none }
    if drop then
      (.ok (), { x with
        replica := x.replica.setTable i { x.replica.table i with metadata := Keyed.empty }
        metatable := Function.update x.metatable i false
        deleteTrigger := Function.update x.deleteTrigger i none
        stored := x.stored.map fun s =>
          (s.1, dbutilsTableSettingsSetKeyValue s.2 ⟨some (name i), none, none, none⟩) })
    else
      (.error ("Unable to drop cloudsync table " ++ name i ++ "_cloudsync in cloudsync_cleanup."),
        x)

/-- The loop of `cloudsync_cleanup_all`, which goes on after an error. -/
def cleanupEach (drop : Fin n → Bool) :
    Connection schema → List (Fin n) → Outcome (Connection schema)
  | x, [] => (.ok (), x)
  | x, i :: tables =>
    let y := x.cloudsyncCleanupInternal name i (drop i)
    let z := cleanupEach drop y.2 tables
    match z.1 with
    | .ok () => (y.1, z.2)
    | .error err => (.error err, z.2)

/-- The tables `cloudsync_cleanup_all` finds. -/
def cleanupTables : List (Fin n) := (List.finRange n).filter fun i => !skipped (name i)

/-- `cloudsync_cleanup('*')`. When it finds no table it only prints a message. -/
def cloudsyncCleanupAll (drop : Fin n → Bool) : Outcome (Connection schema) :=
  if cleanupTables name = [] then (.ok (), x)
  else
    (cleanupEach name drop x (cleanupTables name)).andThen fun x =>
      (.ok (), { x with replica := { x.replica with siteIds := [] }, stored := none })

/-! ## Emptying a table -/

/-- `cloudsync_delete`. Where `db_version_rerun` fails, as it may when the settings are
gone, the -1 of `db_version_next` is taken for a version. -/
def recordDelete (version : Bool) (r : Replica schema) (i : Fin n) (pk : Pk) : Replica schema :=
  if version then cloudsyncDelete r i pk
  else
    let r := { r with data := { r.data with dataVersion := r.view.dataVersion } }
    localDropMeta (withSeq r fun r seq => localMarkDeleteMeta r i pk (-1) seq) i pk

/-- One row of a `DELETE`, with the trigger of its table. -/
def deleteRow (i : Fin n) (version : Pk → Bool) (r : Replica schema) (pk : Pk) :
    Option (Replica schema) :=
  let written := r.setTable i ((r.table i).realMergeDelete pk)
  match x.deleteTrigger i with
  | none => some written
  | some .prohibit => if x.registered i ≠ none ∧ r.enabled i = true then none else some written
  | some .record =>
    if r.data.insync = true then some written
    else if x.registered i = none then none
    else if r.enabled i = false then some written
    else if x.metatable i = false then none
    else some (recordDelete (version pk) written i pk)

/-- `DELETE FROM`. -/
def deleteFrom (i : Fin n) (delete : Bool) (version : Pk → Bool) : Outcome (Connection schema) :=
  if delete then
    match ((x.replica.table i).base.rows.map Prod.fst).foldlM (x.deleteRow i version) x.replica with
    | some r => (.ok (), { x with replica := r })
    | none => (.error "operation is not allowed", x)
  else (.error "unable to delete", x)

/-! ## Initialising a table again -/

/-- `cloudsync_context_init`, in a context that has forgotten its site id when the
settings are gone. -/
def cloudsyncContextInit (inp : InitCall) : Outcome (Connection schema) :=
  match x.stored with
  | some _ => (.ok (), x)
  | none =>
    if inp.context then
      (.ok (), { x with
        replica := { x.replica with siteIds := [inp.siteId] }
        stored := some (initialSettings inp.schemaVersion, Keyed.empty) })
    else (.error "unable to create table", x)

/-- `table_add_to_context`; the statements of a new table need its metadata table. -/
def tableAddToContext (i : Fin n) (algo : TableAlgo) (addable : Bool) :
    Outcome (Connection schema) :=
  if x.registered i ≠ none then (.ok (), x)
  else if addable && x.metatable i then
    (.ok (), { x with
      replica := x.replica.setEnabled i true
      registered := Function.update x.registered i (some algo) })
  else (.error "An error occurred while adding table information to global context", x)

/-- `cloudsync_refill_metatable`: it inserts nothing when the table has no rows, and does
what `fill` does otherwise. -/
def cloudsyncRefillMetatable (fill : Fin n → Replica schema → Replica schema) (i : Fin n) :
    Connection schema :=
  if (x.replica.table i).base.rows = [] then x else { x with replica := fill i x.replica }

def cloudsyncInitInternal (fill : Fin n → Replica schema → Replica schema) (i : Fin n)
    (tableName : String) (algoName : CString) (inp : InitCall) : Outcome (Connection schema) :=
  match inp.sanity with
  | .error err => (.error err, x)
  | .ok () =>
    (x.cloudsyncContextInit inp).andThen fun x =>
      match x.stored with
      | none => (.error "no such table: cloudsync_table_settings", x)
      | some (settings, tableSettings) =>
        match initAlgo tableSettings tableName (some algoName) inp.alloc inp.stack with
        | .error err => (.error err, x)
        | .ok (algo, tableSettings) =>
          let x := { x with
            stored := some (settings, tableSettings)
            deleteTrigger := Function.update x.deleteTrigger i ((x.deleteTrigger i).or inp.trigger)
            metatable := Function.update x.metatable i (x.metatable i || inp.metatable) }
          if inp.stmts then
            (x.tableAddToContext i algo inp.addable).andThen fun x =>
              if inp.refill then (.ok (), x.cloudsyncRefillMetatable fill i)
              else (.error "An error occurred while trying to fill the augmented table.", x)
          else (.error "An error occurred while trying to compile prepared SQL statements.", x)

/-! ## Logging out -/

def tableOf (table : List Char) : Option (Fin n) :=
  (List.finRange n).find? fun i => lowered (name i) == table

/-- The algorithm of a row as `%q` prints it into a call. -/
def algoPrinted (setting : TableSetting) : CString :=
  stringAt (setting.value.getD (ascii "(NULL)"))

/-- How the two functions that are not followed here go on: the refill of a table with
rows, and `cloudsync_init('*', algo, 1)`. -/
structure Unfollowed (schema : Fin n → TableContext) where
  fill : Fin n → Replica schema → Replica schema
  initAll : CString → Connection schema → Outcome (Connection schema)

/-- One round of the loop over the rows `tbl_name, key, value` of the settings. -/
def logoutRow (rest : Unfollowed schema) (inp : LogoutInput n)
    (row : (List Char × String) × TableSetting) : Outcome (Connection schema) :=
  if row.1.2 ≠ "algo" then (.ok (), x)
  else
    match tableOf name row.1.1 with
    | none =>
      (.error ("Unable to delete data from table " ++ row.2.tblName ++ ". no such table: " ++
        row.2.tblName), x)
    | some i =>
      ((x.deleteFrom i (inp.delete i) (inp.version i)).describe
          ("Unable to delete data from table " ++ row.2.tblName ++ ". ")).andThen fun x =>
        (if dbutilsIsStarTable row.1.1 then rest.initAll (algoPrinted row.2) x
          else x.cloudsyncInitInternal rest.fill i row.2.tblName (algoPrinted row.2)
            (inp.init i)).describe
          ("Unable to enable cloudsync on table " ++ row.2.tblName ++ ". ")

def logoutEach (rest : Unfollowed schema) (inp : LogoutInput n) :
    Connection schema → List ((List Char × String) × TableSetting) → Outcome (Connection schema)
  | x, [] => (.ok (), x)
  | x, row :: rows => (x.logoutRow name rest inp row).andThen fun x => logoutEach rest inp x rows

/-- `ROLLBACK TO` a state of the database; what is in the context stays. -/
def rollbackTo (y : Connection schema) : Connection schema :=
  { x with
    replica := { x.replica with data := y.replica.data, enabled := y.replica.enabled }
    registered := y.registered }

/-- `cloudsync_network_logout`. It returns without an error when it has no savepoint. -/
def cloudsyncNetworkLogout (rest : Unfollowed schema) (inp : LogoutInput n) :
    Outcome (Connection schema) :=
  match x.stored with
  | none => (.error ("Unable to get current cloudsync configuration. no such table: " ++
      "cloudsync_table_settings"), x)
  | some (_, tableSettings) =>
    if inp.snapshot = false then (.error "Unable to get current cloudsync configuration. ", x)
    else if inp.savepoint = false then (.ok (), x)
    else
      let y := ((x.cloudsyncCleanupAll name inp.drop).describe
          "Unable to cleanup current cloudsync configuration. ").andThen fun y =>
        logoutEach name rest inp y tableSettings.rows
      match y.1 with
      | .ok () => y
      | .error err => (.error err, x.rollbackTo y.2)

/-! ## What a logout is for -/

/-- The row of a table under the key `algo`. -/
def algoSetting (table : List Char) : Option TableSetting :=
  x.stored.bind fun s => s.2.get (table, "algo")

def algoStored (i : Fin n) : Option TableAlgo :=
  (x.algoSetting (lowered (name i))).map fun setting => crdtAlgoFromName (algoPrinted setting)

/-- The table is synchronised under an algorithm: that of the context, or that of the
settings where another connection has augmented it. -/
structure Augmented (i : Fin n) (algo : TableAlgo) : Prop where
  metatable : x.metatable i = true
  algo : x.registered i = some algo ∨ x.registered i = none ∧ x.algoStored name i = some algo

/-- A cursor, as it is read from the settings, zero when their table is gone. -/
def cursor (d : Reader) (key : String) : ℤ :=
  match x.stored with
  | none => 0
  | some (settings, _) => d.int settings key

end Connection

def BaseEmpty {table : TableContext} (t : Table table) : Prop := t.base.rows = []

def MetaEmpty {table : TableContext} (t : Table table) : Prop := t.metadata.rows = []

def cursorKeys : List String :=
  [CLOUDSYNC_KEY_SEND_DBVERSION, CLOUDSYNC_KEY_SEND_SEQ, CLOUDSYNC_KEY_CHECK_DBVERSION,
    CLOUDSYNC_KEY_CHECK_SEQ]

/-- What was synchronised in `x` is empty in `y`, data and metadata, and synchronised
again, and the cursors start over. -/
structure LeavesNoTrace {n : ℕ} {schema : Fin n → TableContext} (name : Fin n → String)
    (d : Reader) (x y : Connection schema) : Prop where
  base : ∀ i algo, x.Augmented name i algo → BaseEmpty (y.replica.table i)
  metadata : ∀ i algo, x.Augmented name i algo → MetaEmpty (y.replica.table i)
  augmented : ∀ i algo, x.Augmented name i algo → y.Augmented name i algo
  cursors : ∀ key ∈ cursorKeys, y.cursor d key = 0

end SqliteSync.Network
