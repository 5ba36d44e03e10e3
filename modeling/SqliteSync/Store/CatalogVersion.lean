import SqliteSync.Store.CatalogFeed

/-!
# The query of the clock

`db_version_stmt` takes the maximum over the metadata tables, found by their
names, and over the version `cloudsync_finalize_alter` kept in the settings.
The statement names its tables, and is built again when the schema version has
grown since the context last read it.
-/
namespace SqliteSync.Store
open Library Clock

structure Database {n : ℕ} (schema : Fin n → TableContext) extends Catalog schema where
  schemaVersion : ℤ
  preAlterDbversion : Option ℤ

/-- The fields of `cloudsync_context` the query works on. The statement is the
list of the tables it names. -/
structure QueryContext where
  schemaVersion : ℤ
  dbVersionStmt : Option (List String)
  dbVersion : ℤ

/-- `max(version)` over the maxima of the tables and the setting, which is a
TEXT: a TEXT is above every INTEGER, and NULLs do not count. -/
def maxVersion (maxima : List ℤ) (setting : Option ℤ) : Option ℤ :=
  match setting with
  | some v => some v
  | none => maxima.max?

namespace Database
variable {n : ℕ} {schema : Fin n → TableContext} (db : Database schema)

/-- The tables of `sqlite_master`, with their column `db_version`. -/
def versionTables : List (String × Option (List ℤ)) :=
  ((List.finRange n).map fun i => (db.metaName i, some (db.replica.table i).dbVersions)) ++
    db.others.map fun u => (u.name, u.dbVersions)

/-- `max(db_version)` reads the table of this name, case ignored. -/
def tableVersions (name : String) : Option (List ℤ) :=
  (db.versionTables.find? fun t => lowered t.1 == lowered name).bind Prod.snd

/-- A statement over these tables can be prepared. -/
def Preparable (names : List String) : Prop :=
  names ≠ [] ∧ ∀ name ∈ names, db.tableVersions name ≠ none

instance (names : List String) : Decidable (db.Preparable names) :=
  inferInstanceAs (Decidable (_ ∧ _))

/-- `db_version_build_query`. SQLite refuses a compound SELECT of more than 500
terms, so past 500 metadata tables it prepares nothing; fewer are assumed. -/
def dbVersionBuildQuery : List String :=
  (db.versionTables.filter fun t => likeCloudsync t.1).map Prod.fst

def dbVersionRebuildStmt (data : QueryContext) : Outcome QueryContext :=
  if n = 0 then (.ok (), { data with dbVersionStmt := none })
  else if db.Preparable db.dbVersionBuildQuery then
    (.ok (), { data with dbVersionStmt := some db.dbVersionBuildQuery })
  else (.error "no such column: db_version", { data with dbVersionStmt := none })

/-- `sqlite3_column_int64` of the row of a statement over `names`. -/
def loadedVersion (names : List String) : ℤ :=
  (maxVersion (names.filterMap fun name => (db.tableVersions name).bind List.max?)
    db.preAlterDbversion).getD CLOUDSYNC_MIN_DB_VERSION

/-- `stmt_execute` of `db_version_stmt`. -/
def executeDbVersion (data : QueryContext) : Outcome QueryContext :=
  match data.dbVersionStmt with
  | none => (.error "bad parameter or other API misuse", data)
  | some names =>
    if db.Preparable names then
      (.ok (), { data with dbVersion := db.loadedVersion names })
    else (.error "no such table", data)

def dbVersionRerun (data : QueryContext) : Outcome QueryContext :=
  if db.schemaVersion > data.schemaVersion then
    (db.dbVersionRebuildStmt { data with schemaVersion := db.schemaVersion }).andThen
      db.executeDbVersion
  else db.executeDbVersion data

/-- The version loaded is at least every stored one and the one kept in the settings. -/
def LoadsMax (data : QueryContext) : Prop :=
  (db.dbVersionRerun data).1 = .ok () ∧
    (∀ i, ∀ x ∈ (db.replica.table i).dbVersions, x ≤ (db.dbVersionRerun data).2.dbVersion) ∧
    ∀ v, db.preAlterDbversion = some v → v ≤ (db.dbVersionRerun data).2.dbVersion

/-- The tables of the statement the query runs. -/
def statementTables (data : QueryContext) : Option (List String) :=
  if db.schemaVersion > data.schemaVersion then
    if n = 0 then none else some db.dbVersionBuildQuery
  else data.dbVersionStmt

/-- Some table the statement reads holds a version as large as `x`. -/
def Covers (names : List String) (x : ℤ) : Prop :=
  (∃ name ∈ names, ∃ l, db.tableVersions name = some l ∧ ∃ y ∈ l, x ≤ y) ∨
    (∀ name ∈ names, ∀ l, db.tableVersions name = some l → l = []) ∧ x ≤ CLOUDSYNC_MIN_DB_VERSION

theorem le_loadedVersion_iff (hsetting : db.preAlterDbversion = none) (names : List String) (x : ℤ) :
    x ≤ db.loadedVersion names ↔ db.Covers names x := by
  rw [loadedVersion, hsetting, maxVersion, Covers]
  cases hmax : (names.filterMap fun name => (db.tableVersions name).bind List.max?).max? with
  | none =>
    have hnone := List.filterMap_eq_nil_iff.mp (List.max?_eq_none_iff.mp hmax)
    have hempty : ∀ name ∈ names, ∀ l, db.tableVersions name = some l → l = [] := by
      intro name hname l hl
      have := hnone name hname
      rw [hl] at this
      exact List.max?_eq_none_iff.mp this
    constructor
    · intro h
      exact .inr ⟨hempty, h⟩
    · rintro (⟨name, hname, l, hl, y, hy, _⟩ | ⟨_, h⟩)
      · rw [hempty name hname l hl] at hy
        cases hy
      · exact h
  | some m =>
    rcases List.max?_eq_some_iff.mp hmax with ⟨hmem, hle⟩
    rcases List.mem_filterMap.mp hmem with ⟨name, hname, hm⟩
    rcases Option.bind_eq_some_iff.mp hm with ⟨l, hl, hlmax⟩
    have hml := (List.max?_eq_some_iff.mp hlmax).1
    constructor
    · intro h
      exact .inl ⟨name, hname, l, hl, m, hml, h⟩
    · rintro (⟨name', hname', l', hl', y, hy, hxy⟩ | ⟨hempty, _⟩)
      · cases hlmax' : l'.max? with
        | none =>
          rw [List.max?_eq_none_iff.mp hlmax'] at hy
          cases hy
        | some m' =>
          have hm' := hle m' (List.mem_filterMap.mpr ⟨name', hname', by rw [hl']; exact hlmax'⟩)
          exact hxy.trans (((List.max?_eq_some_iff.mp hlmax').2 y hy).trans hm')
      · rw [hempty name hname l hl] at hml
        cases hml

theorem loadedVersion_of_setting {v : ℤ} (hsetting : db.preAlterDbversion = some v)
    (names : List String) : db.loadedVersion names = v := by
  rw [loadedVersion, hsetting]
  rfl

theorem executeDbVersion_spec (data : QueryContext) :
    ((db.executeDbVersion data).1 = .ok () ↔
      ∃ names, data.dbVersionStmt = some names ∧ db.Preparable names) ∧
    ∀ names, data.dbVersionStmt = some names → db.Preparable names →
      (db.executeDbVersion data).2.dbVersion = db.loadedVersion names := by
  rw [executeDbVersion]
  cases data.dbVersionStmt with
  | none => simp
  | some names =>
    by_cases h : db.Preparable names
    · simp [h]
    · simp [h]

/-- The query succeeds when there is a statement to run and it can be prepared,
and loads what that statement reads. -/
theorem dbVersionRerun_spec (data : QueryContext) :
    ((db.dbVersionRerun data).1 = .ok () ↔
      ∃ names, db.statementTables data = some names ∧ db.Preparable names) ∧
    ∀ names, db.statementTables data = some names → db.Preparable names →
      (db.dbVersionRerun data).2.dbVersion = db.loadedVersion names := by
  rw [dbVersionRerun, statementTables]
  by_cases hgrown : db.schemaVersion > data.schemaVersion
  · rw [if_pos hgrown, if_pos hgrown, dbVersionRebuildStmt]
    by_cases hn : n = 0
    · rw [if_pos hn, if_pos hn, Outcome.andThen_ok]
      exact db.executeDbVersion_spec
        { data with schemaVersion := db.schemaVersion, dbVersionStmt := none }
    · rw [if_neg hn, if_neg hn]
      by_cases hprep : db.Preparable db.dbVersionBuildQuery
      · rw [if_pos hprep, Outcome.andThen_ok]
        exact db.executeDbVersion_spec
          { data with
            schemaVersion := db.schemaVersion
            dbVersionStmt := some db.dbVersionBuildQuery }
      · simp [hprep]
  · rw [if_neg hgrown, if_neg hgrown]
    exact db.executeDbVersion_spec data

/-- Version 5 was kept when the table was altered, and version 10 was written since. -/
def reopened : Database fun _ : Fin 1 => singleColumn where
  replica :=
    { Replica.empty (fun _ : Fin 1 => singleColumn) [1] with
      table := fun _ =>
        ⟨⟨[([.integer 1], fun _ => .integer 0)], List.nodup_singleton _⟩,
          ⟨[(([.integer 1], "v"), ⟨1, 10, 0, 0⟩)], List.nodup_singleton _⟩⟩ }
  tblName := fun _ => "notes"
  others := []
  tblName_injective := fun _ _ _ => Subsingleton.elim _ _
  others_fresh := by decide
  schemaVersion := 7
  preAlterDbversion := some 5

end Database
end SqliteSync.Store
