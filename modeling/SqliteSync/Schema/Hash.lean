import SqliteSync.Library.Join
import SqliteSync.Store.Table
import SqliteSync.Schema.Normalized

/-!
# The schema hash of a database

`dbutils_update_schema_hash` hashes the CREATE statements of the augmented tables,
joined in the order in which `sqlite_master` lists them, which is the order of
their creation.
-/
namespace SqliteSync.Schema
open Library Store

/-- A row of `sqlite_master`. -/
structure MasterRow where
  type : String
  name : String
  sql : List UInt8
  deriving DecidableEq

/-- What the hash depends on, and where it is stored: `cloudsync_table_settings` with
the names as they were given, and `cloudsync_schema_versions`. -/
structure SchemaDb where
  master : List MasterRow
  tableSettings : List String
  schemaVersions : List (UInt64 × ℕ)
  deriving DecidableEq

namespace SchemaDb

variable (d d' : SchemaDb)

/-- The rows that the query selects: `name IN (SELECT tbl_name ...)` compares by bytes. -/
def selected : List MasterRow := d.master.filter fun r => r.type = "table" && d.tableSettings.contains r.name

/-- `group_concat(LOWER(sql))`; NULL over no rows. The `ORDER BY` stands outside the
aggregate and does not order what goes into it. -/
def schemaText : Option (List UInt8) :=
  if d.selected = [] then none
  else some ([','.toUInt8].intercalate (d.selected.map fun r => r.sql.map tolower))

/-- The `INSERT ... ON CONFLICT(hash) DO UPDATE`: the hash gets the next `seq`. -/
def putVersion (h : UInt64) : SchemaDb :=
  let seq := (d.schemaVersions.map (·.2)).foldl max 0 + 1
  { d with schemaVersions := (d.schemaVersions.filter fun v => v.1 ≠ h) ++ [(h, seq)] }

end SchemaDb

/-- The return codes of `dbutils_update_schema_hash`. -/
inductive UpdateRc
  | ok
  | error
  | constraint
  deriving DecidableEq, Repr

/-- `dbutils_update_schema_hash`; `written` tells that the INSERT succeeds. -/
def dbutilsUpdateSchemaHash (written : Bool) (d : SchemaDb) (hash : UInt64) :
    UpdateRc × SchemaDb × UInt64 :=
  match d.schemaText with
  | none => (.error, d, hash)
  | some schema =>
    let h := fnv1aHash schema
    if hash = h then (.constraint, d, hash)
    else if written then (.ok, d.putVersion h, h)
    else (.error, d, hash)

/-- The tables that `cloudsync_init` augmented: the name given may differ in case. -/
def SchemaDb.augmented (d : SchemaDb) : List MasterRow :=
  d.master.filter fun r => r.type = "table" && d.tableSettings.any fun n => lowered n = lowered r.name

/-- The same tables and settings with other CREATE statements. -/
def SchemaDb.withSql (d : SchemaDb) (sql : String → List UInt8) : SchemaDb :=
  { d with master := d.master.map fun r => { r with sql := sql r.name } }

/-- Every augmented table goes into the hash. -/
def SchemaDb.Covers (d : SchemaDb) : Prop := ∀ r ∈ d.augmented, r ∈ d.selected

/-- Every augmented table was given with the letters of its name. -/
def SchemaDb.NamesExact (d : SchemaDb) : Prop := ∀ r ∈ d.augmented, r.name ∈ d.tableSettings

/-- The hash does not tell two databases apart and leaves out no table: the same bytes
are hashed, the same hash is kept, and each covers its augmented tables. -/
structure Agree (d d' : SchemaDb) : Prop where
  bytes : d.schemaText.map hashedBytes = d'.schemaText.map hashedBytes
  hash : ∀ h : UInt64,
    (dbutilsUpdateSchemaHash true d h).2.2 = (dbutilsUpdateSchemaHash true d' h).2.2
  covers : d.Covers
  covers' : d'.Covers

namespace SchemaDb

variable {d d' : SchemaDb}

theorem covers_iff : d.Covers ↔ d.NamesExact := by
  apply forall_congr'
  intro r
  apply imp_congr_right
  intro hr
  simp only [augmented, List.mem_filter, Bool.and_eq_true] at hr
  simp [selected, hr.1, hr.2.1]

/-- With exact names the augmented tables are the ones hashed, in their order. -/
theorem NamesExact.selected_eq (h : d.NamesExact) : d.selected = d.augmented := by
  apply List.filter_congr
  intro r hr
  cases htype : decide (r.type = "table") with
  | false => rfl
  | true =>
    rw [Bool.true_and, Bool.true_and, Bool.eq_iff_iff, List.contains_iff_mem, List.any_eq_true]
    constructor
    · intro hmem
      exact ⟨r.name, hmem, by simp⟩
    · intro hany
      apply h
      rw [augmented, List.mem_filter, htype, Bool.true_and, List.any_eq_true]
      exact ⟨hr, hany⟩

theorem withSql_augmented (sql : String → List UInt8) :
    (d.withSql sql).augmented = d.augmented.map fun r => { r with sql := sql r.name } := by
  rw [augmented, withSql, List.filter_map]
  rfl

theorem withSql_namesExact (sql : String → List UInt8) :
    (d.withSql sql).NamesExact ↔ d.NamesExact := by
  rw [NamesExact, withSql_augmented, List.forall_mem_map]
  rfl

end SchemaDb

theorem hashedBytes_plain {s : List UInt8}
    (hs : ∀ c ∈ s, c = 'a'.toUInt8 ∨ c = 'b'.toUInt8 ∨ c = ','.toUInt8) : hashedBytes s = s := by
  rw [hashedBytes_eq]
  have hscanned : ∀ lastSpace, scanned lastSpace (pieces s) = s := by
    induction s with
    | nil =>
      intro lastSpace
      simp [pieces, scanned]
    | cons c s ih =>
      intro lastSpace
      have hrest := ih fun c hc => hs c (.tail _ hc)
      have hc : c ≠ '-'.toUInt8 ∧ c ≠ '/'.toUInt8 ∧ c ≠ '\''.toUInt8 ∧ c ≠ '"'.toUInt8 ∧
          isspace c = false ∧ isprint c = true ∧ c ≠ ';'.toUInt8 ∧ tolower c = c := by
        rcases hs c List.mem_cons_self with rfl | rfl | rfl <;> decide
      rcases hc with ⟨hdash, hslash, hsingle, hdouble, hspace, hprint, hsemi, hlower⟩
      simp [pieces, scanned, hdash, hslash, hsingle, hdouble, hspace, hprint, hsemi, hlower, hrest]
  exact hscanned true

def joinedSql (sql : String → List UInt8) (names : List String) : Option (List UInt8) :=
  if names = [] then none
  else some ([','.toUInt8].intercalate (names.map fun n => (sql n).map tolower))

theorem SchemaDb.NamesExact.schemaText_withSql {d : SchemaDb} (h : d.NamesExact)
    (sql : String → List UInt8) :
    (d.withSql sql).schemaText = joinedSql sql (d.augmented.map (·.name)) := by
  have hexact := (SchemaDb.withSql_namesExact sql).mpr h
  rw [SchemaDb.schemaText, joinedSql, hexact.selected_eq, SchemaDb.withSql_augmented]
  simp only [List.map_eq_nil_iff, List.map_map]
  rfl

/-- The CREATE statements can be chosen such that the bytes hashed give the names back. -/
theorem names_eq_of_joinedSql {names names' : List String}
    (h : ∀ sql : String → List UInt8,
      (joinedSql sql names).map hashedBytes = (joinedSql sql names').map hashedBytes) :
    names = names' := by
  -- one letter marks a name, the other all the rest
  let mark : String → String → List UInt8 := fun n m => if m = n then ['b'.toUInt8] else ['a'.toUInt8]
  have hlower : ∀ n m, (mark n m).map tolower = mark n m := by
    intro n m
    by_cases hm : m = n <;> simp only [mark, hm, if_true, if_false] <;> decide
  have hcomma : ∀ n, ∀ ns : List String, ∀ l ∈ ns.map (mark n), ','.toUInt8 ∉ l := by
    intro n ns l hl
    rw [List.mem_map] at hl
    rcases hl with ⟨m, -, rfl⟩
    by_cases hm : m = n <;> simp only [mark, hm, if_true, if_false] <;> decide
  have hplain : ∀ n, ∀ ns : List String, ∀ c ∈ [','.toUInt8].intercalate (ns.map (mark n)),
      c = 'a'.toUInt8 ∨ c = 'b'.toUInt8 ∨ c = ','.toUInt8 := by
    intro n ns c hc
    rcases mem_intercalate hc with rfl | ⟨l, hl, hc⟩
    · exact Or.inr (Or.inr rfl)
    · rw [List.mem_map] at hl
      rcases hl with ⟨m, -, rfl⟩
      by_cases hm : m = n
      · simp only [mark, hm, if_true, List.mem_singleton] at hc
        exact Or.inr (Or.inl hc)
      · simp only [mark, hm, if_false, List.mem_singleton] at hc
        exact Or.inl hc
  have hmarks : ∀ n, names.map (mark n) = names'.map (mark n) := by
    intro n
    have hn := h (mark n)
    simp only [joinedSql, hlower] at hn
    cases names with
    | nil =>
      cases names' with
      | nil => rfl
      | cons m' ms' => simp at hn
    | cons m ms =>
      cases names' with
      | nil => simp at hn
      | cons m' ms' =>
        rw [if_neg (List.cons_ne_nil m ms), if_neg (List.cons_ne_nil m' ms'), Option.map_some,
          Option.map_some, hashedBytes_plain (hplain n _), hashedBytes_plain (hplain n _),
          Option.some.injEq] at hn
        rw [← List.splitOn_intercalate _ (hcomma n (m :: ms)) (by simp), hn,
          List.splitOn_intercalate _ (hcomma n (m' :: ms')) (by simp)]
  have hlength : names.length = names'.length := by
    have hl := congrArg List.length (hmarks "")
    simpa using hl
  apply List.ext_getElem hlength
  intro i hi hi'
  have hat := congrArg (·[i]?) (hmarks names[i])
  simp only [List.getElem?_map, List.getElem?_eq_getElem hi, List.getElem?_eq_getElem hi',
    Option.map_some, Option.some.injEq, mark, if_true] at hat
  by_contra hne
  rw [if_neg (Ne.symm hne)] at hat
  exact absurd hat (by decide)

theorem agree_withSql_iff (d d' : SchemaDb) :
    (∀ sql : String → List UInt8, Agree (d.withSql sql) (d'.withSql sql)) ↔
      d.NamesExact ∧ d'.NamesExact ∧ d.augmented.map (·.name) = d'.augmented.map (·.name) := by
  constructor
  · intro h
    have hexact : d.NamesExact := by
      rw [← SchemaDb.withSql_namesExact fun _ => [], ← SchemaDb.covers_iff]
      exact (h _).covers
    have hexact' : d'.NamesExact := by
      rw [← SchemaDb.withSql_namesExact fun _ => [], ← SchemaDb.covers_iff]
      exact (h _).covers'
    refine ⟨hexact, hexact', names_eq_of_joinedSql fun sql => ?_⟩
    rw [← hexact.schemaText_withSql, ← hexact'.schemaText_withSql]
    exact (h sql).bytes
  · rintro ⟨hexact, hexact', hnames⟩ sql
    have htext : (d.withSql sql).schemaText = (d'.withSql sql).schemaText := by
      rw [hexact.schemaText_withSql, hexact'.schemaText_withSql, hnames]
    constructor
    · rw [htext]
    · intro h
      rw [dbutilsUpdateSchemaHash, dbutilsUpdateSchemaHash, htext]
      cases (d'.withSql sql).schemaText with
      | none => rfl
      | some schema =>
        simp only [if_true]
        split_ifs <;> rfl
    · rw [SchemaDb.covers_iff, SchemaDb.withSql_namesExact]
      exact hexact
    · rw [SchemaDb.covers_iff, SchemaDb.withSql_namesExact]
      exact hexact'

/-- Two tables created in either order, and one of them given in capital letters. -/
theorem dbutilsUpdateSchemaHash_differs :
    let a : MasterRow := ⟨"table", "a", ascii "CREATE TABLE a(x)"⟩
    let b : MasterRow := ⟨"table", "b", ascii "CREATE TABLE b(y)"⟩
    (dbutilsUpdateSchemaHash true ⟨[a, b], ["a", "b"], []⟩ 0).2.2 ≠
        (dbutilsUpdateSchemaHash true ⟨[b, a], ["a", "b"], []⟩ 0).2.2 ∧
      (dbutilsUpdateSchemaHash true ⟨[a, b], ["a", "b"], []⟩ 0).2.2 ≠
        (dbutilsUpdateSchemaHash true ⟨[a, b], ["A", "b"], []⟩ 0).2.2 ∧
      (SchemaDb.mk [a, b] ["A", "b"] []).augmented = [a, b] ∧
      (SchemaDb.mk [a, b] ["A", "b"] []).selected = [b] ∧
      (dbutilsUpdateSchemaHash true ⟨[a], ["A"], []⟩ 0).1 = .error := by
  decide +kernel

end SqliteSync.Schema
