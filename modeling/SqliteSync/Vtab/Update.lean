import SqliteSync.Codec.RoundTrip
import SqliteSync.Library.CString
import SqliteSync.Library.Join
import SqliteSync.Store.Catalog

/-!
# Rows of `cloudsync_changes` as values

A row that is read is nine SQL values, and an INSERT takes nine values back to a
change of a registered table. No other statement may write the table.
-/
namespace SqliteSync.Store
open Library Codec

/-! ## Reading -/

def textValue (s : String) : Option Value :=
  if h : (utf8 s).length < 2 ^ 31 then some (.text ⟨utf8 s, h⟩) else none

def blobValue (bytes : List UInt8) : Option Value :=
  if h : bytes.length < 2 ^ 31 then some (.blob ⟨bytes, h⟩) else none

def integerValue (z : ℤ) : Option Value :=
  if -2 ^ 63 ≤ z ∧ z < 2 ^ 63 then some (.integer (BitVec.ofInt 64 z)) else none

@[match_pattern] abbrev COL_TBL_INDEX : ℕ := 0
@[match_pattern] abbrev COL_PK_INDEX : ℕ := 1
@[match_pattern] abbrev COL_NAME_INDEX : ℕ := 2
@[match_pattern] abbrev COL_VALUE_INDEX : ℕ := 3
@[match_pattern] abbrev COL_VERSION_INDEX : ℕ := 4
@[match_pattern] abbrev COL_DBVERSION_INDEX : ℕ := 5
@[match_pattern] abbrev COL_SITEID_INDEX : ℕ := 6
@[match_pattern] abbrev COL_CL_INDEX : ℕ := 7
@[match_pattern] abbrev COL_SEQ_INDEX : ℕ := 8

/-- `cloudsync_changesvtab_column`; `none` is what SQLite cannot hold. -/
def FeedRow.column (f : FeedRow) : ℕ → Option Value
  | COL_TBL_INDEX => textValue f.tbl
  | COL_PK_INDEX => blobValue (pkEncodePrikey f.pk)
  | COL_NAME_INDEX => textValue f.colName
  | COL_VALUE_INDEX => some f.colValue
  | COL_VERSION_INDEX => integerValue f.colVersion
  | COL_DBVERSION_INDEX => integerValue f.dbVersion
  | COL_SITEID_INDEX => blobValue f.siteId
  | COL_CL_INDEX => integerValue f.cl
  | COL_SEQ_INDEX => integerValue f.seq
  | _ => none

/-- The arguments of `cloudsync_payload_encode` for a row. -/
def FeedRow.values (f : FeedRow) : Option (List Value) := (List.range 9).mapM f.column

/-! ## Writing -/

/-- `sqlite3_value_text` of a TEXT or BLOB, as far as a C string goes. -/
def sqlite3ValueText : Value → Option String
  | .text b | .blob b => ofUtf8 (stringAt b.data)
  | _ => none

/-- `sqlite3_value_blob` and `sqlite3_value_bytes`, where there is nothing to convert. -/
def sqlite3ValueBlob : Value → Option (List UInt8)
  | .text b | .blob b => some b.data
  | .null => some []
  | _ => none

/-- `sqlite3_value_int64`, where there is nothing to convert. -/
def sqlite3ValueInt64 : Value → Option ℤ
  | .integer v => some v.toInt
  | .null => some 0
  | _ => none

def prikeyOf (bytes : List UInt8) : Option Pk := do
  let r ← pkDecodePrikey bytes record []
  let pk ← r.xdata.mapM (CbArgs.value bytes)
  if pkEncodePrikey pk = bytes then some pk else none

def insertName : Value → Option (Option String)
  | .null => some none
  | v => (sqlite3ValueText v).map some

/-- The fields `cloudsync_merge_insert` extracts from its arguments. -/
def changeOfValues {n : ℕ} (i : Fin n) : List Value → Option (Change n)
  | [_, pk, colName, colValue, colVersion, dbVersion, siteId, cl, seq] => do
    some {
      tbl := i
      pk := ← prikeyOf (← sqlite3ValueBlob pk)
      colName := ← insertName colName
      colValue := colValue
      colVersion := ← sqlite3ValueInt64 colVersion
      dbVersion := ← sqlite3ValueInt64 dbVersion
      siteId := ← sqlite3ValueBlob siteId
      cl := ← sqlite3ValueInt64 cl
      seq := ← sqlite3ValueInt64 seq }
  | _ => none

namespace Catalog
variable {n : ℕ} {schema : Fin n → TableContext} (faults : Faults) (y : Catalog schema)

/-- `cloudsync_merge_insert`, from its arguments on. -/
def cloudsyncMergeInsert (argv : List Value) : Option (Outcome (Catalog schema)) := do
  let tbl ← sqlite3ValueText (← argv[0]?)
  match y.tableLookup tbl with
  | none => some (.error ("Unable to find table " ++ tbl ++ ","), y)
  | some i => do
    let c ← changeOfValues i argv
    let x := Store.cloudsyncMergeInsert faults y.replica c
    some (x.1, { y with replica := x.2 })

/-- `cloudsync_changesvtab_update`. An INSERT has no old rowid, and a new one that is
not read. -/
def cloudsyncChangesvtabUpdate : List Value → Option (Outcome (Catalog schema))
  | .null :: _ :: argv => y.cloudsyncMergeInsert faults argv
  | _ =>
    some (.error ("Only INSERT and SELECT statements are allowed against the cloudsync_changes " ++
      "table"), y)

end Catalog

/-! ## A row that was read is written back -/

/-- The change a row of the feed is for the table `i`. -/
def FeedRow.change {n : ℕ} (f : FeedRow) (i : Fin n) : Change n where
  tbl := i
  pk := f.pk
  colName := some f.colName
  colValue := f.colValue
  colVersion := f.colVersion
  dbVersion := f.dbVersion
  siteId := f.siteId
  cl := f.cl
  seq := f.seq

/-- Names without a NUL, and a key of as many columns as the encoding can count. -/
structure FeedRow.Plain (f : FeedRow) : Prop where
  tbl : ∀ b ∈ utf8 f.tbl, b ≠ 0
  colName : ∀ b ∈ utf8 f.colName, b ≠ 0
  pk : f.pk.length ≤ 255

theorem sqlite3ValueText_textValue {s : String} {v : Value} (hs : ∀ b ∈ utf8 s, b ≠ 0)
    (h : textValue s = some v) : sqlite3ValueText v = some s := by
  rw [textValue] at h
  split_ifs at h
  cases h
  rw [sqlite3ValueText, stringAt_eq_self hs, ofUtf8_utf8]

theorem insertName_textValue {s : String} {v : Value} (hs : ∀ b ∈ utf8 s, b ≠ 0)
    (h : textValue s = some v) : insertName v = some (some s) := by
  have htext := sqlite3ValueText_textValue hs h
  rw [textValue] at h
  split_ifs at h
  cases h
  rw [insertName, htext]
  · rfl
  · rintro ⟨⟩

theorem sqlite3ValueBlob_blobValue {bytes : List UInt8} {v : Value}
    (h : blobValue bytes = some v) : sqlite3ValueBlob v = some bytes := by
  rw [blobValue] at h
  split_ifs at h
  cases h
  rfl

theorem toInt_ofInt_of_le {z : ℤ} (h₀ : -2 ^ 63 ≤ z) (h : z < 2 ^ 63) :
    (BitVec.ofInt 64 z).toInt = z := by
  rw [BitVec.toInt_ofInt]
  exact Int.bmod_eq_of_le (by norm_num; omega) (by norm_num; omega)

theorem sqlite3ValueInt64_integerValue {z : ℤ} {v : Value} (h : integerValue z = some v) :
    sqlite3ValueInt64 v = some z := by
  rw [integerValue, Option.ite_none_right_eq_some, Option.some.injEq] at h
  rcases h with ⟨hz, rfl⟩
  exact congrArg some (toInt_ofInt_of_le hz.1 hz.2)

theorem prikeyOf_pkEncodePrikey {pk : Pk} (h : pk.length ≤ 255) :
    prikeyOf (pkEncodePrikey pk) = some pk := by
  rcases pkDecodePrikey_pkEncodePrikey_calls pk h [] with ⟨calls, hdec, -, hvalues⟩
  rw [List.append_nil] at hdec hvalues
  rw [prikeyOf, hdec]
  simp [mapM_eq_some_of_map hvalues]

theorem values_columns {f : FeedRow} {argv : List Value} (h : f.values = some argv) :
    ∃ tbl pk colName colVersion dbVersion siteId cl seq,
      argv = [tbl, pk, colName, f.colValue, colVersion, dbVersion, siteId, cl, seq] ∧
      textValue f.tbl = some tbl ∧ blobValue (pkEncodePrikey f.pk) = some pk ∧
      textValue f.colName = some colName ∧ integerValue f.colVersion = some colVersion ∧
      integerValue f.dbVersion = some dbVersion ∧ blobValue f.siteId = some siteId ∧
      integerValue f.cl = some cl ∧ integerValue f.seq = some seq := by
  simp only [FeedRow.values, List.range, List.range.loop, List.mapM_cons, List.mapM_nil,
    FeedRow.column, Option.bind_eq_bind, Option.bind_eq_some_iff, Option.pure_def,
    Option.some.injEq] at h
  grind

theorem changeOfValues_values {n : ℕ} {f : FeedRow} (hf : f.Plain) {argv : List Value}
    (h : f.values = some argv) (i : Fin n) : changeOfValues i argv = some (f.change i) := by
  rcases values_columns h with ⟨tbl, pk, colName, colVersion, dbVersion, siteId, cl, seq, rfl, -, hpk,
    hname, hversion, hdb, hsite, hcl, hseq⟩
  rw [changeOfValues, sqlite3ValueBlob_blobValue hpk, sqlite3ValueBlob_blobValue hsite,
    insertName_textValue hf.colName hname, sqlite3ValueInt64_integerValue hversion,
    sqlite3ValueInt64_integerValue hdb, sqlite3ValueInt64_integerValue hcl,
    sqlite3ValueInt64_integerValue hseq]
  simp only [Option.bind_eq_bind, Option.bind_some, prikeyOf_pkEncodePrikey hf.pk]
  rfl

theorem values_tbl {f : FeedRow} (hf : f.Plain) {argv : List Value} (h : f.values = some argv) :
    ∃ v, argv[0]? = some v ∧ sqlite3ValueText v = some f.tbl := by
  rcases values_columns h with ⟨tbl, pk, colName, colVersion, dbVersion, siteId, cl, seq, rfl, htbl, -⟩
  exact ⟨tbl, rfl, sqlite3ValueText_textValue hf.tbl htbl⟩

end SqliteSync.Store
