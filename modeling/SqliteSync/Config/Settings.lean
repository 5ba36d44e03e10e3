import SqliteSync.Library.CString
import SqliteSync.Payload.Header
import SqliteSync.Store.Table

/-!
# The settings tables

`cloudsync_settings` and `cloudsync_table_settings` hold texts under keys. The
functions that read them take the caller's buffer, and hand it back untouched when
there is nothing to put into it.
-/
namespace SqliteSync.Config
open Library Store

def CLOUDSYNC_KEY_LIBVERSION : String := "version"
def CLOUDSYNC_KEY_CHECK_DBVERSION : String := "check_dbversion"
def CLOUDSYNC_KEY_CHECK_SEQ : String := "check_seq"
def CLOUDSYNC_KEY_SEND_DBVERSION : String := "send_dbversion"
def CLOUDSYNC_KEY_SEND_SEQ : String := "send_seq"

/-- `cloudsync_settings`, by key with the case ignored. A value may be NULL. -/
abbrev Settings := Keyed (List Char) (Option CString)

/-- A row of `cloudsync_table_settings`, without its key. -/
structure TableSetting where
  tblName : String
  colName : String
  value : Option CString
deriving DecidableEq

/-- `cloudsync_table_settings`, by its primary key `(tbl_name, key)`: names of
tables are compared with the case ignored, keys are not. -/
abbrev TableSettings := Keyed (List Char × String) TableSetting

/-! ## Reading -/

/-- What is done with the value a query finds, in `dbutils_settings_get_value` and
`dbutils_table_settings_get_value`: the memory behind the pointer that is returned, `none`
for NULL. A long value goes into fresh memory, if `alloc` has some. -/
def getValue (value : Option (Option CString)) (alloc : Bool) (buffer : Option (List UInt8))
    (blen : ℕ) : Option (List UInt8) :=
  match value with
  | none => buffer
  | some none => buffer
  | some (some value) =>
    let blen := if buffer.isNone then 0 else blen
    if value.length + 1 > blen then
      if alloc then some (value ++ [0]) else none
    else buffer.map fun b => value ++ 0 :: b.drop (value.length + 1)

/-- What the caller's buffer holds after that. -/
def filled (value : Option (Option CString)) (buffer : List UInt8) : List UInt8 :=
  match value with
  | none => buffer
  | some none => buffer
  | some (some value) =>
    if value.length + 1 > buffer.length then buffer
    else value ++ 0 :: buffer.drop (value.length + 1)

def dbutilsSettingsGetValue (s : Settings) (key : String) (alloc : Bool)
    (buffer : Option (List UInt8)) (blen : ℕ) : Option (List UInt8) :=
  getValue (s.get (lowered key)) alloc buffer blen

/-- `(int)strtol(buffer, NULL, 0)`, from a buffer that starts as zeroes. The buffer is read
also when the value went into fresh memory. -/
def dbutilsSettingsGetIntValue (s : Settings) (key : String) (alloc : Bool) (longBits : ℕ) : ℤ :=
  let buffer := List.replicate 256 0
  match dbutilsSettingsGetValue s key alloc (some buffer) buffer.length with
  | none => -1
  | some _ => toInt32 (strtol longBits (stringAt (filled (s.get (lowered key)) buffer)))

/-- `sscanf(text, "%d.%d.%d", ...)`, where it reads three numbers. -/
def scanVersion (text : CString) : Option (ℤ × ℤ × ℤ) :=
  (scanInt text).bind fun (major, text) =>
    (scanDot text).bind fun text => (scanInt text).bind fun (minor, text) =>
      (scanDot text).bind fun text => (scanInt text).map fun (patch, _) => (major, minor, patch)
where
  scanDot : CString → Option CString
    | 46 :: rest => some rest
    | _ => none

def binaryComparison (x y : ℤ) : ℤ := if x = y then 0 else if x > y then 1 else -1

/-- The comparison of a stored version with `CLOUDSYNC_VERSION`. -/
def compareVersion (version : ℤ × ℤ × ℤ) : ℤ :=
  let major := binaryComparison version.1 Payload.CLOUDSYNC_VERSION.1
  let minor := binaryComparison version.2.1 Payload.CLOUDSYNC_VERSION.2.1
  if major ≠ 0 then major
  else if minor ≠ 0 then minor
  else binaryComparison version.2.2 Payload.CLOUDSYNC_VERSION.2.2

/-- `dbutils_settings_check_version`, whose buffer holds what the stack did. -/
def dbutilsSettingsCheckVersion (s : Settings) (alloc : Bool) (stack : List UInt8) : ℤ :=
  match dbutilsSettingsGetValue s CLOUDSYNC_KEY_LIBVERSION alloc (some stack) stack.length with
  | none => -666
  | some _ =>
    match scanVersion (stringAt (filled (s.get (lowered CLOUDSYNC_KEY_LIBVERSION)) stack)) with
    | none => -666
    | some version => compareVersion version

/-- The value of a table's key on a column; the key is found under the primary key. -/
def tableValue (s : TableSettings) (table column key : String) : Option (Option CString) :=
  ((s.get (lowered table, key)).filter fun row => lowered row.colName == lowered column).map
    TableSetting.value

def dbutilsTableSettingsGetValue (s : TableSettings) (table : String) (column : Option String)
    (key : String) (alloc : Bool) (buffer : Option (List UInt8)) (blen : ℕ) :
    Option (List UInt8) :=
  getValue (tableValue s table (column.getD "*") key) alloc buffer blen

/-- `crdt_algo_from_name`, of a name that is not NULL. -/
def crdtAlgoFromName (algoName : CString) : TableAlgo :=
  if strcaseeq algoName (ascii "CausalLengthSet") || strcaseeq algoName (ascii "cls") then .crdtCls
  else if strcaseeq algoName (ascii "GrowOnlySet") || strcaseeq algoName (ascii "gos") then .crdtGos
  else if strcaseeq algoName (ascii "DeleteWinsSet") || strcaseeq algoName (ascii "dws") then
    .crdtDws
  else if strcaseeq algoName (ascii "AddWinsSet") || strcaseeq algoName (ascii "aws") then .crdtAws
  else .none

/-- `dbutils_table_settings_get_algo`, whose buffer holds what the stack did. -/
def dbutilsTableSettingsGetAlgo (s : TableSettings) (tableName : String) (alloc : Bool)
    (stack : List UInt8) : TableAlgo :=
  match dbutilsTableSettingsGetValue s tableName (some "*") "algo" alloc (some stack)
      stack.length with
  | none => .none
  | some value => crdtAlgoFromName (stringAt value)

/-! ## Writing -/

/-- `dbutils_settings_set_key_value`; a text is bound up to its NUL. -/
def dbutilsSettingsSetKeyValue (s : Settings) (key : Option String) (value : Option CString) :
    Settings :=
  match key, value with
  | some key, some value => s.replace (lowered key) (some (stringAt value))
  | some key, none => s.deleteWhere fun k _ => k == lowered key
  | none, _ => s

/-- A call of `dbutils_table_settings_set_key_value`; `none` is a NULL argument. -/
structure TableSet where
  table : Option String
  column : Option String
  key : Option String
  value : Option CString
deriving DecidableEq

/-- `dbutils_table_settings_set_key_value`: the settings after it. -/
def dbutilsTableSettingsSetKeyValue (s : TableSettings) (call : TableSet) : TableSettings :=
  match call.table with
  | none => s
  | some table =>
    let column := call.column.getD "*"
    match call.key with
    | none => s.deleteWhere fun k _ => k.1 == lowered table
    | some key =>
      match call.value with
      | some value => s.replace (lowered table, key) ⟨table, column, some (stringAt value)⟩
      | none => s.deleteWhere fun k row =>
          k == (lowered table, key) && lowered row.colName == lowered column

/-! ## What is read -/

theorem getValue_missing {value : Option (Option CString)} (h : value.getD none = none)
    (alloc : Bool) (buffer : Option (List UInt8)) (blen : ℕ) :
    getValue value alloc buffer blen = buffer := by
  rcases value with - | (- | value)
  · rfl
  · rfl
  · cases h

theorem getValue_heap (value : Option (Option CString)) :
    (getValue value true none 0).map stringAt =
      (value.getD none).map fun value => stringAt (value ++ [0]) := by
  rcases value with - | (- | value) <;> rfl

theorem stringAt_idem (s : List UInt8) : stringAt (stringAt s ++ [0]) = stringAt s := by
  apply stringAt_append
  intro c hc
  exact bne_iff_ne.mp (List.all_eq_true.mp List.all_takeWhile c hc)

theorem getValue_fits {value : CString} {buffer : List UInt8} (h : value.length < buffer.length)
    (hvalue : ∀ c ∈ value, c ≠ 0) (alloc : Bool) :
    (getValue (some (some value)) alloc (some buffer) buffer.length).map stringAt = some value := by
  rw [getValue]
  simp only [Option.isNone_some, Bool.false_eq_true, if_false, Option.map_some]
  rw [if_neg (by omega), Option.map_some, stringAt_append hvalue]

theorem filled_missing {value : Option (Option CString)} (h : value.getD none = none)
    (buffer : List UInt8) : filled value buffer = buffer := by
  rcases value with - | (- | value)
  · rfl
  · rfl
  · cases h

theorem filled_fits {value : CString} {buffer : List UInt8} (h : value.length < buffer.length)
    (hvalue : ∀ c ∈ value, c ≠ 0) : stringAt (filled (some (some value)) buffer) = value := by
  rw [filled]
  simp only [if_neg (show ¬ value.length + 1 > buffer.length by omega)]
  exact stringAt_append hvalue _

end SqliteSync.Config
