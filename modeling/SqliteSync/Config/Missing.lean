import SqliteSync.Config.Settings

/-!
# Settings that are missing

The functions that read a setting return the caller's buffer when there is none, so
a caller that brings memory from the stack reads what an earlier call left there.
-/
namespace SqliteSync.Config
open Library Store

def Unset (value : Option (Option CString)) : Prop := value.getD none = none

/-- The algorithm of the call in `cloudsync_init_internal`, and the settings after it is
compared with the table's. -/
def initAlgo (s : TableSettings) (tableName : String) (algoName : Option CString) (alloc : Bool)
    (stack : List UInt8) : Except String (TableAlgo × TableSettings) :=
  let algoName := algoName.getD (ascii "cls")
  let algoNew := crdtAlgoFromName algoName
  if algoNew = .none then .error "algo name does not exist"
  else
    let algoCurrent := dbutilsTableSettingsGetAlgo s tableName alloc stack
    if algoNew = algoCurrent then .ok (algoNew, s)
    else if algoCurrent = .none then
      .ok (algoNew, dbutilsTableSettingsSetKeyValue s
        ⟨some tableName, some "*", some "algo", some algoName⟩)
    else
      .error "Before changing a table algorithm you must call cloudsync_cleanup(table_name)"

/-- A call of `cloudsync_init_internal` with a known algorithm stores it. -/
def WritesAlgo (s : TableSettings) (table : String) (algoName : Option CString) (alloc : Bool)
    (stack : List UInt8) : Prop :=
  ∃ algo s', initAlgo s table algoName alloc stack = .ok (algo, s') ∧
    ¬ Unset (tableValue s' table "*" "algo")

/-- What is missing is reported as missing, whatever the buffers `p` and `q` hold. -/
structure ReportsMissing (s : Settings) (ts : TableSettings) (key table : String)
    (column : Option String) (tableKey : String) (algoName : Option CString) (alloc : Bool)
    (p q : List UInt8) : Prop where
  algo : Unset (tableValue ts table "*" "algo") →
    dbutilsTableSettingsGetAlgo ts table alloc p = .none
  version : Unset (s.get (lowered CLOUDSYNC_KEY_LIBVERSION)) →
    dbutilsSettingsCheckVersion s alloc p = -666
  value : Unset (s.get (lowered key)) →
    (dbutilsSettingsGetValue s key alloc (some p) p.length).map stringAt =
      (dbutilsSettingsGetValue s key alloc (some q) q.length).map stringAt
  tableValue : Unset (tableValue ts table (column.getD "*") tableKey) →
    (dbutilsTableSettingsGetValue ts table column tableKey alloc (some p) p.length).map stringAt =
      (dbutilsTableSettingsGetValue ts table column tableKey alloc (some q) q.length).map stringAt
  init : Unset (Config.tableValue ts table "*" "algo") →
    crdtAlgoFromName (algoName.getD (ascii "cls")) ≠ .none → WritesAlgo ts table algoName alloc p

/-- Where something is missing, the buffer does not look like it: it names no algorithm
and no version, and the two buffers hold one string. -/
structure Quiet (s : Settings) (ts : TableSettings) (key table : String) (column : Option String)
    (tableKey : String) (p q : List UInt8) : Prop where
  algo : Unset (tableValue ts table "*" "algo") → crdtAlgoFromName (stringAt p) = .none
  version : Unset (s.get (lowered CLOUDSYNC_KEY_LIBVERSION)) → scanVersion (stringAt p) = none
  value : Unset (s.get (lowered key)) ∨ Unset (tableValue ts table (column.getD "*") tableKey) →
    stringAt p = stringAt q

theorem getAlgo_unset {s : TableSettings} {table : String} (h : Unset (tableValue s table "*" "algo"))
    (alloc : Bool) (stack : List UInt8) :
    dbutilsTableSettingsGetAlgo s table alloc stack = crdtAlgoFromName (stringAt stack) := by
  rw [dbutilsTableSettingsGetAlgo, dbutilsTableSettingsGetValue, Option.getD_some,
    getValue_missing h]

theorem binaryComparison_ne (x y : ℤ) : binaryComparison x y ≠ -666 := by
  rw [binaryComparison]
  split_ifs <;> norm_num

theorem compareVersion_ne (version : ℤ × ℤ × ℤ) : compareVersion version ≠ -666 := by
  rw [compareVersion]
  split_ifs <;> exact binaryComparison_ne _ _

theorem checkVersion_unset_iff {s : Settings} (h : Unset (s.get (lowered CLOUDSYNC_KEY_LIBVERSION)))
    (alloc : Bool) (stack : List UInt8) :
    dbutilsSettingsCheckVersion s alloc stack = -666 ↔ scanVersion (stringAt stack) = none := by
  rw [dbutilsSettingsCheckVersion, dbutilsSettingsGetValue, getValue_missing h, filled_missing h]
  cases scanVersion (stringAt stack) with
  | none => simp
  | some version => simp [compareVersion_ne]

theorem tableValue_setAlgo (s : TableSettings) (table : String) (algoName : CString) :
    tableValue (dbutilsTableSettingsSetKeyValue s
      ⟨some table, some "*", some "algo", some algoName⟩) table "*" "algo" =
        some (some (stringAt algoName)) := by
  simp [tableValue, dbutilsTableSettingsSetKeyValue, Option.filter_some]

/-- A table without an algorithm gets one exactly when the stack names none. -/
theorem writesAlgo_unset_iff {s : TableSettings} {table : String}
    (h : Unset (tableValue s table "*" "algo")) {algoName : Option CString}
    (hname : crdtAlgoFromName (algoName.getD (ascii "cls")) ≠ .none) (alloc : Bool)
    (stack : List UInt8) :
    WritesAlgo s table algoName alloc stack ↔ crdtAlgoFromName (stringAt stack) = .none := by
  have hinit : initAlgo s table algoName alloc stack =
      if crdtAlgoFromName (algoName.getD (ascii "cls")) = crdtAlgoFromName (stringAt stack) then
        .ok (crdtAlgoFromName (algoName.getD (ascii "cls")), s)
      else if crdtAlgoFromName (stringAt stack) = .none then
        .ok (crdtAlgoFromName (algoName.getD (ascii "cls")), dbutilsTableSettingsSetKeyValue s
          ⟨some table, some "*", some "algo", some (algoName.getD (ascii "cls"))⟩)
      else .error "Before changing a table algorithm you must call cloudsync_cleanup(table_name)" := by
    rw [initAlgo, if_neg hname, getAlgo_unset h]
  rw [WritesAlgo, hinit]
  constructor
  · rintro ⟨algo, s', hok, hset⟩
    by_contra hstack
    rw [if_neg hstack] at hok
    split_ifs at hok
    rw [Except.ok.injEq, Prod.mk.injEq] at hok
    exact hset (hok.2 ▸ h)
  · intro hstack
    refine ⟨_, _, by rw [if_neg (fun heq => hname (heq.trans hstack)), if_pos hstack], ?_⟩
    rw [tableValue_setAlgo]
    exact Option.some_ne_none _

/-- What is missing is reported as missing exactly when the caller's buffers are quiet. -/
theorem reportsMissing_iff (s : Settings) (ts : TableSettings) (key table : String)
    (column : Option String) (tableKey : String) (algoName : Option CString) (alloc : Bool)
    (p q : List UInt8) :
    ReportsMissing s ts key table column tableKey algoName alloc p q ↔
      Quiet s ts key table column tableKey p q := by
  have hvalue : Unset (s.get (lowered key)) →
      ((dbutilsSettingsGetValue s key alloc (some p) p.length).map stringAt =
          (dbutilsSettingsGetValue s key alloc (some q) q.length).map stringAt ↔
        stringAt p = stringAt q) := by
    intro h
    rw [dbutilsSettingsGetValue, dbutilsSettingsGetValue, getValue_missing h, getValue_missing h,
      Option.map_some, Option.map_some, Option.some.injEq]
  have htable : Unset (tableValue ts table (column.getD "*") tableKey) →
      ((dbutilsTableSettingsGetValue ts table column tableKey alloc (some p) p.length).map stringAt =
          (dbutilsTableSettingsGetValue ts table column tableKey alloc (some q) q.length).map
            stringAt ↔ stringAt p = stringAt q) := by
    intro h
    rw [dbutilsTableSettingsGetValue, dbutilsTableSettingsGetValue, getValue_missing h,
      getValue_missing h, Option.map_some, Option.map_some, Option.some.injEq]
  constructor
  · intro h
    refine ⟨?_, ?_, ?_⟩
    · intro hunset
      exact (getAlgo_unset hunset alloc p).symm.trans (h.algo hunset)
    · intro hunset
      exact (checkVersion_unset_iff hunset alloc p).mp (h.version hunset)
    · rintro (hunset | hunset)
      · exact (hvalue hunset).mp (h.value hunset)
      · exact (htable hunset).mp (h.tableValue hunset)
  · intro h
    refine ⟨?_, ?_, ?_, ?_, ?_⟩
    · intro hunset
      exact (getAlgo_unset hunset alloc p).trans (h.algo hunset)
    · intro hunset
      exact (checkVersion_unset_iff hunset alloc p).mpr (h.version hunset)
    · intro hunset
      exact (hvalue hunset).mpr (h.value (.inl hunset))
    · intro hunset
      exact (htable hunset).mpr (h.value (.inr hunset))
    · intro hunset hname
      exact (writesAlgo_unset_iff hunset hname alloc p).mpr (h.algo hunset)

/-- No settings at all, and `cls` on the stack: the table has an algorithm. -/
theorem not_reportsMissing_cls :
    ¬ ReportsMissing Keyed.empty Keyed.empty "key" "t" none "key" (some (ascii "cls")) true
      (ascii "cls" ++ [0]) [0, 0, 0, 0] := by
  intro h
  exact absurd (h.algo rfl) (by decide)

end SqliteSync.Config
