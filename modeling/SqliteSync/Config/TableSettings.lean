import SqliteSync.Library.Refine
import SqliteSync.Config.Settings

/-!
# The settings of the tables as a map

A setting is read and deleted under its table, column and key, but the primary
key of `cloudsync_table_settings` leaves the column out: to set a key on one
column is to lose it on another.
-/
namespace SqliteSync.Config
open Library Store

/-- The settings as they are read: `none` for the column is a NULL argument. -/
def settingsMap (s : TableSettings) (table : String) (column : Option String) (key : String) :
    Option CString :=
  (dbutilsTableSettingsGetValue s table column key true none 0).map stringAt

/-- What a call does to a map of tables, columns and keys. -/
def setInMap (m : String → Option String → String → Option CString) (call : TableSet) :
    String → Option String → String → Option CString :=
  match call.table, call.key with
  | none, _ => m
  | some table, none => fun t c k => if lowered t = lowered table then none else m t c k
  | some table, some key => fun t c k =>
    if lowered t = lowered table ∧ lowered (c.getD "*") = lowered (call.column.getD "*") ∧ k = key
    then call.value.map stringAt else m t c k

theorem setInMap_key (m : String → Option String → String → Option CString) (table key : String)
    (column : Option String) (value : Option CString) (t : String) (c : Option String) (k : String) :
    setInMap m ⟨some table, column, some key, value⟩ t c k =
      if lowered t = lowered table ∧ lowered (c.getD "*") = lowered (column.getD "*") ∧ k = key
      then value.map stringAt else m t c k := rfl

/-- The call sets no key that has a value on another column of the table. -/
def Alone (s : TableSettings) (call : TableSet) : Prop :=
  ∀ table key value, call.table = some table → call.key = some key → call.value = some value →
    ∀ row, s.get (lowered table, key) = some row → row.value ≠ none →
      lowered row.colName = lowered (call.column.getD "*")

theorem settingsMap_eq (s : TableSettings) (table : String) (column : Option String)
    (key : String) : settingsMap s table column key =
      ((s.get (lowered table, key)).bind fun row =>
        if lowered row.colName = lowered (column.getD "*") then row.value else none).map
          fun value => stringAt (value ++ [0]) := by
  rw [settingsMap, dbutilsTableSettingsGetValue, getValue_heap, tableValue]
  cases s.get (lowered table, key) with
  | none => rfl
  | some row =>
    by_cases h : lowered row.colName = lowered (column.getD "*")
    · simp [h, Option.filter_some]
    · simp [h, Option.filter_some]

theorem settingsMap_eq_some {s : TableSettings} {table : String} {column : Option String}
    {key : String} {v : CString} (h : settingsMap s table column key = some v) :
    ∃ row, s.get (lowered table, key) = some row ∧ row.value ≠ none ∧
      lowered row.colName = lowered (column.getD "*") := by
  rw [settingsMap_eq, Option.map_eq_some_iff] at h
  rcases h with ⟨value, hvalue, -⟩
  rw [Option.bind_eq_some_iff] at hvalue
  rcases hvalue with ⟨row, hrow, hif⟩
  rw [Option.ite_none_right_eq_some] at hif
  exact ⟨row, hrow, by rw [hif.2]; exact Option.some_ne_none _, hif.1⟩

theorem settingsMap_deleteTable (s : TableSettings) (table : String) (column : Option String)
    (value : Option CString) :
    settingsMap (dbutilsTableSettingsSetKeyValue s ⟨some table, column, none, value⟩) =
      setInMap (settingsMap s) ⟨some table, column, none, value⟩ := by
  funext t c k
  simp only [settingsMap_eq, dbutilsTableSettingsSetKeyValue, setInMap, Keyed.get_deleteWhere]
  by_cases ht : lowered t = lowered table
  · simp [ht]
  · cases s.get (lowered t, k) with
    | none => simp [ht]
    | some row => simp [ht, Option.filter_some]

theorem settingsMap_deleteKey (s : TableSettings) (table key : String) (column : Option String) :
    settingsMap (dbutilsTableSettingsSetKeyValue s ⟨some table, column, some key, none⟩) =
      setInMap (settingsMap s) ⟨some table, column, some key, none⟩ := by
  funext t c k
  simp only [settingsMap_eq, dbutilsTableSettingsSetKeyValue, setInMap, Keyed.get_deleteWhere,
    Option.map_none]
  by_cases hkey : (lowered t, k) = (lowered table, key)
  · rw [Prod.mk.injEq] at hkey
    rcases hkey with ⟨ht, rfl⟩
    rw [ht]
    cases s.get (lowered table, k) with
    | none => simp
    | some row =>
      by_cases hrow : lowered row.colName = lowered (column.getD "*")
      · have hbeq : (lowered row.colName == lowered (column.getD "*")) = true :=
          beq_iff_eq.mpr hrow
        by_cases hc : lowered (c.getD "*") = lowered (column.getD "*")
        · simp [Option.filter_some, hbeq, hc]
        · have hne : lowered row.colName ≠ lowered (c.getD "*") := fun h => hc (h ▸ hrow)
          simp [Option.filter_some, hbeq, hc, hne]
      · have hbeq : (lowered row.colName == lowered (column.getD "*")) = false :=
          beq_false_of_ne hrow
        by_cases hc : lowered (c.getD "*") = lowered (column.getD "*")
        · simp [Option.filter_some, hbeq, hc, hrow]
        · simp [Option.filter_some, hbeq, hc]
  · have hbeq : ((lowered t, k) == (lowered table, key)) = false := beq_false_of_ne hkey
    have hother : ¬ (lowered t = lowered table ∧
        lowered (c.getD "*") = lowered (column.getD "*") ∧ k = key) := by
      rintro ⟨ht, -, hk⟩
      exact hkey (by rw [ht, hk])
    rw [if_neg hother]
    cases s.get (lowered t, k) with
    | none => rfl
    | some row => simp [hbeq, Option.filter_some]

/-- A key that is set is read on its column, and on no other. -/
theorem settingsMap_setKey (s : TableSettings) (table key : String) (column : Option String)
    (value : CString) (t : String) (c : Option String) (k : String) :
    settingsMap (dbutilsTableSettingsSetKeyValue s ⟨some table, column, some key, some value⟩) t c k =
      if lowered t = lowered table ∧ k = key then
        if lowered (c.getD "*") = lowered (column.getD "*") then some (stringAt value) else none
      else settingsMap s t c k := by
  simp only [settingsMap_eq, dbutilsTableSettingsSetKeyValue, Keyed.get_replace, Prod.mk.injEq]
  by_cases hkey : lowered t = lowered table ∧ k = key
  · rw [if_pos hkey, if_pos hkey, Option.bind_some]
    by_cases hc : lowered (c.getD "*") = lowered (column.getD "*")
    · rw [if_pos hc.symm, if_pos hc, Option.map_some, stringAt_idem]
    · rw [if_neg (Ne.symm hc), if_neg hc, Option.map_none]
  · rw [if_neg hkey, if_neg hkey]

/-- A call does to the settings what it does to the map exactly when it sets its key
alone. -/
theorem settingsMap_set_iff (s : TableSettings) (call : TableSet) :
    settingsMap (dbutilsTableSettingsSetKeyValue s call) = setInMap (settingsMap s) call ↔
      Alone s call := by
  rcases call with ⟨- | table, column, - | key, - | value⟩
  · exact iff_of_true rfl (by rintro _ _ _ ⟨⟩)
  · exact iff_of_true rfl (by rintro _ _ _ ⟨⟩)
  · exact iff_of_true rfl (by rintro _ _ _ ⟨⟩)
  · exact iff_of_true rfl (by rintro _ _ _ ⟨⟩)
  · exact iff_of_true (settingsMap_deleteTable s table column none) (by rintro _ _ _ - ⟨⟩)
  · exact iff_of_true (settingsMap_deleteTable s table column (some value)) (by rintro _ _ _ - ⟨⟩)
  · exact iff_of_true (settingsMap_deleteKey s table key column) (by rintro _ _ _ - - ⟨⟩)
  · constructor
    · rintro h _ _ _ ⟨⟩ ⟨⟩ ⟨⟩ row hrow hvalue
      by_contra hne
      have hcol : ¬ lowered ((some row.colName).getD "*") = lowered (column.getD "*") := hne
      have hread := congrFun (congrFun (congrFun h table) (some row.colName)) key
      rw [settingsMap_setKey, if_pos ⟨rfl, rfl⟩, if_neg hcol, setInMap_key,
        if_neg (fun h => hcol h.2.1), settingsMap_eq, hrow, Option.bind_some, Option.getD_some,
        if_pos rfl] at hread
      exact hvalue (Option.map_eq_none_iff.mp hread.symm)
    · intro h
      funext t c k
      rw [settingsMap_setKey, setInMap_key]
      by_cases hkey : lowered t = lowered table ∧ k = key
      · rw [if_pos hkey]
        by_cases hc : lowered (c.getD "*") = lowered (column.getD "*")
        · simp [hkey.1, hkey.2, hc]
        · simp only [hc, if_false, false_and, and_false]
          cases hread : settingsMap s t c k with
          | none => rfl
          | some v =>
            rcases settingsMap_eq_some hread with ⟨row, hrow, hvalue, hcol⟩
            rw [hkey.1, hkey.2] at hrow
            exact absurd (hcol.symm.trans (h table key value rfl rfl rfl row hrow hvalue)) hc
      · rw [if_neg hkey, if_neg (fun h => hkey ⟨h.1, h.2.2⟩)]

/-- Over every sequence of calls, on any settings, a read returns what was last set under
its table, column and key at every point exactly when no call of the sequence
sets a key that has a value on another column of its table. -/
theorem settings_agree_iff (s : TableSettings) (calls : List TableSet) :
    Agrees dbutilsTableSettingsSetKeyValue setInMap settingsMap s (settingsMap s) calls ↔
      Throughout dbutilsTableSettingsSetKeyValue Alone s calls :=
  agrees_iff settingsMap_set_iff s calls

/-- The algorithm of a table, then a key of the same name on one of its columns. -/
def algoOnColumn : List TableSet :=
  [⟨some "t", none, some "algo", some (ascii "cls")⟩,
    ⟨some "t", some "c", some "algo", some (ascii "x")⟩]

/-- The table loses its algorithm. -/
theorem not_agrees_algoOnColumn :
    ¬ Agrees dbutilsTableSettingsSetKeyValue setInMap settingsMap Keyed.empty
      (settingsMap Keyed.empty) algoOnColumn := by
  intro h
  have hread := congrFun (congrFun (congrFun h.last "t") none) "algo"
  exact absurd hread (by decide)

end SqliteSync.Config
