import SqliteSync.Library.Transcript
import SqliteSync.Config.Session
import SqliteSync.Config.TableSlots

/-!
# The tables are a set

The slots of a context stand for a finite map from names, with the case ignored, to
tables. Every call does to the map what it says, the slots in use stay below the count,
the count below the slots there are, and the slots inside their block of memory: it is
asked for in sizes of a table, where a pointer is stored.
-/
namespace SqliteSync.Config
open Library Store

theorem toLowerByte_idem (c : UInt8) : toLowerByte (toLowerByte c) = toLowerByte c := by
  by_cases hc : 65 ≤ c && c ≤ 90
  · have hlow : ¬ (65 ≤ c + 32 && c + 32 ≤ 90) = true := by
      simp only [Bool.and_eq_true, decide_eq_true_eq, UInt8.le_iff_toNat_le] at hc ⊢
      have hadd : (c + 32).toNat = c.toNat + 32 := by
        rw [UInt8.toNat_add]
        exact Nat.mod_eq_of_lt (by have h90 : c.toNat ≤ 90 := hc.2; simp; omega)
      rw [hadd]
      have h65 : 65 ≤ c.toNat := hc.1
      rintro ⟨-, h⟩
      have h90 : c.toNat + 32 ≤ 90 := h
      omega
    rw [toLowerByte, toLowerByte, if_pos hc, if_neg hlow]
  · rw [toLowerByte, toLowerByte, if_neg hc, if_neg hc]

@[simp] theorem cloudsyncStringDup_idem (name : CString) :
    cloudsyncStringDup (cloudsyncStringDup name) = cloudsyncStringDup name := by
  rw [cloudsyncStringDup, cloudsyncStringDup, List.map_map]
  congr 1
  funext c
  exact toLowerByte_idem c

theorem strcaseeq_iff (a b : CString) :
    strcaseeq a b = true ↔ cloudsyncStringDup a = cloudsyncStringDup b := by
  rw [strcaseeq, beq_iff_eq]
  rfl

/-- The name of a table, as `strcasecmp` sees it. -/
def RegisteredTable.key (table : RegisteredTable) : CString := cloudsyncStringDup table.name

theorem RegisteredTable.strcaseeq_name (table : RegisteredTable) (tableName : CString) :
    strcaseeq table.name tableName = decide (table.key = cloudsyncStringDup tableName) := by
  rw [Bool.eq_iff_iff, strcaseeq_iff, decide_eq_true_eq]
  rfl

/-! ## What is set up -/

theorem foldl_cb_name (columns : List (CString × ℤ)) (table : RegisteredTable) :
    (columns.foldl tableAddToContextCb table).name = table.name ∧
      (columns.foldl tableAddToContextCb table).pkName = table.pkName := by
  induction columns generalizing table with
  | nil => exact ⟨rfl, rfl⟩
  | cons column columns ih => exact ih (tableAddToContextCb table column)

/-- A new table has the name it was added under, in lower case, and no `pk_name`. -/
theorem AddInput.setup_name {inp : AddInput} {table : RegisteredTable}
    (h : inp.setup = some table) :
    table.name = cloudsyncStringDup inp.tableName ∧ table.pkName = false := by
  simp only [AddInput.setup, Option.bind_eq_bind, Option.bind_eq_some_iff] at h
  obtain ⟨-, -, npks, -, -, -, -, -, ncols, -, -, -, -, -, h⟩ := h
  split_ifs at h with hncols
  · simp only [Option.bind_eq_some_iff] at h
    obtain ⟨-, -, -, -, h⟩ := h
    cases h
    exact foldl_cb_name inp.columns _
  · cases h
    exact ⟨rfl, rfl⟩

theorem AddInput.setup_key {inp : AddInput} {table : RegisteredTable}
    (h : inp.setup = some table) : table.key = cloudsyncStringDup inp.tableName := by
  rw [RegisteredTable.key, (AddInput.setup_name h).1, cloudsyncStringDup_idem]

/-! ## The block of memory -/

theorem Platform.sizeofTable_cases (p : Platform) :
    (p.pointer = 4 ∧ p.sizeofTable = 100) ∨ (p.pointer = 8 ∧ p.sizeofTable = 192) := by
  rcases p with ⟨pointer, rfl | rfl⟩
  · exact .inl ⟨rfl, rfl⟩
  · exact .inr ⟨rfl, rfl⟩

namespace ContextTables
variable (p : Platform) (r : ContextTables)

/-- What holds of the slots between two calls: they are as many as counted, those in use
are below the count, no two have one name, and they are inside their block. The last two
bounds keep the counts and the sizes in their types. -/
structure WellFormed : Prop where
  length : r.tables.length = r.tablesAlloc
  below : ∀ (i : ℕ) table, r.tables[i]? = some (some table) → i < r.tablesCount
  count : r.tablesCount ≤ r.tablesAlloc
  distinct : Slots.Distinct RegisteredTable.key r.tables
  bytes : p.pointer * r.tablesAlloc ≤ r.bytes
  least : CLOUDSYNC_INIT_NTABLES ≤ r.tablesAlloc
  granted : p.sizeofTable * r.tablesAlloc ≤
    SQLITE_MAX_ALLOCATION_SIZE + p.sizeofTable * CLOUDSYNC_INIT_NTABLES

def entry (name : CString) : Option RegisteredTable :=
  Slots.lookup RegisteredTable.key r.tables name

variable {p r}

/-- The bytes that are asked for do not wrap around. -/
theorem WellFormed.growBytes_eq (h : r.WellFormed p) :
    r.growBytes p = p.sizeofTable * r.tablesAlloc + CLOUDSYNC_INIT_NTABLES := by
  have hgranted := h.granted
  rw [SQLITE_MAX_ALLOCATION_SIZE, CLOUDSYNC_INIT_NTABLES] at hgranted
  rw [growBytes, CLOUDSYNC_INIT_NTABLES]
  apply Nat.mod_eq_of_lt
  rcases p.sizeofTable_cases with ⟨hpointer, hsize⟩ | ⟨hpointer, hsize⟩ <;>
    rw [hsize] at hgranted ⊢ <;> rw [hpointer] <;> omega

/-- They are more than the slots take, as a table is larger than a pointer. -/
theorem WellFormed.growBytes_enough (h : r.WellFormed p) :
    p.pointer * (r.tablesAlloc + CLOUDSYNC_INIT_NTABLES) ≤ r.growBytes p := by
  have hleast := h.least
  rw [h.growBytes_eq]
  rw [CLOUDSYNC_INIT_NTABLES] at hleast ⊢
  rcases p.sizeofTable_cases with ⟨hpointer, hsize⟩ | ⟨hpointer, hsize⟩ <;>
    rw [hpointer, hsize] <;> omega

theorem wellFormed_create (p : Platform) : (cloudsyncContextCreate p).WellFormed p where
  length := List.length_replicate
  below := fun i table h => by
    have hmem := List.mem_of_getElem? h
    cases List.eq_of_mem_replicate hmem
  count := Nat.zero_le _
  distinct := fun i j a b h => by
    have hmem := List.mem_of_getElem? h
    cases List.eq_of_mem_replicate hmem
  bytes := (Nat.mul_comm _ _).le
  least := le_rfl
  granted := Nat.le_add_left _ _

/-! ## The calls -/

theorem WellFormed.tableLookup_eq (h : r.WellFormed p) (tableName : CString) :
    r.tableLookup tableName = r.entry (cloudsyncStringDup tableName) := by
  rw [entry, ← Slots.lookup_take h.below, tableLookup, Slots.lookup]
  simp only [RegisteredTable.strcaseeq_name]

theorem find_eq (tableName : CString) :
    ((r.tables.take r.tablesCount).findIdx? fun slot =>
        slot.any fun table => strcaseeq table.name tableName) =
      Slots.find RegisteredTable.key (r.tables.take r.tablesCount)
        (cloudsyncStringDup tableName) := by
  simp only [RegisteredTable.strcaseeq_name, Slots.find]

theorem WellFormed.of_tables (h : r.WellFormed p) {s : ContextTables}
    (hlength : s.tables.length = r.tables.length) (halloc : s.tablesAlloc = r.tablesAlloc)
    (hbytes : s.bytes = r.bytes) (hcount : s.tablesCount ≤ s.tablesAlloc)
    (hbelow : ∀ (i : ℕ) table, s.tables[i]? = some (some table) → i < s.tablesCount)
    (hdistinct : Slots.Distinct RegisteredTable.key s.tables) : s.WellFormed p where
  length := by rw [hlength, h.length, halloc]
  below := hbelow
  count := hcount
  distinct := hdistinct
  bytes := by rw [halloc, hbytes]; exact h.bytes
  least := by rw [halloc]; exact h.least
  granted := by rw [halloc]; exact h.granted

/-- A removed table is not found, and the others are. -/
theorem WellFormed.tableRemove (h : r.WellFormed p) (tableName : CString) :
    (r.tableRemove tableName).2.WellFormed p ∧
      (r.tableRemove tableName).2.entry =
        Function.update r.entry (cloudsyncStringDup tableName) none := by
  rw [ContextTables.tableRemove, find_eq]
  cases hfind : Slots.find RegisteredTable.key (r.tables.take r.tablesCount)
      (cloudsyncStringDup tableName) with
  | none =>
    refine ⟨h, ?_⟩
    have hnone : r.entry (cloudsyncStringDup tableName) = none := by
      rw [entry, ← Slots.lookup_take h.below]
      exact Slots.find_eq_none_iff.mp hfind
    exact (Function.update_eq_self_iff.mpr hnone.symm).symm
  | some i =>
    obtain ⟨table, hi, hkey⟩ := Slots.find_eq_some hfind
    have hslot : r.tables[i]? = some (some table) := by
      rw [List.getElem?_take] at hi
      split_ifs at hi
      exact hi
    constructor
    · refine h.of_tables List.length_set rfl rfl h.count ?_ (h.distinct.set_none i)
      intro j t hj
      rw [List.getElem?_set] at hj
      split_ifs at hj with hij hlt
      · cases hj
      · exact h.below j t hj
    · funext name
      rw [entry, h.distinct.lookup_set_none hslot, hkey, Function.update_apply]
      rfl

theorem WellFormed.cloudsyncTerminate (h : r.WellFormed p) :
    r.cloudsyncTerminate.WellFormed p ∧ r.cloudsyncTerminate.entry = fun _ => none := by
  have hcount : r.tablesCount ≤ r.tables.length := h.length ▸ h.count
  have hempty : ∀ table, some table ∉ r.cloudsyncTerminate.tables := by
    intro table hmem
    rw [ContextTables.cloudsyncTerminate, List.mem_append] at hmem
    rcases hmem with hold | hrest
    · cases List.eq_of_mem_replicate hold
    · obtain ⟨i, hi⟩ := List.mem_iff_getElem?.mp hrest
      rw [List.getElem?_drop] at hi
      have hlt := h.below _ table hi
      omega
  constructor
  · refine h.of_tables ?_ rfl rfl h.count ?_ ?_
    · rw [ContextTables.cloudsyncTerminate, List.length_append, List.length_replicate,
        List.length_drop]
      omega
    · exact fun i table hi => absurd (List.mem_of_getElem? hi) (hempty table)
    · exact fun i j a b hi => absurd (List.mem_of_getElem? hi) (hempty a)
  · funext name
    exact Slots.lookup_eq_none_iff.mpr fun table hmem => absurd hmem (hempty table)

theorem WellFormed.reserve (h : r.WellFormed p) {inp : AddInput} {s : ContextTables}
    (hs : r.reserve p inp = some s) :
    s.WellFormed p ∧ s.tablesCount < s.tablesAlloc ∧ s.entry = r.entry := by
  rw [ContextTables.reserve] at hs
  split_ifs at hs with hfull hgranted
  · cases hs
    have henough := h.growBytes_enough
    have hsize := h.growBytes_eq
    have hcount := h.count
    have hnew : 0 < CLOUDSYNC_INIT_NTABLES := by decide
    refine ⟨⟨?_, ?_, ?_, h.distinct.append_none _, henough, ?_, ?_⟩, ?_, ?_⟩
    · simp only [List.length_append, List.length_replicate, h.length]
    · intro i table hi
      rcases Nat.lt_or_ge i r.tables.length with hlt | hge
      · rw [List.getElem?_append_left hlt] at hi
        exact h.below i table hi
      · rw [List.getElem?_append_right hge] at hi
        have hmem := List.mem_of_getElem? hi
        cases List.eq_of_mem_replicate hmem
    · exact hcount.trans (Nat.le_add_right _ _)
    · exact Nat.le_add_left _ _
    · have hmax := hgranted.2.2
      rw [hsize] at hmax
      rw [Nat.mul_add]
      omega
    · exact hcount.trans_lt (Nat.lt_add_of_pos_right hnew)
    · funext name
      exact Slots.lookup_append_none _ name
  · cases hs
    exact ⟨h, by omega, rfl⟩

theorem WellFormed.exists_free (h : r.WellFormed p) (hroom : r.tablesCount < r.tablesAlloc) :
    ∃ i, (r.tables.take r.tablesAlloc).findIdx? Option.isNone = some i ∧
      i ≤ r.tablesCount ∧ r.tables[i]? = some none := by
  rw [← h.length, List.take_length]
  have hlt : r.tablesCount < r.tables.length := h.length.symm ▸ hroom
  have hfree : r.tables[r.tablesCount]? = some none := by
    cases hslot : r.tables[r.tablesCount] with
    | none => rw [List.getElem?_eq_getElem hlt, hslot]
    | some table =>
      have hbelow := h.below r.tablesCount table (by rw [List.getElem?_eq_getElem hlt, hslot])
      omega
  cases hfind : r.tables.findIdx? Option.isNone with
  | none =>
    rw [List.findIdx?_eq_none_iff] at hfind
    cases hfind none (List.mem_of_getElem? hfree)
  | some i =>
    obtain ⟨hi, hnone, hfirst⟩ := List.findIdx?_eq_some_iff_getElem.mp hfind
    refine ⟨i, rfl, ?_, ?_⟩
    · by_contra hlater
      have hbusy := hfirst r.tablesCount (by omega)
      rw [List.getElem?_eq_getElem hlt, Option.some.injEq] at hfree
      rw [hfree] at hbusy
      exact hbusy rfl
    · rw [List.getElem?_eq_getElem hi, Option.isNone_iff_eq_none.mp hnone]

/-- A table under a new name is found afterwards, and the others as before. -/
theorem WellFormed.place (h : r.WellFormed p) (hroom : r.tablesCount < r.tablesAlloc)
    {table : RegisteredTable} (hnew : r.entry table.key = none) :
    (r.place table).WellFormed p ∧
      (r.place table).entry = Function.update r.entry table.key (some table) := by
  obtain ⟨i, hfind, hi, hslot⟩ := h.exists_free hroom
  have hfresh := Slots.lookup_eq_none_iff.mp hnew
  have hplace : r.place table =
      { r with
        tables := r.tables.set i (some table)
        tablesCount :=
          if (r.tablesCount : ℤ) - 1 < i then r.tablesCount + 1 else r.tablesCount } := by
    rw [ContextTables.place, hfind]
  rw [hplace]
  constructor
  · refine h.of_tables List.length_set rfl rfl ?_ ?_ (h.distinct.set_some hfresh)
    · dsimp only
      split_ifs <;> omega
    · intro j t hj
      dsimp only at hj ⊢
      rw [List.getElem?_set] at hj
      split_ifs at hj with hij hlt
      · split_ifs <;> omega
      · have hold := h.below j t hj
        split_ifs <;> omega
  · funext name
    rw [entry, h.distinct.lookup_set_some hslot hfresh, Function.update_apply]
    rfl

theorem WellFormed.tableAddToContext (h : r.WellFormed p) (inp : AddInput) :
    (r.tableAddToContext p inp).2.WellFormed p ∧
      (r.tableAddToContext p inp).2.entry =
        if (r.tableAddToContext p inp).1 then
          Function.update r.entry (cloudsyncStringDup inp.tableName)
            ((r.entry (cloudsyncStringDup inp.tableName)).or inp.setup)
        else r.entry := by
  rw [ContextTables.tableAddToContext, h.tableLookup_eq]
  cases hentry : r.entry (cloudsyncStringDup inp.tableName) with
  | some table =>
    refine ⟨h, ?_⟩
    rw [if_pos rfl, Option.some_or]
    exact (Function.update_eq_self_iff.mpr hentry.symm).symm
  | none =>
    rw [Option.none_or]
    cases hreserve : r.reserve p inp with
    | none => exact ⟨h, (if_neg Bool.false_ne_true).symm⟩
    | some s =>
      obtain ⟨hs, hroom, hsame⟩ := h.reserve hreserve
      cases hsetup : inp.setup with
      | none =>
        refine ⟨hs, hsame.trans ?_⟩
        exact (if_neg Bool.false_ne_true).symm
      | some table =>
        have hkey := AddInput.setup_key hsetup
        rw [← hkey, ← hsame] at hentry
        obtain ⟨hplaced, hfound⟩ := hs.place hroom hentry
        refine ⟨hplaced, ?_⟩
        rw [if_pos rfl, ← hkey, ← hsame]
        exact hfound

/-- A call succeeds where the table is there, or every step of it succeeds. -/
theorem WellFormed.tableAddToContext_fst_iff (h : r.WellFormed p) (inp : AddInput) :
    (r.tableAddToContext p inp).1 = true ↔
      ((r.entry (cloudsyncStringDup inp.tableName)).or inp.setup).isSome ∧
        (r.entry (cloudsyncStringDup inp.tableName) = none → (r.reserve p inp).isSome) := by
  rw [ContextTables.tableAddToContext, h.tableLookup_eq]
  cases r.entry (cloudsyncStringDup inp.tableName) with
  | some table => simp
  | none => cases r.reserve p inp <;> cases inp.setup <;> simp

end ContextTables

/-- What the calls and their results do to the tables by name. -/
def tablesAfter (tables : CString → Option RegisteredTable) :
    TableCall × Bool → CString → Option RegisteredTable
  | (.add inp, true) =>
    Function.update tables (cloudsyncStringDup inp.tableName)
      ((tables (cloudsyncStringDup inp.tableName)).or inp.setup)
  | (.add _, false) => tables
  | (.remove name, _) => Function.update tables (cloudsyncStringDup name) none
  | (.terminate, _) => fun _ => none

namespace ContextTables
variable {p : Platform} {r : ContextTables}

/-- Every call keeps the slots well formed, and does to the tables by name what it says. -/
theorem WellFormed.step (h : r.WellFormed p) (c : TableCall) :
    (r.step p c).2.WellFormed p ∧
      (r.step p c).2.entry = tablesAfter r.entry (c, (r.step p c).1) := by
  cases c with
  | add inp =>
    obtain ⟨hwell, hentry⟩ := h.tableAddToContext inp
    refine ⟨hwell, hentry.trans ?_⟩
    rw [ContextTables.step]
    cases (r.tableAddToContext p inp).1 with
    | false => exact if_neg Bool.false_ne_true
    | true => exact if_pos rfl
  | remove name => exact h.tableRemove name
  | terminate => exact h.cloudsyncTerminate

end ContextTables

/-! ## Runs -/

def Adds (name : CString) : TableCall × Bool → Prop
  | (.add inp, true) => strcaseeq inp.tableName name = true
  | _ => False

def Removes (name : CString) : TableCall × Bool → Prop
  | (.remove tableName, _) => strcaseeq tableName name = true
  | (.terminate, _) => True
  | (.add _, _) => False

/-- Every step of an add succeeds: where more slots are needed there is memory for them,
and the table can be set up. -/
def ContextTables.Addable (p : Platform) (r : ContextTables) (inp : AddInput) : Prop :=
  (r.tablesAlloc ≤ r.tablesCount + 1 →
    inp.realloc = true ∧ r.growBytes p ≤ SQLITE_MAX_ALLOCATION_SIZE) ∧ inp.setup.isSome

/-- A table is found exactly under the names that were added and not removed since, and
every add whose steps succeed adds. No two tables have one name, the slots in use are
below the count and the count below the slots there are, and the block has the bytes of
its slots, as the next one will. -/
structure IsTableSet (p : Platform) (r : ContextTables) (log : List (TableCall × Bool)) :
    Prop where
  lookup : ∀ name, (r.tableLookup name).isSome ↔ Stands (Adds name) (Removes name) log
  added : ∀ inp : AddInput, (r.tableAddToContext p inp).1 = true ↔
    (r.tableLookup inp.tableName).isSome ∨ r.Addable p inp
  found : ∀ name table, r.tableLookup name = some table → strcaseeq table.name name = true
  distinct : ∀ (i j : ℕ) (t u : RegisteredTable), r.tables[i]? = some (some t) →
    r.tables[j]? = some (some u) → strcaseeq t.name u.name = true → i = j
  below : ∀ (i : ℕ) table, r.tables[i]? = some (some table) → i < r.tablesCount
  count : r.tablesCount ≤ r.tablesAlloc
  slots : r.tables.length = r.tablesAlloc
  bytes : p.pointer * r.tablesAlloc ≤ r.bytes
  growth : p.pointer * (r.tablesAlloc + CLOUDSYNC_INIT_NTABLES) ≤ r.growBytes p

namespace ContextTables
variable {p : Platform} {r : ContextTables}

theorem WellFormed.step_lookup (h : r.WellFormed p) (c : TableCall) (name : CString) :
    (((r.step p c).2.tableLookup name).isSome ↔ Adds name (c, (r.step p c).1) ∨
      (r.tableLookup name).isSome ∧ ¬ Removes name (c, (r.step p c).1)) := by
  obtain ⟨hwell, hentry⟩ := h.step c
  rw [hwell.tableLookup_eq, h.tableLookup_eq, hentry]
  cases c with
  | add inp =>
    cases hresult : (r.step p (.add inp)).1 with
    | false => simp [tablesAfter, Adds, Removes]
    | true =>
      have hfound := ((h.tableAddToContext_fst_iff inp).mp hresult).1
      simp only [tablesAfter, Adds, Removes, not_false_eq_true, and_true, strcaseeq_iff]
      by_cases hname : cloudsyncStringDup name = cloudsyncStringDup inp.tableName
      · rw [hname, Function.update_self]
        exact iff_of_true hfound (.inl rfl)
      · rw [Function.update_of_ne hname, or_iff_right (Ne.symm hname)]
  | remove tableName =>
    simp only [tablesAfter, Adds, Removes, false_or, strcaseeq_iff]
    by_cases hname : cloudsyncStringDup name = cloudsyncStringDup tableName
    · rw [hname, Function.update_self]
      exact iff_of_false Bool.false_ne_true fun hkept => hkept.2 rfl
    · rw [Function.update_of_ne hname, and_iff_left (Ne.symm hname)]
  | terminate => simp [tablesAfter, Adds, Removes]

theorem WellFormed.reserve_isSome_iff (h : r.WellFormed p) (inp : AddInput) :
    (r.reserve p inp).isSome ↔ (r.tablesAlloc ≤ r.tablesCount + 1 →
      inp.realloc = true ∧ r.growBytes p ≤ SQLITE_MAX_ALLOCATION_SIZE) := by
  have hpos : 0 < r.growBytes p := by
    rw [h.growBytes_eq, CLOUDSYNC_INIT_NTABLES]
    omega
  rw [ContextTables.reserve]
  split_ifs with hfull hgrant
  · exact iff_of_true rfl fun _ => ⟨hgrant.1, hgrant.2.2⟩
  · exact iff_of_false Bool.false_ne_true fun hgranted =>
      hgrant ⟨(hgranted hfull).1, hpos, (hgranted hfull).2⟩
  · exact iff_of_true rfl fun hfull' => absurd hfull' hfull

/-- An add succeeds where the table is there, or every step of it succeeds. -/
theorem WellFormed.tableAddToContext_iff (h : r.WellFormed p) (inp : AddInput) :
    (r.tableAddToContext p inp).1 = true ↔
      (r.tableLookup inp.tableName).isSome ∨ r.Addable p inp := by
  rw [h.tableAddToContext_fst_iff, h.tableLookup_eq, Addable, h.reserve_isSome_iff]
  cases r.entry (cloudsyncStringDup inp.tableName) with
  | some table => simp
  | none => simp [and_comm]

theorem wellFormed_of_calls (p : Platform) (calls : List TableCall) :
    (finalState (ContextTables.step p) (cloudsyncContextCreate p) calls).WellFormed p :=
  finalState_invariant (I := fun r : ContextTables => r.WellFormed p)
    (fun _ c h => (h.step c).1) (wellFormed_create p) calls

/-- After any calls on a new context the slots are the set of the tables that were added
and not removed since. -/
theorem isTableSet_of_calls (p : Platform) (calls : List TableCall) :
    IsTableSet p (finalState (ContextTables.step p) (cloudsyncContextCreate p) calls)
      (transcript (ContextTables.step p) (cloudsyncContextCreate p) calls) := by
  have hwell := wellFormed_of_calls p calls
  refine ⟨fun name => ?_, hwell.tableAddToContext_iff, fun name table hfound => ?_, ?_,
    hwell.below, hwell.count, hwell.length, hwell.bytes, hwell.growBytes_enough⟩
  · have hcreate : ((cloudsyncContextCreate p).tableLookup name).isSome = false := by
      rw [tableLookup, cloudsyncContextCreate, List.take_zero]
      rfl
    rw [holds_finalState_iff (I := fun r : ContextTables => r.WellFormed p)
      (Q := fun r => (r.tableLookup name).isSome = true) (fun _ c h => (h.step c).1)
      (fun _ c h => h.step_lookup c name) (wellFormed_create p) calls, hcreate]
    simp only [Bool.false_eq_true, false_and, or_false]
  · rw [hwell.tableLookup_eq] at hfound
    exact (strcaseeq_iff _ _).mpr (Slots.mem_of_lookup hfound).2
  · intro i j t u ht hu hname
    exact hwell.distinct i j t u ht hu ((strcaseeq_iff _ _).mp hname)

/-- An add of a table with one key and no other column, under a name of two bytes. -/
def addNumbered (i : ℕ) : TableCall :=
  .add ⟨[UInt8.ofNat (97 + i / 16), UInt8.ofNat (97 + i % 16)], .crdtCls, true, true, some 1,
    some 0, true, true, [], .ok⟩

/-- More tables than the first block has slots for. -/
theorem isTableSet_of_calls_many : ∃ r : ContextTables, r.tablesCount = 130 ∧ r.tablesAlloc = 256 ∧
    IsTableSet ⟨8, .inr rfl⟩ r
      (transcript (ContextTables.step ⟨8, .inr rfl⟩) (cloudsyncContextCreate ⟨8, .inr rfl⟩)
        ((List.range 130).map addNumbered)) := by
  refine ⟨_, ?_, ?_, isTableSet_of_calls ⟨8, .inr rfl⟩ ((List.range 130).map addNumbered)⟩
  · decide +kernel
  · decide +kernel

end ContextTables

/-! ## The tables of a session -/

/-- The names of the tables, which differ even with the case ignored. -/
structure TableNames (ι : Type) where
  name : ι → CString
  name_inj : ∀ i j, strcaseeq (name i) (name j) = true → i = j

namespace TableNames
variable {ι : Type} (names : TableNames ι)

/-- The tables as a session has them: whether each is there, and its `pk_name` set. -/
def tablesOf (tables : CString → Option RegisteredTable) (t : ι) : Option Bool :=
  (tables (cloudsyncStringDup (names.name t))).map RegisteredTable.pkName

variable {p : Platform} {r : ContextTables}

theorem cloudsyncTerminate_tables (h : r.WellFormed p) (s : Session ι) :
    s.cloudsyncTerminate.data.tables = names.tablesOf r.cloudsyncTerminate.entry := by
  rw [h.cloudsyncTerminate.2]
  rfl

variable [DecidableEq ι]

theorem tablesOf_update (tables : CString → Option RegisteredTable) (t : ι)
    (table : Option RegisteredTable) :
    names.tablesOf (Function.update tables (cloudsyncStringDup (names.name t)) table) =
      Function.update (names.tablesOf tables) t (table.map RegisteredTable.pkName) := by
  funext i
  rw [tablesOf]
  by_cases hi : i = t
  · subst hi
    rw [Function.update_self, Function.update_self]
  · have hne : cloudsyncStringDup (names.name i) ≠ cloudsyncStringDup (names.name t) := fun he =>
      hi (names.name_inj i t ((strcaseeq_iff _ _).mpr he))
    rw [Function.update_of_ne hi, Function.update_of_ne hne]
    rfl

variable {names} {s : Session ι}

/-- The session of a context with well-formed slots adds a table as the slots do. -/
theorem tableAddToContext_tables (h : r.WellFormed p)
    (hs : s.data.tables = names.tablesOf r.entry) {inp : InitInput ι} {add : AddInput}
    (htable : add.tableName = names.name inp.table)
    (hadd : inp.addable = (r.tableAddToContext p add).1) :
    (s.tableAddToContext inp).2.data.tables =
      names.tablesOf (r.tableAddToContext p add).2.entry := by
  have hresult := h.tableAddToContext_fst_iff add
  rw [(h.tableAddToContext add).2, Session.tableAddToContext]
  rw [htable] at hresult ⊢
  have hthere : s.data.tables inp.table =
      (r.entry (cloudsyncStringDup (names.name inp.table))).map RegisteredTable.pkName := by
    rw [hs]
    rfl
  cases hentry : r.entry (cloudsyncStringDup (names.name inp.table)) with
  | some table =>
    rw [hentry, Option.map_some] at hthere
    have hkept : Function.update r.entry (cloudsyncStringDup (names.name inp.table))
        (some table) = r.entry := Function.update_eq_self_iff.mpr hentry.symm
    rw [if_pos (by rw [hthere]; exact Option.some_ne_none _), Option.some_or, hkept, ite_self]
    exact hs
  | none =>
    rw [hentry, Option.map_none] at hthere
    rw [hentry, Option.none_or] at hresult
    rw [if_neg (not_not.mpr hthere), hadd, Option.none_or]
    cases hadded : (r.tableAddToContext p add).1 with
    | false =>
      rw [if_neg Bool.false_ne_true, if_neg Bool.false_ne_true]
      exact hs
    | true =>
      obtain ⟨table, hsetup⟩ := Option.isSome_iff_exists.mp (hresult.mp hadded).1
      rw [if_pos rfl, if_pos rfl, hsetup, names.tablesOf_update, ← hs, Option.map_some,
        (AddInput.setup_name hsetup).2]
      rfl

theorem setTable_none_tables (h : r.WellFormed p)
    (hs : s.data.tables = names.tablesOf r.entry) (t : ι) :
    (s.setTable t none).data.tables = names.tablesOf (r.tableRemove (names.name t)).2.entry := by
  rw [(h.tableRemove (names.name t)).2, names.tablesOf_update, ← hs]
  rfl

end TableNames
end SqliteSync.Config
