import SqliteSync.Alter.TableInfo

/-!
# What an ALTER does with the metadata

`cloudsync_begin_alter` saves the names of the primary key as
`sqlite3_get_table` returns them, and `cloudsync_finalize_alter` compares the
saved array with a new one to choose between dropping the metadata table and
compacting it. The array holds the header in slot 0, and the comparison starts there.
-/
namespace SqliteSync.Alter

/-- What `sqlite3_get_table` returns for a query of one column: the array and
its sizes. Without rows there is no header either. -/
structure GetTable where
  result : List String
  nrows : ℕ
  ncols : ℕ

def sqlite3GetTable (header : String) (values : List String) : GetTable :=
  match values with
  | [] => ⟨[], 0, 0⟩
  | v :: vs => ⟨header :: v :: vs, (v :: vs).length, 1⟩

/-- `SELECT name FROM pragma_table_info WHERE pk>0 ORDER BY pk`. -/
def primaryKeyQuery (info : TableInfo) : GetTable := sqlite3GetTable "name" info.pkNames

/-- The fields of `cloudsync_table_context` an ALTER works with. -/
structure AlterContext where
  npks : ℕ
  pkName : Option (List String)

/-- `cloudsync_begin_alter` on a registered table, with the outcome of its query. -/
def cloudsyncBeginAlter (table : AlterContext) (query : Except String GetTable) :
    Except String AlterContext :=
  match query with
  | .error errmsg => .error ("Unable to get primary keys for table (" ++ errmsg ++ ")")
  | .ok q =>
    if q.ncols ≠ 1 ∨ q.nrows ≠ table.npks then .error "Unable to get primary keys for table"
    else .ok { table with pkName := some q.result }

/-- The two things `cloudsync_finalize_alter` can do. -/
inductive MetaChange where
  | drop
  | compact
deriving DecidableEq

/-- `pk_diff`: `strcmp(table->pk_name[i], result[i])` for `i < nrows`. -/
def pkDiff (table : AlterContext) (pkName : List String) (q : GetTable) : Bool :=
  if q.nrows ≠ table.npks then true
  else (List.range q.nrows).any fun i => pkName[i]? != q.result[i]?

/-- The choice of `cloudsync_finalize_alter`. -/
def finalizeChange (table : AlterContext) (pkName : List String) (q : GetTable) :
    Except String MetaChange :=
  if q.ncols ≠ 1 then .error "SQLITE_MISUSE"
  else .ok (if pkDiff table pkName q then .drop else .compact)

/-- The choice of `cloudsync_commit_alter`, which needs the names saved at the beginning. -/
def alterChange (table : AlterContext) (q : GetTable) : Except String MetaChange :=
  match table.pkName with
  | none => .error "Unable to find table context."
  | some pkName => finalizeChange table pkName q

section
variable {table saved : AlterContext} {before after : TableInfo}

theorem cloudsyncBeginAlter_ok
    (h : cloudsyncBeginAlter table (.ok (primaryKeyQuery before)) = .ok saved) :
    before.pkNames ≠ [] ∧
      saved = ⟨before.pkNames.length, some ("name" :: before.pkNames)⟩ := by
  rw [cloudsyncBeginAlter, primaryKeyQuery] at h
  cases hnames : before.pkNames with
  | nil => simp [hnames, sqlite3GetTable] at h
  | cons v vs =>
    by_cases hsize : (v :: vs).length = table.npks
    · simp only [hnames, sqlite3GetTable, hsize, ne_eq, not_true_eq_false, or_self, if_false,
        Except.ok.injEq] at h
      exact ⟨List.cons_ne_nil v vs, by rw [← h, hsize]⟩
    · simp only [hnames, sqlite3GetTable, hsize, ne_eq, not_true_eq_false, not_false_eq_true,
        false_or, if_true] at h
      cases h

/-- The slots compared are the header and all names but the last. -/
theorem any_slot_differs (header : String) (l m : List String) (h : l.length = m.length) :
    ((List.range l.length).any fun i => (header :: m)[i]? != (header :: l)[i]?) =
      decide (l.dropLast ≠ m.dropLast) := by
  rw [Bool.eq_iff_iff, List.any_eq_true, decide_eq_true_eq, ne_eq, List.ext_getElem?_iff,
    not_forall]
  constructor
  · rintro ⟨i, hi, hne⟩
    cases i with
    | zero => simp at hne
    | succ i =>
      have hlt := List.mem_range.mp hi
      refine ⟨i, fun he => ?_⟩
      rw [List.getElem?_dropLast, List.getElem?_dropLast, if_pos (by omega), if_pos (by omega)] at he
      simp [he] at hne
  · rintro ⟨i, hne⟩
    rw [List.getElem?_dropLast, List.getElem?_dropLast, h] at hne
    by_cases hi : i < m.length - 1
    · rw [if_pos hi, if_pos hi] at hne
      refine ⟨i + 1, List.mem_range.mpr (by omega), ?_⟩
      simpa using Ne.symm hne
    · rw [if_neg hi, if_neg hi] at hne
      exact absurd rfl hne

theorem pkDiff_iff (l m : List String) (hm : m ≠ []) :
    pkDiff ⟨l.length, some ("name" :: l)⟩ ("name" :: l) (sqlite3GetTable "name" m) = true ↔
      m.length ≠ l.length ∨ m.dropLast ≠ l.dropLast := by
  cases m with
  | nil => exact absurd rfl hm
  | cons v vs =>
    unfold pkDiff
    split
    · next hsize => exact iff_of_true rfl (.inl hsize)
    · next hsize =>
      have hlen : (v :: vs).length = l.length := not_not.mp hsize
      rw [sqlite3GetTable, any_slot_differs "name" _ _ hlen, decide_eq_true_eq]
      simp only [ne_eq, hlen, not_true_eq_false, false_or]

/-- The metadata is dropped when the number of names or a name but the last differs. -/
theorem alterChange_drop
    (h : cloudsyncBeginAlter table (.ok (primaryKeyQuery before)) = .ok saved) :
    alterChange saved (primaryKeyQuery after) = .ok .drop ↔
      after.pkNames ≠ [] ∧ (after.pkNames.length ≠ before.pkNames.length ∨
        after.pkNames.dropLast ≠ before.pkNames.dropLast) := by
  rcases cloudsyncBeginAlter_ok h with ⟨-, rfl⟩
  by_cases hafter : after.pkNames = []
  · simp [alterChange, primaryKeyQuery, finalizeChange, sqlite3GetTable, hafter]
  · have hncols : (sqlite3GetTable "name" after.pkNames).ncols = 1 := by
      cases hnames : after.pkNames with
      | nil => exact absurd hnames hafter
      | cons v vs => rfl
    change finalizeChange _ ("name" :: before.pkNames) _ = _ ↔ _
    rw [primaryKeyQuery, finalizeChange, if_neg (not_not.mpr hncols), Except.ok.injEq,
      ← pkDiff_iff _ _ hafter, and_iff_right hafter]
    split
    · next hdiff => exact iff_of_true rfl hdiff
    · next hdiff => exact iff_of_false MetaChange.noConfusion hdiff

/-- The metadata is dropped exactly on a change of the primary key, if the
change leaves a primary key and is not one of its last name alone. -/
theorem alterChange_detects_iff
    (h : cloudsyncBeginAlter table (.ok (primaryKeyQuery before)) = .ok saved) :
    (alterChange saved (primaryKeyQuery after) = .ok .drop ↔ after.pkNames ≠ before.pkNames) ↔
      after.pkNames = before.pkNames ∨
        after.pkNames ≠ [] ∧ (after.pkNames.length ≠ before.pkNames.length ∨
          after.pkNames.dropLast ≠ before.pkNames.dropLast) := by
  have hsame : after.pkNames = before.pkNames →
      ¬ (after.pkNames.length ≠ before.pkNames.length ∨
        after.pkNames.dropLast ≠ before.pkNames.dropLast) := by
    rintro he (hlen | hdrop)
    · exact hlen (by rw [he])
    · exact hdrop (by rw [he])
  rw [alterChange_drop h]
  constructor
  · intro hiff
    by_cases he : after.pkNames = before.pkNames
    · exact .inl he
    · exact .inr (hiff.mpr he)
  · rintro (he | hchange)
    · exact iff_of_false (fun hc => hsame he hc.2) (not_not.mpr he)
    · exact iff_of_true hchange (fun he => hsame he hchange.2)

end

def keyedBy (name : String) : TableInfo where
  columns := [⟨name, "TEXT", true, none, 1⟩]
  names_differ := List.nodup_singleton _

theorem keyedBy_pkNames (name : String) : (keyedBy name).pkNames = [name] := by
  simp [keyedBy, TableInfo.pkNames, TableInfo.pkColumns]

/-- A second name for the only column of a primary key goes unnoticed. -/
theorem alterChange_misses_rename :
    ¬ ∀ (table saved : AlterContext) (before after : TableInfo),
      cloudsyncBeginAlter table (.ok (primaryKeyQuery before)) = .ok saved →
      (alterChange saved (primaryKeyQuery after) = .ok .drop ↔
        after.pkNames ≠ before.pkNames) := by
  intro h
  have hid := h ⟨1, none⟩ ⟨1, some ["name", "id"]⟩ (keyedBy "id") (keyedBy "uuid")
  rw [primaryKeyQuery, primaryKeyQuery, keyedBy_pkNames, keyedBy_pkNames] at hid
  have hkept := (hid rfl).mpr (by decide)
  cases hkept

def ownedItems : TableInfo where
  columns := [⟨"owner", "TEXT", true, none, 1⟩, ⟨"id", "TEXT", true, none, 2⟩]
  names_differ := by decide

theorem alterChange_detects_longer :
    (alterChange ⟨1, some ["name", "id"]⟩ (primaryKeyQuery ownedItems) = .ok .drop ↔
        ownedItems.pkNames ≠ (keyedBy "id").pkNames) ↔
      ownedItems.pkNames = (keyedBy "id").pkNames ∨
        ownedItems.pkNames ≠ [] ∧
          (ownedItems.pkNames.length ≠ (keyedBy "id").pkNames.length ∨
            ownedItems.pkNames.dropLast ≠ (keyedBy "id").pkNames.dropLast) := by
  have hbegin : cloudsyncBeginAlter ⟨1, none⟩ (.ok (primaryKeyQuery (keyedBy "id"))) =
      .ok ⟨1, some ["name", "id"]⟩ := by
    rw [primaryKeyQuery, keyedBy_pkNames]
    rfl
  exact alterChange_detects_iff hbegin

end SqliteSync.Alter
