import Mathlib
import SqliteSync.Alter.Coverage
import SqliteSync.Alter.PrimaryKey

/-!
# Committing an ALTER

`cloudsync_commit_alter` drops or compacts the metadata and initialises the table
again. The compaction compares column names as the metadata stores them, in lower
case, with the names of the schema, and keys with the base rows encoded in the
new order of the columns; the refill then creates anew whatever was removed.
-/
namespace SqliteSync.Alter
open Library Store Clock Codec

/-- What the two statements of the compaction keep: the rows of a column of the
table or a tombstone, under the key of a base row unless it is an even tombstone. -/
def survives (after : TableInfo) (base : List (List Value)) (k : Key × String) (r : MetaRow) :
    Bool :=
  (after.names.any (fun name => name == k.2) || k.2 == CLOUDSYNC_TOMBSTONE_VALUE) &&
    !((k.2 != CLOUDSYNC_TOMBSTONE_VALUE || r.colVersion % 2 != 0) &&
      !base.any fun row => k.1 == pkEncodePrikey row)

/-- How the statements of `cloudsync_commit_alter` go: the one or two that change
the metadata, those of `cloudsync_init_internal` before the refill and the
`RELEASE` after it, and those of the refill. -/
structure CommitInput where
  change : Bool
  init : Bool
  refill : RefillInput

/-- Every statement succeeds. -/
def CommitInput.sound : CommitInput := ⟨true, true, .sound⟩

section
variable (eng : Engine) (inp : CommitInput) (saved : AlterContext) (after : TableInfo)

/-- Entries for removed columns go first, then those of rows that are no more. -/
def compact (s : Tracked) : Tracked :=
  { s with
    metadata := (s.metadata.deleteWhere fun k _ =>
        !(after.names.any (fun name => name == k.2) || k.2 == CLOUDSYNC_TOMBSTONE_VALUE)).deleteWhere
      fun k r => (k.2 != CLOUDSYNC_TOMBSTONE_VALUE || r.colVersion % 2 != 0) &&
        !s.base.any fun row => k.1 == pkEncodePrikey row }

def checkUptodate (s : Tracked) : Tracked :=
  { s with data := dbVersionCheckUptodate s.view s.data }

/-- The metadata table that is dropped is created again, empty, by the
initialisation. -/
def cloudsyncFinalizeAlter (s : Tracked) : Except String Tracked :=
  let s := checkUptodate s
  match alterChange saved (primaryKeyQuery after) with
  | .error err => .error err
  | .ok .drop =>
    if inp.change then .ok { s with metadata := Keyed.empty }
    else .error "cloudsync_finalize_alter error"
  | .ok .compact =>
    if inp.change then .ok (compact after s) else .error "cloudsync_finalize_alter error"

/-- An error rolls the savepoint back. -/
def cloudsyncCommitAlter (name : String) (s : Tracked) : Except String Tracked :=
  match cloudsyncFinalizeAlter inp saved after s with
  | .error err => .error err
  | .ok s =>
    match after.dbutilsTableSanityCheck name true with
    | .error err => .error err
    | .ok () =>
      if inp.init then
        match cloudsyncRefillMetatable eng inp.refill after s with
        | (.error err, _) => .error err
        | (.ok (), s) => .ok s
      else .error "cloudsync_commit_alter error"

end

/-- The primary key of a row when the order of its columns has changed. -/
def reordered (before after : TableInfo) (row : List Value) : List Value :=
  after.pkColumns.map fun c =>
    (((before.pkColumns.map ColumnInfo.name).zip row).lookup c.name).getD .null

/-- What an ALTER leaves of the metadata `s`, where `s` has the base rows after it. -/
structure Preserved (before after : TableInfo) (s t : Tracked) : Prop where
  kept : ∀ row, row.length = before.npks → reordered before after row ∈ s.base →
    ∀ col ∈ after.colNames, ∀ r, s.metadata.get (pkEncodePrikey row, col) = some r →
      t.metadata.get (pkEncodePrikey (reordered before after row), col) = some r
  tombstones : ∀ pk r, s.metadata.get (pk, CLOUDSYNC_TOMBSTONE_VALUE) = some r →
    r.colVersion % 2 = 0 → t.metadata.get (pk, CLOUDSYNC_TOMBSTONE_VALUE) = some r
  dropped : ∀ col ∈ before.colNames, col ∉ after.names.map lowerName →
    ∀ pk, t.metadata.get (pk, col) = none
  vanished : ∀ row, row.length = after.npks → row ∉ s.base → ∀ col r,
    t.metadata.get (pkEncodePrikey row, col) = some r →
      col = CLOUDSYNC_TOMBSTONE_VALUE ∧ r.colVersion % 2 = 0
  added : ∀ col ∈ after.colNames, col ∉ before.colNames → ∀ row ∈ s.base,
    t.metadata.get (pkEncodePrikey row, col) ≠ none

section
variable (eng : Engine) (inp : RefillInput) (before after : TableInfo) (s : Tracked)

def Survivor (k : Key × String) : Prop :=
  ∃ r, s.metadata.get k = some r ∧ survives after s.base k r = true

/-- `EXCEPT` finds a base row among the survivors. -/
def FoundAgain (row : List Value) : Prop :=
  ∃ k, Survivor after s k ∧ eng.rowMatches eng.exceptSame after k.1 row = true

/-- The keys of a column when the loop over it starts: the survivors and the
insertions. -/
def startKeysAgain (col : String) : Set Key :=
  {key | Survivor after s (key, col) ∨
    ∃ other ∈ s.base, ¬ FoundAgain eng after s other ∧ key = pkEncodePrikey other}

/-- The loop over the columns writes the metadata row of the column. -/
structure FilledAgain (row : List Value) (col : String) : Prop where
  missed : Missed eng inp after col (startKeysAgain eng after s col) s.base row
  whole : 0 ∉ pkEncodePrikey row
  mark : inp.mark (pkEncodePrikey row) col = true

/-- The schema and the contents for which an ALTER preserves the metadata. -/
structure Preserving : Prop where
  /-- A surviving row has its metadata under its key in the new order, the column
  has a name in lower case, and the refill does not write it. -/
  kept : ∀ row, row.length = before.npks → reordered before after row ∈ s.base →
    ∀ col ∈ after.colNames, ∀ r, s.metadata.get (pkEncodePrikey row, col) = some r →
      s.metadata.get (pkEncodePrikey (reordered before after row), col) = some r ∧
        col ∈ after.names ∧ FoundAgain eng after s (reordered before after row) ∧
        ¬ FilledAgain eng inp after s (reordered before after row) col
  /-- A base row with an even tombstone is found. -/
  tombstones : ∀ row ∈ s.base, ∀ r,
    s.metadata.get (pkEncodePrikey row, CLOUDSYNC_TOMBSTONE_VALUE) = some r →
      r.colVersion % 2 = 0 → FoundAgain eng after s row
  /-- A row that is found has metadata for the added columns, or is filled. -/
  added : ∀ col ∈ after.colNames, col ∉ before.colNames → ∀ row ∈ s.base,
    FoundAgain eng after s row →
      Survivor after s (pkEncodePrikey row, col) ∨ FilledAgain eng inp after s row col

end
section
variable {eng : Engine} {inp : RefillInput} {before after : TableInfo} {s : Tracked}

theorem get_compact (k : Key × String) :
    (compact after s).metadata.get k = (s.metadata.get k).filter (survives after s.base k) := by
  rw [compact, Keyed.get_deleteWhere, Keyed.get_deleteWhere, Option.filter_filter]
  congr 1
  funext r
  rw [Bool.not_not]
  rfl

theorem get_compact_eq_some_iff (k : Key × String) (r : MetaRow) :
    (compact after s).metadata.get k = some r ↔
      s.metadata.get k = some r ∧ survives after s.base k r = true := by
  rw [get_compact, Option.filter_eq_some_iff]

theorem get_compact_ne_none_iff (k : Key × String) :
    (compact after s).metadata.get k ≠ none ↔ Survivor after s k := by
  rw [Option.ne_none_iff_exists']
  exact exists_congr fun r => get_compact_eq_some_iff k r

theorem known_compact_iff (row : List Value) :
    eng.known after (compact after s) row = true ↔ FoundAgain eng after s row := by
  rw [Engine.known, Keyed.existsWhere_iff]
  apply exists_congr
  intro k
  rw [get_compact_ne_none_iff, and_comm]

theorem startKeys_compact (col : String) :
    startKeys eng after (compact after s) col = startKeysAgain eng after s col := by
  ext key
  rw [startKeys, Set.mem_ofPred_eq, get_compact_ne_none_iff]
  apply or_congr_right
  apply exists_congr
  intro other
  rw [← known_compact_iff, Bool.not_eq_true]
  rfl

theorem fills_compact_iff (row : List Value) (col : String) :
    Fills eng inp after (compact after s) row col ↔ FilledAgain eng inp after s row col := by
  have hmissed : Missed eng inp after col (startKeys eng after (compact after s) col)
      (compact after s).base row ↔ Missed eng inp after col (startKeysAgain eng after s col)
        s.base row := by
    rw [startKeys_compact]
    rfl
  exact ⟨fun h => ⟨hmissed.mp h.missed, h.whole, h.mark⟩,
    fun h => ⟨hmissed.mpr h.missed, h.whole, h.mark⟩⟩

/-- A column row of a base row survives when its name is one of the schema's. -/
theorem survives_column_iff {row : List Value} (hrow : row ∈ s.base) {col : String}
    (hcol : col ≠ CLOUDSYNC_TOMBSTONE_VALUE) (r : MetaRow) :
    survives after s.base (pkEncodePrikey row, col) r = true ↔ col ∈ after.names := by
  have hbase : s.base.any (fun other => pkEncodePrikey row == pkEncodePrikey other) = true :=
    List.any_eq_true.mpr ⟨row, hrow, beq_self_eq_true _⟩
  simp [survives, hcol, hbase]

theorem survives_tombstone (pk : Key) {r : MetaRow} (hr : r.colVersion % 2 = 0) :
    survives after s.base (pk, CLOUDSYNC_TOMBSTONE_VALUE) r = true := by
  simp [survives, hr]

/-- Under the key of a row that is no more, only an even tombstone survives. -/
theorem tombstone_of_survives {row : List Value} (hlen : row.length ≤ 128) (hrow : row ∉ s.base)
    {col : String} {r : MetaRow} (h : survives after s.base (pkEncodePrikey row, col) r = true) :
    col = CLOUDSYNC_TOMBSTONE_VALUE ∧ r.colVersion % 2 = 0 := by
  have hbase : s.base.any (fun other => pkEncodePrikey row == pkEncodePrikey other) = false := by
    rw [List.any_eq_false]
    intro other hother he
    have hshort := s.base_short other hother
    have heq := pkEncodePrikey_inj (by omega) (by omega) (beq_iff_eq.mp he)
    exact hrow (heq ▸ hother)
  simp only [survives, hbase, Bool.not_false, Bool.and_true, Bool.and_eq_true, Bool.not_eq_true',
    Bool.or_eq_false_iff, bne_eq_false_iff_eq] at h
  exact h.2

theorem colName_ne_tombstone {col : String} (hcol : col ∈ after.colNames) :
    col ≠ CLOUDSYNC_TOMBSTONE_VALUE := by
  rintro rfl
  exact tombstone_notMem after hcol

theorem lowerName_lowerName (name : String) : lowerName (lowerName name) = lowerName name := by
  rw [lowerName, lowerName, lowered, lowered, String.toList_ofList, List.map_map]
  congr 2
  funext c
  exact Char.toLower_toLower_eq_toLower c

theorem lowerName_colName {col : String} (hcol : col ∈ before.colNames) : lowerName col = col := by
  rcases List.mem_map.mp hcol with ⟨c, -, rfl⟩
  exact lowerName_lowerName c.name

theorem mem_lowerNames {col : String} (hcol : col ∈ after.colNames) :
    col ∈ after.names.map lowerName := by
  rcases List.mem_map.mp hcol with ⟨c, hc, rfl⟩
  exact List.mem_map_of_mem (List.mem_map_of_mem (List.mem_of_mem_filter hc))

/-- Metadata of a column that is no more does not survive. -/
theorem mem_lowerNames_of_survives {pk : Key} {col : String} {r : MetaRow}
    (hcol : col ∈ before.colNames) (h : survives after s.base (pk, col) r = true) :
    col ∈ after.names.map lowerName := by
  rw [survives, Bool.and_eq_true, Bool.or_eq_true, List.any_eq_true] at h
  rcases h.1 with ⟨name, hname, he⟩ | he
  · rw [← lowerName_colName hcol, ← show name = col from beq_iff_eq.mp he]
    exact List.mem_map_of_mem hname
  · exact absurd (beq_iff_eq.mp he) (colName_ne_tombstone hcol)

/-- The refill writes the metadata row of a column when it does not find the row,
or fills it. -/
theorem notMem_column_iff {row : List Value} (hrow : row ∈ s.base) {col : String}
    (hcol : col ∈ after.colNames) :
    (pkEncodePrikey row, col) ∉ insertedKeys eng after (compact after s) ∪
        filledKeys eng inp after (compact after s) ↔
      FoundAgain eng after s row ∧ ¬ FilledAgain eng inp after s row col := by
  rw [Set.mem_union, not_or, mem_insertedKeys_iff (s := compact after s) hrow,
    mem_filledKeys_iff (s := compact after s) hrow, and_iff_left (Or.inl hcol), and_iff_right hcol,
    Bool.not_eq_false, known_compact_iff, fills_compact_iff]

end

/-! ## The refill after the compaction -/

section
variable {eng : Engine} {inp : RefillInput} {before after : TableInfo} {s t : Tracked} {v q : ℤ}
  (hw : Writes v q (insertedKeys eng after (compact after s) ∪
    filledKeys eng inp after (compact after s)) (compact after s) t)
include hw

/-- A row the refill did not write has survived the compaction as it was. -/
theorem get_eq_of_notMem {k : Key × String} {r : MetaRow}
    (hk : k ∉ insertedKeys eng after (compact after s) ∪ filledKeys eng inp after (compact after s)) :
    t.metadata.get k = some r ↔ s.metadata.get k = some r ∧ survives after s.base k r = true := by
  rw [hw.metadata.keep k hk, get_compact_eq_some_iff]

theorem kept_of_unwritten {row : List Value} (hrow : row ∈ s.base) {col : String}
    (hcol : col ∈ after.colNames) {r : MetaRow}
    (hget : s.metadata.get (pkEncodePrikey row, col) = some r) (hname : col ∈ after.names)
    (hfound : FoundAgain eng after s row) (hfill : ¬ FilledAgain eng inp after s row col) :
    t.metadata.get (pkEncodePrikey row, col) = some r := by
  rw [get_eq_of_notMem hw ((notMem_column_iff hrow hcol).mpr ⟨hfound, hfill⟩)]
  exact ⟨hget, (survives_column_iff hrow (colName_ne_tombstone hcol) r).mpr hname⟩

/-- Conversely, a row that was stamped earlier and is there after the refill has
survived and was not written. -/
theorem unwritten_of_kept {row : List Value} (hrow : row ∈ s.base) {col : String}
    (hcol : col ∈ after.colNames) {r : MetaRow}
    (hold : r.siteId = 0 → r.dbVersion < v ∨ r.seq < q)
    (hget : t.metadata.get (pkEncodePrikey row, col) = some r) :
    s.metadata.get (pkEncodePrikey row, col) = some r ∧ col ∈ after.names ∧
      FoundAgain eng after s row ∧ ¬ FilledAgain eng inp after s row col := by
  have hstamp : ¬ Stamped v q (pkEncodePrikey row, col) r := by
    intro h
    have hversion := h.dbVersion
    have hseq := h.seq
    have hlt := hold h.siteId
    omega
  have hnot := hw.metadata.notMem_of_get hget hstamp
  rw [get_eq_of_notMem hw hnot,
    survives_column_iff hrow (colName_ne_tombstone hcol) r] at hget
  exact ⟨hget.1, hget.2, (notMem_column_iff hrow hcol).mp hnot⟩

/-- The refill raises the even tombstone of a base row it does not find. -/
theorem tombstone_kept_iff {pk : Key} {r : MetaRow}
    (hget : s.metadata.get (pk, CLOUDSYNC_TOMBSTONE_VALUE) = some r) (hr : r.colVersion % 2 = 0) :
    t.metadata.get (pk, CLOUDSYNC_TOMBSTONE_VALUE) = some r ↔
      ∀ row ∈ s.base, pk = pkEncodePrikey row → FoundAgain eng after s row := by
  have hsurvives : (compact after s).metadata.get (pk, CLOUDSYNC_TOMBSTONE_VALUE) = some r :=
    (get_compact_eq_some_iff _ r).mpr ⟨hget, survives_tombstone pk hr⟩
  have hpresent : (compact after s).metadata.get (pk, CLOUDSYNC_TOMBSTONE_VALUE) ≠ none := by
    simp [hsurvives]
  constructor
  · rintro hkept row hrow rfl
    have hstamp : ¬ Stamped v q (pkEncodePrikey row, CLOUDSYNC_TOMBSTONE_VALUE) r := by
      intro h
      have hodd := h.alive rfl
      omega
    have hnot := hw.metadata.notMem_of_get hkept hstamp
    rw [tombstone_mem_iff (s := compact after s) hrow, not_and', Bool.not_eq_false, known_compact_iff] at hnot
    exact hnot (.inr hpresent)
  · intro hfound
    rw [hw.metadata.keep, hsurvives]
    rintro (⟨row, hrow, hnew, hkey⟩ | hfilled)
    · rw [← Bool.not_eq_true, known_compact_iff] at hnew
      exact hnew (hfound row hrow hkey.1)
    · exact tombstone_notMem after hfilled.1

theorem added_iff {row : List Value} (hrow : row ∈ s.base) {col : String}
    (hcol : col ∈ after.colNames) :
    t.metadata.get (pkEncodePrikey row, col) ≠ none ↔ (FoundAgain eng after s row →
      Survivor after s (pkEncodePrikey row, col) ∨ FilledAgain eng inp after s row col) := by
  rw [hw.columns_iff hrow hcol, get_compact_ne_none_iff, fills_compact_iff, ← Bool.not_eq_true,
    known_compact_iff]
  tauto

/-- Metadata of dropped columns is never there after a refill. -/
theorem dropped_get_eq_none {col : String} (hcol : col ∈ before.colNames)
    (hgone : col ∉ after.names.map lowerName) (pk : Key) : t.metadata.get (pk, col) = none := by
  have hnot : (pk, col) ∉ insertedKeys eng after (compact after s) ∪
      filledKeys eng inp after (compact after s) := by
    rintro (⟨row, -, -, hkey⟩ | hfilled)
    · rcases hkey.2 with hmem | ⟨he, -⟩
      · exact hgone (mem_lowerNames hmem)
      · exact colName_ne_tombstone hcol he
    · exact hgone (mem_lowerNames hfilled.1)
  rw [Option.eq_none_iff_forall_ne_some]
  intro r hr
  rw [get_eq_of_notMem hw hnot] at hr
  exact hgone (mem_lowerNames_of_survives hcol hr.2)

theorem vanished_tombstone {row : List Value} (hlen : row.length ≤ 128) (hrow : row ∉ s.base)
    {col : String} {r : MetaRow} (hr : t.metadata.get (pkEncodePrikey row, col) = some r) :
    col = CLOUDSYNC_TOMBSTONE_VALUE ∧ r.colVersion % 2 = 0 := by
  have hnot : (pkEncodePrikey row, col) ∉ insertedKeys eng after (compact after s) ∪
      filledKeys eng inp after (compact after s) := by
    rintro (⟨other, hother, -, hkey⟩ | ⟨-, -, other, hmissed, hkey⟩)
    · have hshort := s.base_short other hother
      exact hrow (pkEncodePrikey_inj (by omega) (by omega) hkey.1 ▸ hother)
    · have hother := hmissed.mem
      have he := ((cPrefix_eq_iff (s.base_short other hother) hlen).mp hkey.symm).1
      exact hrow (he ▸ hother)
  rw [get_eq_of_notMem hw hnot] at hr
  exact tombstone_of_survives hlen hrow hr.2

end

section
variable {eng : Engine} {inp : CommitInput} {table saved : AlterContext} {before after : TableInfo}
  {name : String} {s t : Tracked}

theorem alterChange_same
    (hb : cloudsyncBeginAlter table (.ok (primaryKeyQuery before)) = .ok saved)
    (hpk : after.pkNames = before.pkNames) :
    alterChange saved (primaryKeyQuery after) = .ok .compact := by
  have hnames : after.pkNames ≠ [] := by
    rw [hpk]
    exact (cloudsyncBeginAlter_ok hb).1
  have hdrop : alterChange saved (primaryKeyQuery after) ≠ .ok .drop := by
    intro h
    rcases ((alterChange_drop hb).mp h).2 with hlen | hinit
    · exact hlen (by rw [hpk])
    · exact hinit (by rw [hpk])
  rcases cloudsyncBeginAlter_ok hb with ⟨-, rfl⟩
  have hncols : (primaryKeyQuery after).ncols = 1 := by
    rw [primaryKeyQuery]
    cases hquery : after.pkNames with
    | nil => exact absurd hquery hnames
    | cons name names => rfl
  change finalizeChange _ ("name" :: before.pkNames) _ ≠ _ at hdrop
  change finalizeChange _ ("name" :: before.pkNames) _ = _
  rw [finalizeChange, if_neg (not_not.mpr hncols)] at hdrop ⊢
  split at hdrop
  · exact absurd rfl hdrop
  · next hsame => rw [if_neg hsame]

theorem cloudsyncCommitAlter_ok_iff
    (hchange : alterChange saved (primaryKeyQuery after) = .ok .compact) :
    cloudsyncCommitAlter eng inp saved after name s = .ok t ↔
      inp.change = true ∧ after.dbutilsTableSanityCheck name true = .ok () ∧ inp.init = true ∧
        (cloudsyncRefillMetatable eng inp.refill after (compact after (checkUptodate s))).1 =
          .ok () ∧
        t = (cloudsyncRefillMetatable eng inp.refill after (compact after (checkUptodate s))).2 := by
  rw [cloudsyncCommitAlter, cloudsyncFinalizeAlter, hchange]
  cases inp.change with
  | false => simp
  | true =>
    cases hsanity : after.dbutilsTableSanityCheck name true with
    | error err => simp
    | ok _ =>
      cases inp.init with
      | false => simp
      | true =>
        rcases hrefill : cloudsyncRefillMetatable eng inp.refill after
          (compact after (checkUptodate s)) with ⟨outcome, u⟩
        cases outcome with
        | error err => simp [hrefill]
        | ok _ => simp [hrefill, eq_comm]

/-- The state of the clock has no part in what is filled. -/
theorem filledAgain_checkUptodate (row : List Value) (col : String) :
    FilledAgain eng inp.refill after (checkUptodate s) row col ↔
      FilledAgain eng inp.refill after s row col :=
  ⟨fun h => ⟨h.missed, h.whole, h.mark⟩, fun h => ⟨h.missed, h.whole, h.mark⟩⟩

/-- No row of this connection carries a stamp the refill could hand out. -/
def StampedBefore (after : TableInfo) (s : Tracked) : Prop :=
  ∀ k r, s.metadata.get k = some r → r.siteId = 0 →
    r.dbVersion < ((compact after (checkUptodate s)).dbVersionNext CLOUDSYNC_VALUE_NOTSET).1 ∨
      r.seq < (compact after (checkUptodate s)).data.seq

/-- An ALTER that keeps the primary key preserves the metadata on these schemas
and contents, and on no others unless a row it writes anew comes out as it was. -/
theorem cloudsyncCommitAlter_preserves
    (hb : cloudsyncBeginAlter table (.ok (primaryKeyQuery before)) = .ok saved)
    (hpk : after.pkNames = before.pkNames)
    (hc : cloudsyncCommitAlter eng inp saved after name s = .ok t) :
    (Preserving eng inp.refill before after s → Preserved before after s t) ∧
      (StampedBefore after s → Preserved before after s t →
        Preserving eng inp.refill before after s) := by
  rcases (cloudsyncCommitAlter_ok_iff (alterChange_same hb hpk)).mp hc with
    ⟨-, hsanity, -, hok, rfl⟩
  have hshort := (TableInfo.npks_of_accepted hsanity).2
  have hw := cloudsyncRefillMetatable_writes eng inp.refill after
    (compact after (checkUptodate s)) hok
  constructor
  · intro h
    refine ⟨?_, ?_, ?_, ?_, ?_⟩
    · intro row hlen hrow col hcol r hget
      rcases h.kept row hlen hrow col hcol r hget with ⟨hmoved, hname, hfound, hfill⟩
      rw [← filledAgain_checkUptodate] at hfill
      exact kept_of_unwritten hw hrow hcol hmoved hname hfound hfill
    · intro pk r hget hr
      apply (tombstone_kept_iff hw hget hr).mpr
      rintro row hrow rfl
      exact h.tombstones row hrow r hget hr
    · exact fun col hcol hgone pk => dropped_get_eq_none hw hcol hgone pk
    · exact fun row hlen hrow col r hr => vanished_tombstone hw (by omega) hrow hr
    · intro col hcol hnew row hrow
      have hadded := h.added col hcol hnew row hrow
      rw [← filledAgain_checkUptodate] at hadded
      exact (added_iff hw hrow hcol).mpr hadded
  · intro hbefore h
    refine ⟨?_, ?_, ?_⟩
    · intro row hlen hrow col hcol r hget
      rw [← filledAgain_checkUptodate]
      exact unwritten_of_kept hw hrow hcol (hbefore _ r hget)
        (h.kept row hlen hrow col hcol r hget)
    · intro row hrow r hget hr
      exact (tombstone_kept_iff hw hget hr).mp (h.tombstones _ r hget hr) row hrow rfl
    · intro col hcol hnew row hrow
      rw [← filledAgain_checkUptodate]
      exact (added_iff hw hrow hcol).mp (h.added col hcol hnew row hrow)

end

/-! ## A regular ALTER -/

section
variable {eng : Engine} {before after : TableInfo} {s : Tracked}

theorem map_lookup_zip {names : List String} (hnodup : names.Nodup) {row : List Value}
    (hlen : row.length = names.length) :
    (names.map fun n => ((names.zip row).lookup n).getD .null) = row := by
  induction names generalizing row with
  | nil => exact (List.length_eq_zero_iff.mp hlen).symm
  | cons name names ih =>
    cases row with
    | nil => cases hlen
    | cons v row =>
      rw [List.nodup_cons] at hnodup
      have hrest : ∀ n ∈ names, (((name :: names).zip (v :: row)).lookup n).getD .null =
          ((names.zip row).lookup n).getD .null := by
        intro n hn
        have hne : (n == name) = false := by
          rw [beq_eq_false_iff_ne]
          rintro rfl
          exact hnodup.1 hn
        rw [List.zip_cons_cons, List.lookup_cons, hne]
      rw [List.map_cons, List.map_congr_left hrest, ih hnodup.2 (Nat.succ.inj hlen)]
      simp

theorem TableInfo.pkColumns_nodup (info : TableInfo) :
    (info.pkColumns.map ColumnInfo.name).Nodup := by
  have hnames : (info.columns.map ColumnInfo.name).Nodup := by
    have hlowered := info.names_differ
    rw [← Function.comp_def (f := fun name => lowered name) (g := ColumnInfo.name),
      ← List.map_map] at hlowered
    exact .of_map _ hlowered
  exact hnames.sublist (List.filter_sublist.map _)

theorem reordered_eq_self
    (hnames : after.pkColumns.map ColumnInfo.name = before.pkColumns.map ColumnInfo.name)
    {row : List Value} (hlen : row.length = before.npks) : reordered before after row = row := by
  have hmap : reordered before after row = (after.pkColumns.map ColumnInfo.name).map
      fun n => (((before.pkColumns.map ColumnInfo.name).zip row).lookup n).getD .null := by
    rw [reordered, List.map_map]
    rfl
  rw [hmap, hnames]
  apply map_lookup_zip before.pkColumns_nodup
  rw [hlen, List.length_map, TableInfo.npks]

/-- Columns are added in lower case to a table whose primary key is declared in
the order of its columns and whose keys have no zero byte. -/
theorem preserving_of_ordered
    (hpositions : after.positions = List.range' 1 after.npks) (hnpks : after.npks ≤ 128)
    (hnames : after.pkColumns.map ColumnInfo.name = before.pkColumns.map ColumnInfo.name)
    (hlower : ∀ col ∈ after.colNames, col ∈ after.names)
    (hlen : ∀ row ∈ s.base, row.length = after.npks)
    (hexcept : ∀ row ∈ s.base, ∀ i, ∀ v ∈ row, eng.exceptSame i v v = true)
    (hjoin : ∀ row ∈ s.base, ∀ i, ∀ v ∈ row, eng.joinSame i v v = true)
    (hdiffer : ∀ row ∈ s.base, ∀ other ∈ s.base,
      eng.rowMatches eng.joinSame after (pkEncodePrikey other) row = true → other = row)
    (hnew : ∀ col ∈ after.colNames, col ∉ before.colNames → ∀ pk, s.metadata.get (pk, col) = none)
    (hwhole : ∀ row ∈ s.base, 0 ∉ pkEncodePrikey row) :
    Preserving eng .sound before after s := by
  have hfound : ∀ row ∈ s.base, ∀ col, Survivor after s (pkEncodePrikey row, col) →
      FoundAgain eng after s row :=
    fun row hrow col h => ⟨_, h,
      rowMatches_pkEncodePrikey hpositions hnpks (hlen row hrow) (hexcept row hrow)⟩
  refine ⟨?_, ?_, ?_⟩
  · intro row hbefore hrow col hcol r hget
    rw [reordered_eq_self hnames hbefore] at hrow ⊢
    have hsurvivor : Survivor after s (pkEncodePrikey row, col) :=
      ⟨r, hget, (survives_column_iff hrow (colName_ne_tombstone hcol) r).mpr (hlower col hcol)⟩
    refine ⟨hget, hlower col hcol, hfound row hrow col hsurvivor, ?_⟩
    rintro ⟨⟨earlier, later, -, hmiss⟩, -, -⟩
    exact hmiss ⟨_, subset_keysAfter earlier (.inl hsurvivor),
      rowMatches_pkEncodePrikey hpositions hnpks (hlen row hrow) (hjoin row hrow)⟩
  · intro row hrow r hget hr
    exact hfound row hrow _ ⟨r, hget, survives_tombstone _ hr⟩
  · intro col hcol hadded row hrow hknown
    -- the row comes once, and no key but its own matches it
    rcases List.eq_append_cons_of_mem hrow with ⟨earlier, later, hsplit, hfirst⟩
    refine .inr ⟨⟨earlier, later, hsplit, ?_⟩, hwhole row hrow, rfl⟩
    rintro ⟨key, hkey, hmatch⟩
    rcases mem_keysAfter hkey with (⟨r, hget, -⟩ | ⟨other, hother, hmissed, rfl⟩) |
      ⟨other, hbefore, rfl⟩
    · rw [hnew col hcol hadded key] at hget
      cases hget
    · exact hmissed (hdiffer row hrow other hother hmatch ▸ hknown)
    · have hother : other ∈ s.base := hsplit ▸ List.mem_append_left _ hbefore
      rw [(cPrefix_eq_self_iff _).mpr (hwhole other hother)] at hmatch
      exact hfirst (hdiffer row hrow other hother hmatch ▸ hbefore)

end

/-- `CREATE TABLE t (id NOT NULL PRIMARY KEY, a)`. -/
def narrow : TableInfo where
  columns := [⟨"id", "", true, none, 1⟩, ⟨"a", "", false, none, 0⟩]
  names_differ := by decide

/-- Two rows, the second of which came from another site, and a row that was deleted. -/
def wideRows : Tracked where
  data := cloudsyncContextCreate
  dataVersion := 1
  others := []
  base := [[.integer 1], [.integer 2]]
  base_short := by decide
  metadata := ⟨[((pkEncodePrikey [.integer 1], "a"), ⟨3, 1, 0, 0⟩),
    ((pkEncodePrikey [.integer 2], "a"), ⟨1, 2, 1, 0⟩),
    ((pkEncodePrikey [.integer 3], CLOUDSYNC_TOMBSTONE_VALUE), ⟨2, 1, 0, 1⟩)],
    by decide +kernel⟩

theorem narrow_begin : cloudsyncBeginAlter ⟨1, none⟩ (.ok (primaryKeyQuery narrow)) =
    .ok ⟨1, some ["name", "id"]⟩ := by
  have hnames : narrow.pkNames = ["id"] := by
    simp [narrow, TableInfo.pkNames, TableInfo.pkColumns]
  rw [primaryKeyQuery, hnames]
  rfl

theorem wide_pkNames : widened.pkNames = narrow.pkNames := rfl

theorem wide_commit :
    cloudsyncCommitAlter plainEngine .sound ⟨1, some ["name", "id"]⟩ widened "t" wideRows =
      .ok (cloudsyncRefillMetatable plainEngine .sound widened
        (compact widened (checkUptodate wideRows))).2 := by
  exact (cloudsyncCommitAlter_ok_iff (alterChange_same narrow_begin wide_pkNames)).mpr
    ⟨rfl, rfl, rfl, cloudsyncRefillMetatable_sound plainEngine widened _, rfl⟩

theorem wide_preserving : Preserving plainEngine .sound narrow widened wideRows := by
  have hcolumns : widened.colNames = ["a", "b"] := by decide +kernel
  apply preserving_of_ordered
  · decide +kernel
  · decide +kernel
  · decide +kernel
  · decide +kernel
  · decide +kernel
  · intro row _ i v _
    exact decide_eq_true rfl
  · intro row _ i v _
    exact decide_eq_true rfl
  · decide +kernel
  · intro col hcol hnew pk
    rw [Keyed.get_eq_none_iff]
    intro r hr
    have hnames : ∀ k ∈ wideRows.metadata.rows,
        k.1.2 ∉ widened.colNames ∨ k.1.2 ∈ narrow.colNames := by
      decide +kernel
    rcases hnames _ hr with h | h
    · exact h hcol
    · exact hnew h
  · decide +kernel

theorem wide_stampedBefore : StampedBefore widened wideRows := by
  intro k r hget _
  have hrows : ∀ row ∈ wideRows.metadata.rows, row.2.dbVersion <
      ((compact widened (checkUptodate wideRows)).dbVersionNext CLOUDSYNC_VALUE_NOTSET).1 := by
    decide +kernel
  exact .inl (hrows _ ((Keyed.get_eq_some_iff _ k r).mp hget))

/-- Both directions on the table to which `b` was added. -/
theorem wide_preserves :
    Preserved narrow widened wideRows (cloudsyncRefillMetatable plainEngine .sound widened
        (compact widened (checkUptodate wideRows))).2 ∧
      Preserving plainEngine .sound narrow widened wideRows := by
  have hiff := cloudsyncCommitAlter_preserves narrow_begin wide_pkNames wide_commit
  have hpreserved := hiff.1 wide_preserving
  exact ⟨hpreserved, hiff.2 wide_stampedBefore hpreserved⟩

/-- `CREATE TABLE t (id NOT NULL PRIMARY KEY, Name)`. -/
def named : TableInfo where
  columns := [⟨"id", "", true, none, 1⟩, ⟨"Name", "", false, none, 0⟩]
  names_differ := by decide

/-- One row, whose name was set three times. -/
def namedRow : Tracked where
  data := cloudsyncContextCreate
  dataVersion := 0
  others := []
  base := [[.integer 1]]
  base_short := by decide
  metadata := ⟨[((pkEncodePrikey [.integer 1], "name"), ⟨3, 1, 0, 0⟩)], List.nodup_singleton _⟩

theorem named_begin : cloudsyncBeginAlter ⟨1, none⟩ (.ok (primaryKeyQuery named)) =
    .ok ⟨1, some ["name", "id"]⟩ := by
  have hnames : named.pkNames = ["id"] := by
    simp [named, TableInfo.pkNames, TableInfo.pkColumns]
  rw [primaryKeyQuery, hnames]
  rfl

theorem named_commit :
    cloudsyncCommitAlter plainEngine .sound ⟨1, some ["name", "id"]⟩ named "t" namedRow =
      .ok (cloudsyncRefillMetatable plainEngine .sound named
        (compact named (checkUptodate namedRow))).2 := by
  exact (cloudsyncCommitAlter_ok_iff (alterChange_same named_begin rfl)).mpr
    ⟨rfl, rfl, rfl, cloudsyncRefillMetatable_sound plainEngine named _, rfl⟩

/-- An ALTER of any kind resets the metadata of a column whose name has a capital. -/
theorem cloudsyncCommitAlter_resets :
    ¬ ∀ (eng : Engine) (table saved : AlterContext) (before after : TableInfo) (name : String)
        (s t : Tracked),
      cloudsyncBeginAlter table (.ok (primaryKeyQuery before)) = .ok saved →
      after.pkNames = before.pkNames →
      cloudsyncCommitAlter eng .sound saved after name s = .ok t → Preserved before after s t := by
  intro h
  have hpreserved := h plainEngine _ _ named named "t" namedRow _ named_begin rfl named_commit
  have hkept := hpreserved.kept [.integer 1] rfl (by decide +kernel) "name" (by decide +kernel)
    ⟨3, 1, 0, 0⟩ (by decide +kernel)
  revert hkept
  decide +kernel

end SqliteSync.Alter
