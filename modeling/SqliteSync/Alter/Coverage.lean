import Mathlib.Data.List.TakeWhile
import SqliteSync.Alter.Idempotent

/-!
# What a refill leaves complete

A row that `EXCEPT` does not find is inserted with all its metadata. A row it
finds depends on what the metadata holds under its own key: the loop over the
columns fills a key only if it can be read as a C string, and nothing raises the
causal length of a row that was deleted.
-/
namespace SqliteSync.Alter
open Library Store Clock Codec

theorem cPrefix_eq_self_iff (pk : Key) : cPrefix pk = pk ↔ 0 ∉ pk := by
  rw [cPrefix, List.takeWhile_eq_self_iff]
  constructor
  · intro h hmem
    exact absurd (h 0 hmem) (by decide)
  · intro h b hb
    rw [bne_iff_ne]
    rintro rfl
    exact h hb

theorem cPrefix_eq_iff {row other : List Value} (h : row.length ≤ 128) (h' : other.length ≤ 128) :
    cPrefix (pkEncodePrikey row) = pkEncodePrikey other ↔ row = other ∧ 0 ∉ pkEncodePrikey row := by
  constructor
  · intro he
    have hsplit := List.takeWhile_append_dropWhile (p := fun b : UInt8 => b != 0)
      (l := pkEncodePrikey row)
    rw [← cPrefix, he] at hsplit
    have hrest := pkEncodePrikey_append_eq (by omega) (by omega) hsplit
    rw [hrest, List.append_nil] at hsplit
    refine ⟨(pkEncodePrikey_inj (by omega) (by omega) hsplit).symm, ?_⟩
    rw [← cPrefix_eq_self_iff, he, hsplit]
  · rintro ⟨rfl, hzero⟩
    exact (cPrefix_eq_self_iff _).mpr hzero

section
variable (eng : Engine) (inp : RefillInput) (info : TableInfo) (s : Tracked)

/-- Every base row has its metadata under its key and is alive, and nothing was
created under another key. -/
structure Covered (t : Tracked) : Prop where
  columns : ∀ row ∈ s.base, ∀ col ∈ info.colNames, t.metadata.get (pkEncodePrikey row, col) ≠ none
  alive : ∀ row ∈ s.base, t.metaLocalCl (pkEncodePrikey row) % 2 = 1
  own : ∀ k, t.metadata.get k ≠ none → s.metadata.get k = none →
    ∃ row ∈ s.base, k.1 = pkEncodePrikey row

/-- The loop over the columns creates the metadata row of a column under the key
of the row: the join misses the row when its turn comes, the key has no zero byte,
and the call succeeds. -/
structure Fills (row : List Value) (col : String) : Prop where
  missed : Missed eng inp info col (startKeys eng info s col) s.base row
  whole : 0 ∉ pkEncodePrikey row
  mark : inp.mark (pkEncodePrikey row) col = true

/-- A row that `EXCEPT` finds: each of its columns has metadata or is filled, and
it is not deleted. -/
structure Settled (row : List Value) : Prop where
  columns : ∀ col ∈ info.colNames,
    s.metadata.get (pkEncodePrikey row, col) ≠ none ∨ Fills eng inp info s row col
  alive : ∀ r, s.metadata.get (pkEncodePrikey row, CLOUDSYNC_TOMBSTONE_VALUE) = some r →
    r.colVersion % 2 = 1
  present : info.colNames = [] → ∃ col, s.metadata.get (pkEncodePrikey row, col) ≠ none

/-- No key is cut for the row, or only one that was there before. -/
def CutsNothing (row : List Value) : Prop :=
  ∀ col ∈ info.colNames, Missed eng inp info col (startKeys eng info s col) s.base row →
    inp.mark (cPrefix (pkEncodePrikey row)) col = true →
      0 ∉ pkEncodePrikey row ∨ s.metadata.get (cPrefix (pkEncodePrikey row), col) ≠ none

variable {eng inp info s}

theorem mem_insertKeys_iff {row other : List Value} (hrow : row ∈ s.base) (hother : other ∈ s.base)
    (col : String) : (pkEncodePrikey row, col) ∈ insertKeys info s other ↔
      other = row ∧ (col ∈ info.colNames ∨ col = CLOUDSYNC_TOMBSTONE_VALUE ∧
        (info.colNames = [] ∨ s.metadata.get (pkEncodePrikey row, col) ≠ none)) := by
  rw [insertKeys, Set.mem_ofPred_eq]
  apply and_congr_left
  intro _
  constructor
  · intro he
    have h1 := s.base_short row hrow
    have h2 := s.base_short other hother
    exact (pkEncodePrikey_inj (by omega) (by omega) he).symm
  · rintro rfl
    rfl

theorem mem_insertedKeys_iff {row : List Value} (hrow : row ∈ s.base) (col : String) :
    (pkEncodePrikey row, col) ∈ insertedKeys eng info s ↔ eng.known info s row = false ∧
      (col ∈ info.colNames ∨ col = CLOUDSYNC_TOMBSTONE_VALUE ∧
        (info.colNames = [] ∨ s.metadata.get (pkEncodePrikey row, col) ≠ none)) := by
  constructor
  · rintro ⟨other, hother, hnew, hmem⟩
    rcases (mem_insertKeys_iff hrow hother col).mp hmem with ⟨rfl, hcol⟩
    exact ⟨hnew, hcol⟩
  · rintro ⟨hnew, hcol⟩
    exact ⟨row, hrow, hnew, (mem_insertKeys_iff hrow hrow col).mpr ⟨rfl, hcol⟩⟩

theorem mem_filledKeys_iff {row : List Value} (hrow : row ∈ s.base) (col : String) :
    (pkEncodePrikey row, col) ∈ filledKeys eng inp info s ↔
      col ∈ info.colNames ∧ Fills eng inp info s row col := by
  constructor
  · rintro ⟨hcol, hmark, other, hmissed, he⟩
    rcases (cPrefix_eq_iff (s.base_short other hmissed.mem) (s.base_short row hrow)).mp he.symm with
      ⟨rfl, hzero⟩
    exact ⟨hcol, hmissed, hzero, hmark⟩
  · rintro ⟨hcol, hfills⟩
    refine ⟨hcol, hfills.mark, row, hfills.missed, ?_⟩
    exact ((cPrefix_eq_self_iff _).mpr hfills.whole).symm

/-! ## After the refill -/

section
variable {t : Tracked}

theorem Writes.columns_iff {v q : ℤ}
    (h : Writes v q (insertedKeys eng info s ∪ filledKeys eng inp info s) s t) {row : List Value}
    (hrow : row ∈ s.base) {col : String} (hcol : col ∈ info.colNames) :
    t.metadata.get (pkEncodePrikey row, col) ≠ none ↔
      s.metadata.get (pkEncodePrikey row, col) ≠ none ∨ eng.known info s row = false ∨
        Fills eng inp info s row col := by
  rw [h.metadata.get_ne_none_iff, Set.mem_union, mem_insertedKeys_iff hrow, mem_filledKeys_iff hrow,
    and_iff_right hcol, and_iff_left (.inl hcol)]

theorem tombstone_mem_iff {row : List Value} (hrow : row ∈ s.base) :
    (pkEncodePrikey row, CLOUDSYNC_TOMBSTONE_VALUE) ∈
        insertedKeys eng info s ∪ filledKeys eng inp info s ↔
      eng.known info s row = false ∧ (info.colNames = [] ∨
        s.metadata.get (pkEncodePrikey row, CLOUDSYNC_TOMBSTONE_VALUE) ≠ none) := by
  rw [Set.mem_union, mem_insertedKeys_iff hrow, mem_filledKeys_iff hrow]
  simp [tombstone_notMem]

theorem Writes.alive_of_new {v q : ℤ}
    (h : Writes v q (insertedKeys eng info s ∪ filledKeys eng inp info s) s t) {row : List Value}
    (hrow : row ∈ s.base) (hnew : eng.known info s row = false) :
    t.metaLocalCl (pkEncodePrikey row) % 2 = 1 := by
  rw [Tracked.metaLocalCl]
  by_cases hmem : (pkEncodePrikey row, CLOUDSYNC_TOMBSTONE_VALUE) ∈
      insertedKeys eng info s ∪ filledKeys eng inp info s
  · rcases h.metadata.stamped _ hmem with ⟨r, hget, hstamp, -⟩
    rw [hget]
    exact hstamp.alive rfl
  · have hnone : t.metadata.get (pkEncodePrikey row, CLOUDSYNC_TOMBSTONE_VALUE) = none := by
      rw [h.metadata.keep _ hmem]
      rw [tombstone_mem_iff hrow, not_and, not_or, not_not] at hmem
      exact (hmem hnew).2
    have hcols : info.colNames ≠ [] := by
      rw [tombstone_mem_iff hrow, not_and, not_or] at hmem
      exact (hmem hnew).1
    rcases List.exists_mem_of_ne_nil _ hcols with ⟨col, hcol⟩
    have hexists : t.metaPkexists (pkEncodePrikey row) = true :=
      (metaPkexists_iff t _).mpr ⟨col, (h.columns_iff hrow hcol).mpr (.inr (.inl hnew))⟩
    rw [hnone]
    dsimp only
    rw [if_pos hexists]
    rfl

theorem Writes.tombstone_of_known {v q : ℤ}
    (h : Writes v q (insertedKeys eng info s ∪ filledKeys eng inp info s) s t) {row : List Value}
    (hrow : row ∈ s.base) (hknown : eng.known info s row = true) :
    t.metadata.get (pkEncodePrikey row, CLOUDSYNC_TOMBSTONE_VALUE) =
      s.metadata.get (pkEncodePrikey row, CLOUDSYNC_TOMBSTONE_VALUE) := by
  apply h.metadata.keep
  rw [tombstone_mem_iff hrow, hknown]
  simp

theorem Writes.alive_of_known_iff {v q : ℤ}
    (h : Writes v q (insertedKeys eng info s ∪ filledKeys eng inp info s) s t) {row : List Value}
    (hrow : row ∈ s.base) (hknown : eng.known info s row = true)
    (hcolumns : ∀ col ∈ info.colNames, t.metadata.get (pkEncodePrikey row, col) ≠ none) :
    t.metaLocalCl (pkEncodePrikey row) % 2 = 1 ↔
      (∀ r, s.metadata.get (pkEncodePrikey row, CLOUDSYNC_TOMBSTONE_VALUE) = some r →
        r.colVersion % 2 = 1) ∧
      (info.colNames = [] → ∃ col, s.metadata.get (pkEncodePrikey row, col) ≠ none) := by
  rw [Tracked.metaLocalCl, h.tombstone_of_known hrow hknown]
  cases htomb : s.metadata.get (pkEncodePrikey row, CLOUDSYNC_TOMBSTONE_VALUE) with
  | some r =>
    constructor
    · intro hodd
      refine ⟨?_, fun _ => ⟨CLOUDSYNC_TOMBSTONE_VALUE, by simp [htomb]⟩⟩
      rintro r' ⟨⟩
      exact hodd
    · exact fun hs => hs.1 r rfl
  | none =>
    have hexists : t.metaPkexists (pkEncodePrikey row) = true ↔
        (info.colNames = [] → ∃ col, s.metadata.get (pkEncodePrikey row, col) ≠ none) := by
      rw [metaPkexists_iff]
      by_cases hcols : info.colNames = []
      · simp only [hcols, forall_const]
        apply exists_congr
        intro col
        rw [h.metadata.get_ne_none_iff, Set.mem_union, mem_insertedKeys_iff hrow,
          mem_filledKeys_iff hrow, hknown]
        simp [hcols]
      · rcases List.exists_mem_of_ne_nil _ hcols with ⟨col, hcol⟩
        exact iff_of_true ⟨col, hcolumns col hcol⟩ (fun hnil => absurd hnil hcols)
    rw [← hexists]
    by_cases hpk : t.metaPkexists (pkEncodePrikey row) = true <;> simp [hpk]

theorem Writes.own_iff {v q : ℤ}
    (h : Writes v q (insertedKeys eng info s ∪ filledKeys eng inp info s) s t) :
    (∀ k, t.metadata.get k ≠ none → s.metadata.get k = none →
        ∃ row ∈ s.base, k.1 = pkEncodePrikey row) ↔
      ∀ row ∈ s.base, CutsNothing eng inp info s row := by
  constructor
  · intro hown row hrow col hcol hmissed hmark
    rw [or_iff_not_imp_right, not_not]
    intro hnone
    have hmem : (cPrefix (pkEncodePrikey row), col) ∈
        insertedKeys eng info s ∪ filledKeys eng inp info s :=
      .inr ⟨hcol, hmark, row, hmissed, rfl⟩
    rcases hown _ ((h.metadata.get_ne_none_iff _).mpr (.inr hmem)) hnone with ⟨other, hother, he⟩
    exact ((cPrefix_eq_iff (s.base_short row hrow) (s.base_short other hother)).mp he).2
  · intro hcuts k hget hnone
    rcases (h.metadata.get_ne_none_iff k).mp hget with hne | ⟨row, hrow, -, hkey, -⟩ |
      ⟨hcol, hmark, row, hmissed, hkey⟩
    · exact absurd hnone hne
    · exact ⟨row, hrow, hkey⟩
    · refine ⟨row, hmissed.mem, ?_⟩
      rw [hkey] at hmark
      rcases hcuts row hmissed.mem k.2 hcol hmissed hmark with hwhole | hne
      · rw [hkey, (cPrefix_eq_self_iff _).mpr hwhole]
      · rw [← hkey] at hne
        exact absurd hnone hne

end

/-- A refill that succeeds is complete exactly when every row it finds is settled
and no key is cut at a zero byte. -/
theorem cloudsyncRefillMetatable_covered_iff
    (hok : (cloudsyncRefillMetatable eng inp info s).1 = .ok ()) :
    Covered info s (cloudsyncRefillMetatable eng inp info s).2 ↔
      ∀ row ∈ s.base, (eng.known info s row = true → Settled eng inp info s row) ∧
        CutsNothing eng inp info s row := by
  have hw := cloudsyncRefillMetatable_writes eng inp info s hok
  generalize (cloudsyncRefillMetatable eng inp info s).2 = t at hw
  constructor
  · intro hcov row hrow
    refine ⟨fun hknown => ?_, hw.own_iff.mp hcov.own row hrow⟩
    have halive := (hw.alive_of_known_iff hrow hknown (hcov.columns row hrow)).mp
      (hcov.alive row hrow)
    refine ⟨fun col hcol => ?_, halive.1, halive.2⟩
    have hcolumn := (hw.columns_iff hrow hcol).mp (hcov.columns row hrow col hcol)
    rw [hknown] at hcolumn
    simpa using hcolumn
  · intro h
    have hcolumns : ∀ row ∈ s.base, ∀ col ∈ info.colNames,
        t.metadata.get (pkEncodePrikey row, col) ≠ none := by
      intro row hrow col hcol
      apply (hw.columns_iff hrow hcol).mpr
      cases hknown : eng.known info s row with
      | false => exact .inr (.inl rfl)
      | true => exact (((h row hrow).1 hknown).columns col hcol).imp_right .inr
    refine ⟨hcolumns, fun row hrow => ?_, hw.own_iff.mpr fun row hrow => (h row hrow).2⟩
    cases hknown : eng.known info s row with
    | false => exact hw.alive_of_new hrow hknown
    | true =>
      have hsettled := (h row hrow).1 hknown
      exact (hw.alive_of_known_iff hrow hknown (hcolumns row hrow)).mpr
        ⟨hsettled.alive, hsettled.present⟩

end

/-- The row of the example above: `EXCEPT` inserts it, and the loop fills it once more. -/
theorem swappedRow_covered_iff :
    Covered swappedKey swappedRow
        (cloudsyncRefillMetatable plainEngine .sound swappedKey swappedRow).2 ↔
      ∀ row ∈ swappedRow.base, (plainEngine.known swappedKey swappedRow row = true →
          Settled plainEngine .sound swappedKey swappedRow row) ∧
        CutsNothing plainEngine .sound swappedKey swappedRow row :=
  cloudsyncRefillMetatable_covered_iff
    (cloudsyncRefillMetatable_sound plainEngine swappedKey swappedRow)

/-- `CREATE TABLE t (a NOT NULL, b NOT NULL, c, d, PRIMARY KEY (b, a))`, to which
`d` was just added. -/
def swappedWidened : TableInfo where
  columns := [⟨"a", "", true, none, 2⟩, ⟨"b", "", true, none, 1⟩, ⟨"c", "", false, none, 0⟩,
    ⟨"d", "", false, none, 0⟩]
  names_differ := by decide

/-- Two rows, each found by the key of the other, in the order of the primary key. -/
def swappedRows : Tracked where
  data := cloudsyncContextCreate
  dataVersion := 0
  others := []
  base := [[.integer 2, .integer 1], [.integer 1, .integer 2]]
  base_short := by decide
  metadata := ⟨[((pkEncodePrikey [.integer 1, .integer 2], "c"), ⟨1, 1, 0, 0⟩),
    ((pkEncodePrikey [.integer 2, .integer 1], "c"), ⟨1, 1, 0, 1⟩)], by decide +kernel⟩

/-- The metadata row written for the first of them keeps the second from having one. -/
example : let s := (cloudsyncRefillMetatable plainEngine .sound swappedWidened swappedRows).2
    s.metadata.get (pkEncodePrikey [.integer 2, .integer 1], "d") ≠ none ∧
      s.metadata.get (pkEncodePrikey [.integer 1, .integer 2], "d") = none := by
  decide +kernel

/-- `CREATE TABLE t (id NOT NULL PRIMARY KEY, a, b)`, to which `b` was just added. -/
def widened : TableInfo where
  columns := [⟨"id", "", true, none, 1⟩, ⟨"a", "", false, none, 0⟩, ⟨"b", "", false, none, 0⟩]
  names_differ := by decide

/-- One row whose key has a zero byte, with metadata for `a`. -/
def widenedRow : Tracked where
  data := cloudsyncContextCreate
  dataVersion := 0
  others := []
  base := [[.integer 256]]
  base_short := by decide
  metadata := ⟨[((pkEncodePrikey [.integer 256], "a"), ⟨1, 1, 0, 0⟩)], List.nodup_singleton _⟩

/-- The metadata of the new column comes under a key cut at its zero byte. -/
theorem cloudsyncRefillMetatable_cuts :
    ¬ ∀ (eng : Engine) (info : TableInfo) (s : Tracked),
      (cloudsyncRefillMetatable eng .sound info s).1 = .ok () →
      Covered info s (cloudsyncRefillMetatable eng .sound info s).2 := by
  intro h
  have hcov := h plainEngine widened widenedRow
    (cloudsyncRefillMetatable_sound plainEngine widened widenedRow)
  have hcolumn := hcov.columns [.integer 256] (.head _) "b" (by decide +kernel)
  revert hcolumn
  decide +kernel

end SqliteSync.Alter
