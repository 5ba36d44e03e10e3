import SqliteSync.Alter.Refill

/-!
# What a refill writes

Every statement of the refill stamps the rows it writes with the next db version
and a sequence number of this connection, and raises their version. The set of
rows a whole refill writes is described by the base table and the metadata before it.
-/
namespace SqliteSync.Alter
open Library Store Clock Codec

/-- A row written by this connection from version `v` and sequence number `q` on;
a tombstone is one of a row that is alive. -/
structure Stamped (v q : ℤ) (k : Key × String) (r : MetaRow) : Prop where
  siteId : r.siteId = 0
  dbVersion : v ≤ r.dbVersion
  seq : q ≤ r.seq
  alive : k.2 = CLOUDSYNC_TOMBSTONE_VALUE → r.colVersion % 2 = 1

def Below (r r' : MetaRow) : Prop := r.colVersion < r'.colVersion

instance : IsTrans MetaRow Below := ⟨fun _ _ _ h h' => Int.lt_trans h h'⟩

instance : Std.Irrefl Below := ⟨fun _ h => Int.lt_irrefl _ h⟩

/-- The context hands out versions from `v` and sequence numbers from `q` on. -/
structure Stamping (v q : ℤ) (s : Tracked) : Prop where
  pending : v ≤ s.data.pendingDbVersion
  seq : q ≤ s.data.seq

/-- A piece of the refill that writes the rows of `keys`. -/
structure Writes (v q : ℤ) (keys : Set (Key × String)) (s t : Tracked) : Prop where
  metadata : Keyed.Stamps (Stamped v q) Below keys s.metadata t.metadata
  stamping : Stamping v q t
  base : t.base = s.base

theorem lt_nextLength (x : ℤ) : x < nextLength x := by
  rw [nextLength]
  split_ifs <;> omega

theorem nextLength_odd (x : ℤ) : nextLength x % 2 = 1 := by
  rw [nextLength]
  split_ifs <;> omega

namespace Writes
variable {v q : ℤ} {keys keys' : Set (Key × String)} {s t u : Tracked}

theorem trans (h : Writes v q keys s t) (h' : Writes v q keys' t u) :
    Writes v q (keys ∪ keys') s u :=
  ⟨h.metadata.trans h'.metadata, h'.stamping, h'.base.trans h.base⟩

theorem congr (h : Writes v q keys s t) (he : ∀ k, k ∈ keys ↔ k ∈ keys') : Writes v q keys' s t :=
  ⟨h.metadata.congr he, h.stamping, h.base⟩

theorem of_metadata (hmeta : t.metadata = s.metadata) (hbase : t.base = s.base)
    (ht : Stamping v q t) : Writes v q ∅ s t where
  metadata := by
    rw [hmeta]
    exact .refl _
  stamping := ht
  base := hbase

/-- A loop writes what its rounds write, when the rounds keep an invariant. -/
theorem foldl {α : Type} {f : Tracked → α → Tracked} (keysOf : α → Set (Key × String))
    (inv : Tracked → Prop)
    (hstep : ∀ s a, Stamping v q s → inv s → Writes v q (keysOf a) s (f s a) ∧ inv (f s a))
    (l : List α) (hs : Stamping v q s) (hinv : inv s) :
    Writes v q {k | ∃ a ∈ l, k ∈ keysOf a} s (l.foldl f s) := by
  induction l generalizing s with
  | nil => exact (of_metadata rfl rfl hs).congr fun k => by simp
  | cons a l ih =>
    rcases hstep s a hs hinv with ⟨hw, hinv'⟩
    apply (hw.trans (ih hw.stamping hinv')).congr
    intro k
    simp

end Writes

section
variable {v q : ℤ} {s : Tracked}

theorem Stamping.dbVersionNext (hs : Stamping v q s) (mergingVersion : ℤ) :
    v ≤ (s.dbVersionNext mergingVersion).1 ∧ Stamping v q (s.dbVersionNext mergingVersion).2 := by
  have hnext := pendingDbVersion_le_nextVersion (dbVersionCheckUptodate s.view s.data) mergingVersion
  rw [dbVersionCheckUptodate_pendingDbVersion] at hnext
  have hv : v ≤ (s.dbVersionNext mergingVersion).1 := Int.le_trans hs.pending hnext
  refine ⟨hv, hv, ?_⟩
  change q ≤ (dbVersionCheckUptodate s.view s.data).seq
  rw [dbVersionCheckUptodate_seq]
  exact hs.seq

theorem Writes.withSeq {keys : Set (Key × String)} (hs : Stamping v q s)
    {f : Tracked → ℤ → Tracked}
    (hf : ∀ seq, q ≤ seq → ∀ t : Tracked, (f t seq).data = t.data ∧ (f t seq).base = t.base ∧
      (t.metadata = s.metadata → Keyed.Stamps (Stamped v q) Below keys t.metadata
        (f t seq).metadata)) :
    Writes v q keys s (s.withSeq f) := by
  rcases hf s.bumpSeq.1 hs.seq s.bumpSeq.2 with ⟨hdata, hbase, hmeta⟩
  refine ⟨hmeta rfl, ⟨?_, ?_⟩, hbase⟩
  · rw [Tracked.withSeq, hdata]
    exact hs.pending
  · rw [Tracked.withSeq, hdata]
    exact Int.le_trans hs.seq (Int.le_of_lt (Int.lt_succ _))

theorem mark_stamps {dbVersion seq : ℤ} (hv : v ≤ dbVersion) (hq : q ≤ seq) (t : Tracked)
    (pk : Key) {col : String} (hcol : col ≠ CLOUDSYNC_TOMBSTONE_VALUE) :
    Keyed.Stamps (Stamped v q) Below {(pk, col)} t.metadata
      (t.localMarkInsertOrUpdateMeta pk col dbVersion seq).metadata := by
  have hnew (n : ℤ) : Stamped v q (pk, col) ⟨n, dbVersion, 0, seq⟩ :=
    ⟨rfl, hv, hq, fun h => absurd h hcol⟩
  exact .upsert (hnew 1) (fun w _ => ⟨hnew _, Int.lt_succ _⟩)

theorem sentinelInsert_stamps {dbVersion seq : ℤ} (hv : v ≤ dbVersion) (hq : q ≤ seq)
    (t : Tracked) (pk : Key) :
    Keyed.Stamps (Stamped v q) Below {(pk, CLOUDSYNC_TOMBSTONE_VALUE)} t.metadata
      (t.localMarkInsertSentinelMeta pk dbVersion seq).metadata :=
  .upsert ⟨rfl, hv, hq, fun _ => rfl⟩
    (fun _ _ => ⟨⟨rfl, hv, hq, fun _ => nextLength_odd _⟩, lt_nextLength _⟩)

theorem sentinelUpdate_stamps {dbVersion seq : ℤ} (hv : v ≤ dbVersion) (hq : q ≤ seq)
    (t : Tracked) (pk : Key) :
    Keyed.Stamps (Stamped v q) Below
      {k | k = (pk, CLOUDSYNC_TOMBSTONE_VALUE) ∧
        t.metadata.get (pk, CLOUDSYNC_TOMBSTONE_VALUE) ≠ none} t.metadata
      (t.localUpdateSentinel pk dbVersion seq).metadata := by
  have hrow : ∀ w, t.metadata.get (pk, CLOUDSYNC_TOMBSTONE_VALUE) = some w →
      Stamped v q (pk, CLOUDSYNC_TOMBSTONE_VALUE) ⟨nextLength w.colVersion, dbVersion, 0, seq⟩ ∧
        Below w ⟨nextLength w.colVersion, dbVersion, 0, seq⟩ :=
    fun _ _ => ⟨⟨rfl, hv, hq, fun _ => nextLength_odd _⟩, lt_nextLength _⟩
  exact .updateWhere (fun _ => beq_iff_eq) hrow

theorem markColumns_writes {dbVersion : ℤ} (hs : Stamping v q s) (hv : v ≤ dbVersion) (pk : Key)
    {cols : List String} (hcols : CLOUDSYNC_TOMBSTONE_VALUE ∉ cols) :
    Writes v q {k | k.1 = pk ∧ k.2 ∈ cols} s (s.markColumns pk dbVersion cols) := by
  induction cols generalizing s with
  | nil => exact (Writes.of_metadata rfl rfl hs).congr fun k => by simp
  | cons col cols ih =>
    rw [List.mem_cons, not_or] at hcols
    have hmark : Writes v q {(pk, col)} s (s.withSeq fun s seq =>
        s.localMarkInsertOrUpdateMeta pk col dbVersion seq) :=
      .withSeq hs (fun seq hq t =>
        ⟨rfl, rfl, fun _ => mark_stamps hv hq t pk (Ne.symm hcols.1)⟩)
    apply (hmark.trans (ih hmark.stamping hcols.2)).congr
    rintro ⟨key, name⟩
    simp only [Set.mem_union, Set.mem_singleton_iff, Prod.mk.injEq, Set.mem_ofPred_eq, List.mem_cons]
    tauto

theorem toLower_ne (c : Char) : c.toLower ≠ Char.ofNat 0x52 := by
  intro h
  by_cases hc : c = Char.ofNat 0x52
  · subst hc
    exact absurd h (by decide)
  · delta Char.toLower at h
    split at h
    · next hrange =>
      have hval := congrArg (fun d => d.val.toNat) h
      have hlow := UInt32.le_iff_toNat_le.mp hrange.1
      have hhigh := UInt32.le_iff_toNat_le.mp hrange.2
      simp at hval hlow hhigh
      omega
    · exact hc h

/-- Stored column names are lower-cased, and the tombstone's is not. -/
theorem tombstone_notMem (info : TableInfo) : CLOUDSYNC_TOMBSTONE_VALUE ∉ info.colNames := by
  intro h
  rcases List.mem_map.mp h with ⟨c, -, hc⟩
  have hupper : Char.ofNat 0x52 ∈ lowered c.name := by
    have hlist := congrArg String.toList hc
    rw [lowerName, String.toList_ofList] at hlist
    rw [hlist]
    decide
  rcases List.mem_map.mp hupper with ⟨d, -, hd⟩
  exact toLower_ne d hd

/-- The rows that the insertion of a base row writes: its columns, and its
tombstone if there is one or the table has no columns. -/
def insertKeys (info : TableInfo) (s : Tracked) (row : List Value) : Set (Key × String) :=
  {k | k.1 = pkEncodePrikey row ∧ (k.2 ∈ info.colNames ∨ k.2 = CLOUDSYNC_TOMBSTONE_VALUE ∧
    (info.colNames = [] ∨ s.metadata.get k ≠ none))}

theorem metaPkexists_iff (t : Tracked) (pk : Key) :
    t.metaPkexists pk = true ↔ ∃ col, t.metadata.get (pk, col) ≠ none := by
  rw [Tracked.metaPkexists, Keyed.existsWhere_iff]
  simp

theorem cloudsyncInsert_writes (hs : Stamping v q s) (info : TableInfo) (row : List Value) :
    Writes v q (insertKeys info s row) s (s.cloudsyncInsert info row) := by
  rcases hs.dbVersionNext CLOUDSYNC_VALUE_NOTSET with ⟨hv, hnext⟩
  have hclock : Writes v q ∅ s (s.dbVersionNext CLOUDSYNC_VALUE_NOTSET).2 :=
    .of_metadata rfl rfl hnext
  rw [Tracked.cloudsyncInsert]
  have hmark (t : Tracked) (ht : Stamping v q t) :=
    markColumns_writes ht hv (pkEncodePrikey row) (tombstone_notMem info)
  have hsame : (s.dbVersionNext CLOUDSYNC_VALUE_NOTSET).2.metadata = s.metadata := rfl
  generalize s.dbVersionNext CLOUDSYNC_VALUE_NOTSET = next at hv hnext hclock hmark hsame ⊢
  split_ifs with hcols hexists
  · have hcols := List.length_eq_zero_iff.mp hcols
    have hsentinel : Writes v q {(pkEncodePrikey row, CLOUDSYNC_TOMBSTONE_VALUE)} next.2
        (next.2.withSeq fun s seq =>
          s.localMarkInsertSentinelMeta (pkEncodePrikey row) next.1 seq) :=
      .withSeq hnext (fun seq hq t => ⟨rfl, rfl, fun _ =>
        sentinelInsert_stamps hv hq t (pkEncodePrikey row)⟩)
    apply ((hclock.trans hsentinel).trans (hmark _ hsentinel.stamping)).congr
    rintro ⟨key, name⟩
    simp [insertKeys, hcols]
  · have hcols : info.colNames ≠ [] := fun h => hcols (by rw [h]; rfl)
    have hsentinel : Writes v q {k | k = (pkEncodePrikey row, CLOUDSYNC_TOMBSTONE_VALUE) ∧
          s.metadata.get (pkEncodePrikey row, CLOUDSYNC_TOMBSTONE_VALUE) ≠ none} next.2
        (next.2.withSeq fun s seq => s.localUpdateSentinel (pkEncodePrikey row) next.1 seq) :=
      .withSeq hnext (fun seq hq t => ⟨rfl, rfl, fun ht => by
        rw [← hsame, ← ht]
        exact sentinelUpdate_stamps hv hq t (pkEncodePrikey row)⟩)
    apply ((hclock.trans hsentinel).trans (hmark _ hsentinel.stamping)).congr
    rintro ⟨key, name⟩
    simp only [insertKeys, hcols, Set.mem_union, Set.mem_ofPred_eq, Set.mem_empty_iff_false,
      Prod.mk.injEq, false_or]
    constructor
    · rintro (⟨⟨rfl, rfl⟩, hne⟩ | h)
      · exact ⟨rfl, .inr ⟨rfl, hne⟩⟩
      · exact ⟨h.1, .inl h.2⟩
    · rintro ⟨rfl, h | ⟨rfl, hne⟩⟩
      · exact .inr ⟨rfl, h⟩
      · exact .inl ⟨⟨rfl, rfl⟩, hne⟩
  · have hcols : info.colNames ≠ [] := fun h => hcols (by rw [h]; rfl)
    have hnone : s.metadata.get (pkEncodePrikey row, CLOUDSYNC_TOMBSTONE_VALUE) = none := by
      by_contra hne
      refine hexists ((metaPkexists_iff next.2 _).mpr ⟨CLOUDSYNC_TOMBSTONE_VALUE, ?_⟩)
      rwa [hsame]
    apply (hclock.trans (hmark _ hnext)).congr
    rintro ⟨key, name⟩
    simp only [insertKeys, hcols, Set.mem_union, Set.mem_ofPred_eq, Set.mem_empty_iff_false,
      false_or]
    constructor
    · exact fun h => ⟨h.1, .inl h.2⟩
    · rintro ⟨rfl, h | ⟨rfl, hne⟩⟩
      · exact ⟨rfl, h⟩
      · exact absurd hnone hne

/-! ## The whole refill -/

section
variable (eng : Engine) (inp : RefillInput) (info : TableInfo)

/-- The rows `EXCEPT` leaves out are there already; the others are inserted. -/
def insertedKeys (s : Tracked) : Set (Key × String) :=
  {k | ∃ row ∈ s.base, eng.known info s row = false ∧ k ∈ insertKeys info s row}

/-- Insertions do not change which tombstones there are, in a table with columns. -/
theorem insertKeys_congr {t : Tracked}
    (h : info.colNames ≠ [] → ∀ pk, t.metadata.get (pk, CLOUDSYNC_TOMBSTONE_VALUE) ≠ none ↔
      s.metadata.get (pk, CLOUDSYNC_TOMBSTONE_VALUE) ≠ none) (row : List Value)
    (k : Key × String) : k ∈ insertKeys info t row ↔ k ∈ insertKeys info s row := by
  rcases k with ⟨key, name⟩
  simp only [insertKeys, Set.mem_ofPred_eq]
  apply and_congr_right
  intro _
  apply or_congr_right
  apply and_congr_right
  rintro rfl
  by_cases hcols : info.colNames = []
  · simp [hcols]
  · rw [h hcols]

theorem insertMissing_writes (hs : Stamping v q s) :
    Writes v q (insertedKeys eng info s) s (insertMissing eng info s) := by
  apply (Writes.foldl (f := fun s row => s.cloudsyncInsert info row) (insertKeys info s)
    (fun t => info.colNames ≠ [] → ∀ pk, t.metadata.get (pk, CLOUDSYNC_TOMBSTONE_VALUE) ≠ none ↔
      s.metadata.get (pk, CLOUDSYNC_TOMBSTONE_VALUE) ≠ none) ?_ _ hs (fun _ _ => Iff.rfl)).congr
  · intro k
    simp only [insertedKeys, Set.mem_ofPred_eq, List.mem_filter, Bool.not_eq_true', and_assoc]
  · intro t row ht hinv
    have hw := (cloudsyncInsert_writes ht info row).congr (insertKeys_congr info hinv row)
    refine ⟨hw, fun hcols pk => ?_⟩
    rw [hw.metadata.get_ne_none_iff, hinv hcols]
    apply or_iff_left_of_imp
    rintro ⟨-, hmem | ⟨-, hnil | hne⟩⟩
    · exact absurd hmem (tombstone_notMem info)
    · exact absurd hnil hcols
    · exact hne

theorem joined_iff (s : Tracked) (col : String) (row : List Value) :
    eng.joined info s col row = true ↔
      ∃ key, s.metadata.get (key, col) ≠ none ∧ eng.rowMatches eng.joinSame info key row = true := by
  rw [Engine.joined, Keyed.existsWhere_iff]
  constructor
  · rintro ⟨⟨key, name⟩, hk, hget⟩
    rw [Bool.and_eq_true, beq_iff_eq] at hk
    rcases hk with ⟨rfl, hmatch⟩
    exact ⟨key, hget, hmatch⟩
  · rintro ⟨key, hget, hmatch⟩
    exact ⟨(key, col), by simp [hmatch], hget⟩

def Finds (keys : Set Key) (row : List Value) : Prop :=
  ∃ key ∈ keys, eng.rowMatches eng.joinSame info key row = true

def keysAfterRow (col : String) (keys : Set Key) (row : List Value) : Set Key :=
  {key | key ∈ keys ∨ ¬ Finds eng info keys row ∧ key = cPrefix (pkEncodePrikey row) ∧
    inp.mark key col = true}

def keysAfter (col : String) (keys : Set Key) (rows : List (List Value)) : Set Key :=
  rows.foldl (keysAfterRow eng inp info col) keys

/-- When the turn of the row comes, the join finds no key for it, neither one of
those there were nor one that the loop wrote for the rows before. -/
def Missed (col : String) (keys : Set Key) (rows : List (List Value)) (row : List Value) : Prop :=
  ∃ before after, rows = before ++ row :: after ∧
    ¬ Finds eng info (keysAfter eng inp info col keys before) row

variable {eng inp info} in
theorem Missed.mem {col : String} {keys : Set Key} {rows : List (List Value)} {row : List Value}
    (h : Missed eng inp info col keys rows row) : row ∈ rows := by
  rcases h with ⟨before, after, rfl, -⟩
  simp

theorem missed_cons_iff (col : String) (keys : Set Key) (first row : List Value)
    (rows : List (List Value)) :
    Missed eng inp info col keys (first :: rows) row ↔
      row = first ∧ ¬ Finds eng info keys first ∨
        Missed eng inp info col (keysAfterRow eng inp info col keys first) rows row := by
  constructor
  · rintro ⟨before, after, hsplit, hmiss⟩
    cases before with
    | nil =>
      rcases List.cons.inj hsplit with ⟨rfl, -⟩
      exact .inl ⟨rfl, hmiss⟩
    | cons other before =>
      rcases List.cons.inj hsplit with ⟨rfl, hrest⟩
      exact .inr ⟨before, after, hrest, hmiss⟩
  · rintro (⟨rfl, hmiss⟩ | ⟨before, after, rfl, hmiss⟩)
    · exact ⟨[], rows, rfl, hmiss⟩
    · exact ⟨first :: before, after, rfl, hmiss⟩

variable {eng inp info} in
theorem mem_keysAfter {col : String} {keys : Set Key} {rows : List (List Value)} {key : Key}
    (h : key ∈ keysAfter eng inp info col keys rows) :
    key ∈ keys ∨ ∃ row ∈ rows, key = cPrefix (pkEncodePrikey row) := by
  induction rows generalizing keys with
  | nil => exact .inl h
  | cons first rows ih =>
    rcases ih h with (hstart | ⟨-, hkey, -⟩) | ⟨row, hrow, hkey⟩
    · exact .inl hstart
    · exact .inr ⟨first, List.mem_cons_self, hkey⟩
    · exact .inr ⟨row, .tail first hrow, hkey⟩

variable {eng inp info} in
theorem subset_keysAfter {col : String} {keys : Set Key} (rows : List (List Value)) :
    keys ⊆ keysAfter eng inp info col keys rows := by
  induction rows generalizing keys with
  | nil => exact subset_rfl
  | cons first rows ih => exact Set.Subset.trans (fun _ h => .inl h) ih

theorem keysAfterRow_of_finds {col : String} {keys : Set Key} {row : List Value}
    (h : Finds eng info keys row) : keysAfterRow eng inp info col keys row = keys := by
  ext key
  simp [keysAfterRow, h]

theorem not_missed_iff (col : String) (keys : Set Key) (rows : List (List Value)) :
    (∀ row, ¬ Missed eng inp info col keys rows row) ↔ ∀ row ∈ rows, Finds eng info keys row := by
  induction rows generalizing keys with
  | nil => exact iff_of_true (fun _ h => nomatch h.mem) (fun _ h => nomatch h)
  | cons first rows ih =>
    simp only [missed_cons_iff, not_or, not_and, not_not, forall_and, forall_eq, ih,
      List.forall_mem_cons]
    apply and_congr_right
    intro hfirst
    rw [keysAfterRow_of_finds eng inp info hfirst]

def columnKeys (s : Tracked) (col : String) : Set Key := {key | s.metadata.get (key, col) ≠ none}

theorem joined_iff_finds (s : Tracked) (col : String) (row : List Value) :
    eng.joined info s col row = true ↔ Finds eng info (columnKeys s col) row :=
  joined_iff eng info s col row

theorem fillRow_writes {dbVersion : ℤ} (hs : Stamping v q s) (hv : v ≤ dbVersion) {col : String}
    (hcol : col ≠ CLOUDSYNC_TOMBSTONE_VALUE) (row : List Value) :
    Writes v q {k | k.2 = col ∧ inp.mark k.1 k.2 = true ∧
        ¬ Finds eng info (columnKeys s col) row ∧ k.1 = cPrefix (pkEncodePrikey row)} s
      (fillRow eng inp info col dbVersion s row) := by
  rw [fillRow]
  by_cases hfinds : Finds eng info (columnKeys s col) row
  · rw [if_pos ((joined_iff_finds eng info s col row).mpr hfinds)]
    exact (Writes.of_metadata rfl rfl hs).congr fun k => by simp [hfinds]
  · rw [if_neg (mt (joined_iff_finds eng info s col row).mp hfinds)]
    by_cases hmark : inp.mark (cPrefix (pkEncodePrikey row)) col = true
    · simp only [hmark, if_true]
      have hw : Writes v q {(cPrefix (pkEncodePrikey row), col)} s (s.withSeq fun s seq =>
          s.localMarkInsertOrUpdateMeta (cPrefix (pkEncodePrikey row)) col dbVersion seq) :=
        .withSeq hs (fun seq hq t => ⟨rfl, rfl, fun _ => mark_stamps hv hq t _ hcol⟩)
      apply hw.congr
      rintro ⟨key, name⟩
      rw [Set.mem_singleton_iff, Prod.mk.injEq, Set.mem_ofPred_eq]
      constructor
      · rintro ⟨rfl, rfl⟩
        exact ⟨rfl, hmark, hfinds, rfl⟩
      · rintro ⟨rfl, -, -, rfl⟩
        exact ⟨rfl, rfl⟩
    · simp only [hmark]
      have hw : Writes v q ∅ s (s.withSeq fun s _ => s) :=
        .withSeq hs (fun seq hq t => ⟨rfl, rfl, fun _ => .refl _⟩)
      apply hw.congr
      rintro ⟨key, name⟩
      refine iff_of_false (Set.notMem_empty _) ?_
      rintro ⟨rfl, hmark', -, rfl⟩
      exact hmark hmark'

/-- What the rows before a row have written is there for the join of the row. -/
theorem columnKeys_fillRow {dbVersion : ℤ} (hs : Stamping v q s) (hv : v ≤ dbVersion)
    {col : String} (hcol : col ≠ CLOUDSYNC_TOMBSTONE_VALUE) (row : List Value) :
    columnKeys (fillRow eng inp info col dbVersion s row) col =
      keysAfterRow eng inp info col (columnKeys s col) row := by
  have hw := fillRow_writes eng inp info hs hv hcol row
  ext key
  rw [columnKeys, Set.mem_ofPred_eq, hw.metadata.get_ne_none_iff, keysAfterRow]
  apply or_congr_right
  constructor
  · rintro ⟨-, hmark, hmiss, hkey⟩
    exact ⟨hmiss, hkey, hmark⟩
  · rintro ⟨hmiss, hkey, hmark⟩
    exact ⟨rfl, hmark, hmiss, hkey⟩

theorem fillRows_writes {dbVersion : ℤ} (hs : Stamping v q s) (hv : v ≤ dbVersion)
    {col : String} (hcol : col ≠ CLOUDSYNC_TOMBSTONE_VALUE) (rows : List (List Value)) :
    Writes v q {k | k.2 = col ∧ inp.mark k.1 k.2 = true ∧ ∃ row,
      Missed eng inp info col (columnKeys s col) rows row ∧ k.1 = cPrefix (pkEncodePrikey row)} s
      (rows.foldl (fillRow eng inp info col dbVersion) s) := by
  induction rows generalizing s with
  | nil =>
    apply (Writes.of_metadata rfl rfl hs).congr
    intro k
    refine iff_of_false (Set.notMem_empty k) ?_
    rintro ⟨-, -, row, hmiss, -⟩
    exact nomatch hmiss.mem
  | cons first rows ih =>
    have hw := fillRow_writes eng inp info hs hv hcol first
    have hrest := ih hw.stamping
    rw [columnKeys_fillRow eng inp info hs hv hcol first] at hrest
    apply (hw.trans hrest).congr
    rintro ⟨key, name⟩
    simp only [Set.mem_union, Set.mem_ofPred_eq, missed_cons_iff, ← and_or_left]
    apply and_congr_right
    intro _
    apply and_congr_right
    intro _
    constructor
    · rintro (⟨hmiss, hkey⟩ | ⟨row, hmiss, hkey⟩)
      · exact ⟨first, .inl ⟨rfl, hmiss⟩, hkey⟩
      · exact ⟨row, .inr hmiss, hkey⟩
    · rintro ⟨row, ⟨rfl, hmiss⟩ | hmiss, hkey⟩
      · exact .inl ⟨hmiss, hkey⟩
      · exact .inr ⟨row, hmiss, hkey⟩

/-- Each column is filled from the metadata of its own, which the columns before
it leave alone. -/
theorem fillColumns_writes {dbVersion : ℤ} (hs : Stamping v q s) (hv : v ≤ dbVersion)
    {cols : List String} (hcols : CLOUDSYNC_TOMBSTONE_VALUE ∉ cols) (hnodup : cols.Nodup)
    (hok : (fillColumns eng inp info dbVersion cols s).1 = .ok ()) :
    Writes v q {k | k.2 ∈ cols ∧ inp.mark k.1 k.2 = true ∧ ∃ row,
      Missed eng inp info k.2 (columnKeys s k.2) s.base row ∧
        k.1 = cPrefix (pkEncodePrikey row)} s
      (fillColumns eng inp info dbVersion cols s).2 := by
  induction cols generalizing s with
  | nil => exact (Writes.of_metadata rfl rfl hs).congr fun k => by simp
  | cons col cols ih =>
    rw [List.mem_cons, not_or] at hcols
    rw [List.nodup_cons] at hnodup
    rw [fillColumns] at hok ⊢
    by_cases hselect : inp.select col = true
    · rw [if_pos hselect] at hok ⊢
      have hw := fillRows_writes eng inp info hs hv (Ne.symm hcols.1) s.base
      change Writes v q _ s (fillColumn eng inp info dbVersion s col) at hw
      have hkeys : ∀ name ∈ cols,
          columnKeys (fillColumn eng inp info dbVersion s col) name = columnKeys s name := by
        intro name hname
        ext key
        rw [columnKeys, Set.mem_ofPred_eq, hw.metadata.get_ne_none_iff]
        apply or_iff_left_of_imp
        rintro ⟨rfl, -⟩
        exact absurd hname hnodup.1
      apply (hw.trans (ih hw.stamping hcols.2 hnodup.2 hok)).congr
      rintro ⟨key, name⟩
      simp only [Set.mem_union, Set.mem_ofPred_eq, List.mem_cons, hw.base, or_and_right]
      apply or_congr
      · apply and_congr_right
        rintro rfl
        rfl
      · apply and_congr_right
        intro hname
        rw [hkeys name hname]
    · rw [if_neg hselect] at hok
      cases hok

/-- The keys a column has when the loop over it starts: those of the metadata and
those of the rows that were inserted. -/
def startKeys (s : Tracked) (col : String) : Set Key :=
  {key | s.metadata.get (key, col) ≠ none ∨
    ∃ other ∈ s.base, eng.known info s other = false ∧ key = pkEncodePrikey other}

def filledKeys (s : Tracked) : Set (Key × String) :=
  {k | k.2 ∈ info.colNames ∧ inp.mark k.1 k.2 = true ∧ ∃ row,
    Missed eng inp info k.2 (startKeys eng info s k.2) s.base row ∧
      k.1 = cPrefix (pkEncodePrikey row)}

theorem columnKeys_insertMissing (hs : Stamping v q s) {col : String} (hcol : col ∈ info.colNames) :
    columnKeys (insertMissing eng info s) col = startKeys eng info s col := by
  ext key
  rw [columnKeys, Set.mem_ofPred_eq, (insertMissing_writes eng info hs).metadata.get_ne_none_iff]
  apply or_congr_right
  apply exists_congr
  intro other
  apply and_congr_right
  intro _
  apply and_congr_right
  intro _
  exact and_iff_left (.inl hcol)

/-- A refill that succeeds has written the rows it inserted and those it filled. -/
theorem cloudsyncRefillMetatable_writes (s : Tracked)
    (hok : (cloudsyncRefillMetatable eng inp info s).1 = .ok ()) :
    Writes (s.dbVersionNext CLOUDSYNC_VALUE_NOTSET).1 s.data.seq
      (insertedKeys eng info s ∪ filledKeys eng inp info s) s
      (cloudsyncRefillMetatable eng inp info s).2 := by
  have hnext : Stamping (s.dbVersionNext CLOUDSYNC_VALUE_NOTSET).1 s.data.seq
      (s.dbVersionNext CLOUDSYNC_VALUE_NOTSET).2 := by
    refine ⟨le_rfl, ?_⟩
    change s.data.seq ≤ (dbVersionCheckUptodate s.view s.data).seq
    rw [dbVersionCheckUptodate_seq]
  have hclock : Writes (s.dbVersionNext CLOUDSYNC_VALUE_NOTSET).1 s.data.seq ∅ s
      (s.dbVersionNext CLOUDSYNC_VALUE_NOTSET).2 := .of_metadata rfl rfl hnext
  have hinsert := insertMissing_writes eng info hnext
  have hkeys : ∀ col ∈ info.colNames, columnKeys (insertMissing eng info
      (s.dbVersionNext CLOUDSYNC_VALUE_NOTSET).2) col = startKeys eng info s col :=
    fun _ hcol => columnKeys_insertMissing eng info hnext hcol
  rw [cloudsyncRefillMetatable] at hok ⊢
  by_cases hins : inp.insert = true
  · rw [if_pos hins] at hok ⊢
    by_cases hprep : inp.prepare = true
    · rw [if_pos hprep] at hok ⊢
      have hfill := fillColumns_writes eng inp info hinsert.stamping le_rfl (tombstone_notMem info)
        info.colNames_nodup hok
      apply ((hclock.trans hinsert).trans hfill).congr
      rintro ⟨key, name⟩
      simp only [Set.mem_union, Set.mem_empty_iff_false, false_or]
      apply or_congr Iff.rfl
      rw [filledKeys, Set.mem_ofPred_eq, Set.mem_ofPred_eq, hinsert.base]
      apply and_congr_right
      intro hname
      rw [hkeys name hname]
      rfl
    · rw [if_neg hprep] at hok
      cases hok
  · rw [if_neg hins] at hok
    cases hok

end
end
end SqliteSync.Alter
