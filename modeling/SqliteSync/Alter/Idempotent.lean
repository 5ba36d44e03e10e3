import SqliteSync.Alter.Effect
import SqliteSync.Codec.RoundTrip

/-!
# Initialising a table again

A refill changes nothing exactly when the statements it runs find every base row
among the decoded keys. Keys list their values in the order of the columns and
are decoded by the places of the columns in the PRIMARY KEY, so on complete
metadata this is a matter of the two orders.
-/
namespace SqliteSync.Alter
open Library Store Clock Codec

section
variable (eng : Engine) (info : TableInfo) (s : Tracked)

theorem cloudsyncRefillMetatable_sound : (cloudsyncRefillMetatable eng .sound info s).1 = .ok () := by
  have hcolumns (dbVersion : ℤ) (cols : List String) (t : Tracked) :
      (fillColumns eng .sound info dbVersion cols t).1 = .ok () := by
    induction cols generalizing t with
    | nil => rfl
    | cons col cols ih => exact ih _
  exact hcolumns _ _ _

/-- A refill writes nothing when it finds every base row, for every column. -/
theorem written_eq_empty_iff :
    insertedKeys eng info s ∪ filledKeys eng .sound info s = ∅ ↔
      ∀ row ∈ s.base, eng.known info s row = true ∧
        ∀ col ∈ info.colNames, eng.joined info s col row = true := by
  rw [Set.union_empty_iff]
  constructor
  · rintro ⟨hinserted, hfilled⟩ row hrow
    have hknown : ∀ other ∈ s.base, eng.known info s other = true := by
      intro other hother
      by_contra hnot
      rw [Bool.not_eq_true] at hnot
      rcases hcols : info.colNames with _ | ⟨col, cols⟩
      · refine Set.eq_empty_iff_forall_notMem.mp hinserted
          (pkEncodePrikey other, CLOUDSYNC_TOMBSTONE_VALUE) ⟨other, hother, hnot, rfl, ?_⟩
        exact .inr ⟨rfl, .inl hcols⟩
      · refine Set.eq_empty_iff_forall_notMem.mp hinserted
          (pkEncodePrikey other, col) ⟨other, hother, hnot, rfl, ?_⟩
        rw [hcols]
        exact .inl List.mem_cons_self
    refine ⟨hknown row hrow, fun col hcol => ?_⟩
    have hmissed : ∀ other, ¬ Missed eng .sound info col (startKeys eng info s col) s.base other :=
      fun other hmiss => Set.eq_empty_iff_forall_notMem.mp hfilled
        (cPrefix (pkEncodePrikey other), col) ⟨hcol, rfl, other, hmiss, rfl⟩
    rcases (not_missed_iff eng .sound info col _ s.base).mp hmissed row hrow with
      ⟨key, hget | ⟨other, hother, hnot, -⟩, hmatch⟩
    · exact (joined_iff eng info s col row).mpr ⟨key, hget, hmatch⟩
    · rw [hknown other hother] at hnot
      cases hnot
  · intro h
    constructor
    · apply Set.eq_empty_of_forall_notMem
      rintro k ⟨row, hrow, hnot, -⟩
      rw [(h row hrow).1] at hnot
      cases hnot
    · apply Set.eq_empty_of_forall_notMem
      rintro k ⟨hcol, -, row, hmiss, -⟩
      refine (not_missed_iff eng .sound info k.2 _ s.base).mpr ?_ row hmiss
      intro other hother
      rcases (joined_iff eng info s k.2 other).mp ((h other hother).2 k.2 hcol) with
        ⟨key, hget, hmatch⟩
      exact ⟨key, .inl hget, hmatch⟩

/-- Initialising again changes no metadata row exactly when every base row is
found, by `EXCEPT` and for every column by the join. -/
theorem cloudsyncRefillMetatable_unchanged_iff :
    (∀ k, (cloudsyncRefillMetatable eng .sound info s).2.metadata.get k = s.metadata.get k) ↔
      ∀ row ∈ s.base, eng.known info s row = true ∧
        ∀ col ∈ info.colNames, eng.joined info s col row = true := by
  rw [← written_eq_empty_iff]
  exact (cloudsyncRefillMetatable_writes eng .sound info s
    (cloudsyncRefillMetatable_sound eng info s)).metadata.unchanged_iff

end

/-! ## Primary keys declared in the order of the columns -/

theorem foldl_setResult_of_ne {calls : List CbArgs} {i : ℕ} (result : Option CbArgs)
    (h : ∀ a ∈ calls, i ≠ a.index + 1) :
    calls.foldl (fun r a => if i ≠ a.index + 1 then r else some a) result = result := by
  induction calls with
  | nil => rfl
  | cons a calls ih =>
    rw [List.foldl_cons, if_pos (h a List.mem_cons_self)]
    exact ih (fun b hb => h b (.tail a hb))

theorem foldl_setResult {calls : List CbArgs} {i : ℕ}
    (hindex : calls.map CbArgs.index = List.range calls.length) (hi : i < calls.length) :
    calls.foldl (fun r a => if i + 1 ≠ a.index + 1 then r else some a) none = some calls[i] := by
  have hat (j : ℕ) (hj : j < calls.length) : calls[j].index = j := by
    have hget := congrArg (fun l => l[j]?) hindex
    simpa [hj] using hget
  have hsplit : calls = calls.take i ++ calls[i] :: calls.drop (i + 1) := by simp
  have hbefore : ∀ a ∈ calls.take i, i + 1 ≠ a.index + 1 := by
    intro a ha
    rcases List.mem_take_iff_getElem.mp ha with ⟨j, hj, rfl⟩
    rw [hat j (by omega)]
    omega
  have hafter : ∀ a ∈ calls.drop (i + 1), i + 1 ≠ a.index + 1 := by
    intro a ha
    rcases List.mem_drop_iff_getElem.mp ha with ⟨j, hj, rfl⟩
    rw [hat (i + 1 + j) (by omega)]
    omega
  conv_lhs => rw [hsplit]
  rw [List.foldl_append, foldl_setResult_of_ne none hbefore, List.foldl_cons, hat i hi,
    if_neg (not_not.mpr rfl), foldl_setResult_of_ne _ hafter]

theorem cloudsyncPkDecode_pkEncodePrikey (eng : Engine) (row : List Value) (h : row.length ≤ 255)
    (i : ℕ) (hi : i < row.length) :
    eng.cloudsyncPkDecode (pkEncodePrikey row) (i + 1) = row[i] := by
  rcases pkDecodePrikey_pkEncodePrikey_calls row h [] with ⟨calls, hdec, hindex, hvalue⟩
  rw [List.append_nil] at hdec hvalue
  have hlen : calls.length = row.length := by
    rw [← List.length_map (f := CbArgs.index), hindex, List.length_range]
  rw [← hlen] at hindex
  have hrun := pkDecodePrikey_accepting
    (fun r a => if i + 1 ≠ a.index + 1 then r else some a) (pkEncodePrikey row) none
  rw [hdec, Option.map_some, foldl_setResult hindex (by omega)] at hrun
  have hget := congrArg (fun l => l[i]?) hvalue
  simp only [List.getElem?_map, List.getElem?_eq_getElem (hlen ▸ hi : i < calls.length),
    List.getElem?_eq_getElem hi, Option.map_some, Option.some.injEq] at hget
  rw [Engine.cloudsyncPkDecode]
  unfold cloudsyncPkDecodeSetResultCallback
  rw [hrun]
  simp [hget]

/-- A key matches the row it encodes, when the places of the columns are their order. -/
theorem rowMatches_pkEncodePrikey {eng : Engine} {same : ℕ → Value → Value → Bool}
    {info : TableInfo} (hpositions : info.positions = List.range' 1 info.npks)
    (hnpks : info.npks ≤ 128) {row : List Value} (hlen : row.length = info.npks)
    (hsame : ∀ i, ∀ v ∈ row, same i v v = true) :
    eng.rowMatches same info (pkEncodePrikey row) row = true := by
  rw [Engine.rowMatches, List.all_eq_true, hpositions]
  rintro ⟨p, v⟩ hp
  rcases List.mem_iff_getElem.mp hp with ⟨i, hi, hget⟩
  rw [List.length_zip, List.length_range'] at hi
  rw [List.getElem_zip, List.getElem_range', Prod.mk.injEq] at hget
  rcases hget with ⟨rfl, rfl⟩
  rw [Nat.one_mul, Nat.add_comm 1 i, cloudsyncPkDecode_pkEncodePrikey eng row (by omega) i (by omega)]
  exact hsame _ _ (List.getElem_mem _)

/-- Each base row has its metadata. -/
structure Complete (info : TableInfo) (s : Tracked) : Prop where
  columns : ∀ row ∈ s.base, ∀ col ∈ info.colNames,
    s.metadata.get (pkEncodePrikey row, col) ≠ none
  sentinel : info.colNames = [] → ∀ row ∈ s.base,
    s.metadata.get (pkEncodePrikey row, CLOUDSYNC_TOMBSTONE_VALUE) ≠ none

/-- On complete metadata a primary key declared in the order of the columns makes
every refill find what it looks for. -/
theorem found_of_ordered {eng : Engine} {info : TableInfo} {s : Tracked}
    (hpositions : info.positions = List.range' 1 info.npks) (hnpks : info.npks ≤ 128)
    (hlen : ∀ row ∈ s.base, row.length = info.npks)
    (hexcept : ∀ row ∈ s.base, ∀ i, ∀ v ∈ row, eng.exceptSame i v v = true)
    (hjoin : ∀ row ∈ s.base, ∀ i, ∀ v ∈ row, eng.joinSame i v v = true)
    (hcomplete : Complete info s) :
    ∀ row ∈ s.base, eng.known info s row = true ∧
      ∀ col ∈ info.colNames, eng.joined info s col row = true := by
  intro row hrow
  have hself : eng.rowMatches eng.exceptSame info (pkEncodePrikey row) row = true :=
    rowMatches_pkEncodePrikey hpositions hnpks (hlen row hrow) (hexcept row hrow)
  constructor
  · rw [Engine.known, Keyed.existsWhere_iff]
    rcases hcols : info.colNames with _ | ⟨col, cols⟩
    · exact ⟨_, hself, hcomplete.sentinel hcols row hrow⟩
    · exact ⟨(_, col), hself, hcomplete.columns row hrow col (by rw [hcols]; exact .head _)⟩
  · intro col hcol
    exact (joined_iff eng info s col row).mpr ⟨_, hcomplete.columns row hrow col hcol,
      rowMatches_pkEncodePrikey hpositions hnpks (hlen row hrow) (hjoin row hrow)⟩

theorem cloudsyncRefillMetatable_ordered {eng : Engine} {info : TableInfo} {s : Tracked}
    (hpositions : info.positions = List.range' 1 info.npks) (hnpks : info.npks ≤ 128)
    (hlen : ∀ row ∈ s.base, row.length = info.npks)
    (hexcept : ∀ row ∈ s.base, ∀ i, ∀ v ∈ row, eng.exceptSame i v v = true)
    (hjoin : ∀ row ∈ s.base, ∀ i, ∀ v ∈ row, eng.joinSame i v v = true)
    (hcomplete : Complete info s) (k : Key × String) :
    (cloudsyncRefillMetatable eng .sound info s).2.metadata.get k = s.metadata.get k :=
  (cloudsyncRefillMetatable_writes eng .sound info s
    (cloudsyncRefillMetatable_sound eng info s)).metadata.unchanged_iff.mpr
      ((written_eq_empty_iff eng info s).mpr
        (found_of_ordered hpositions hnpks hlen hexcept hjoin hcomplete)) k

/-- Values are compared by content, and bytes that are no key decode to NULL. -/
def plainEngine : Engine := ⟨fun _ a b => decide (a = b), fun _ a b => decide (a = b), fun _ _ => .null⟩

/-- `CREATE TABLE t (a NOT NULL, b NOT NULL, c, PRIMARY KEY (b, a))`. -/
def swappedKey : TableInfo where
  columns := [⟨"a", "", true, none, 2⟩, ⟨"b", "", true, none, 1⟩, ⟨"c", "", false, none, 0⟩]
  names_differ := by decide

/-- One row, with its metadata. -/
def swappedRow : Tracked where
  data := cloudsyncContextCreate
  dataVersion := 0
  others := []
  base := [[.integer 1, .integer 2]]
  base_short := by decide
  metadata := ⟨[((pkEncodePrikey [.integer 1, .integer 2], "c"), ⟨1, 1, 0, 0⟩)],
    List.nodup_singleton _⟩

theorem swappedRow_complete : Complete swappedKey swappedRow where
  columns := by decide +kernel
  sentinel := fun h => by cases h

/-- A primary key declared in another order than its columns: initialising again
stamps complete metadata anew. -/
theorem cloudsyncRefillMetatable_restamps :
    ¬ ∀ (eng : Engine) (name : String) (info : TableInfo) (s : Tracked),
      info.dbutilsTableSanityCheck name false = .ok () → Complete info s →
      ∀ k, (cloudsyncRefillMetatable eng .sound info s).2.metadata.get k = s.metadata.get k := by
  intro h
  have hsame := h plainEngine "t" swappedKey swappedRow rfl swappedRow_complete
    (pkEncodePrikey [.integer 1, .integer 2], "c")
  revert hsame
  decide +kernel

end SqliteSync.Alter
