import SqliteSync.Causal.DeclaredRun

/-!
# The parity of a causal length

A base row exists exactly when its causal length is odd, and a dead row keeps
no metadata but its tombstone. Local changes and merges keep this, as long as
the code sees the changes of primary keys and the length of a row it deletes
can grow.
-/
namespace SqliteSync.Store
open Library Clock

theorem odd_INT64_MAX : INT64_MAX % 2 = 1 := by decide

theorem sentinelBump_odd (v : ℤ) : sentinelBump v % 2 = 1 := by
  have hmax := odd_INT64_MAX
  rw [sentinelBump, sqlAdd, sqlAdd]
  split_ifs <;> omega

namespace RowState
variable {table : TableContext}

/-- Causal length, base row and metadata of a row agree. -/
structure Consistent (s : RowState table) : Prop where
  pos : ∀ m, s.sentinel = some m → 0 < m.colVersion
  row_iff : s.row ≠ none ↔ s.localCl % 2 = 1
  dead : s.localCl % 2 = 0 → ∀ name, name ≠ CLOUDSYNC_TOMBSTONE_VALUE → s.info name = none

theorem Consistent.localCl_nonneg {s : RowState table} (h : s.Consistent) : 0 ≤ s.localCl := by
  cases hs : s.sentinel with
  | some m =>
    rw [localCl_of_sentinel hs]
    exact (h.pos m hs).le
  | none =>
    rw [localCl, hs]
    dsimp only
    split_ifs <;> decide

theorem consistent_absent : (absent table).Consistent where
  pos m hm := by cases hm
  row_iff := by
    rw [localCl_absent]
    exact ⟨fun h => absurd rfl h, fun h => absurd h Int.zero_ne_one⟩
  dead _ _ _ := rfl

theorem Consistent.of_alive {s : RowState table} (hrow : s.row ≠ none) (hodd : s.localCl % 2 = 1)
    (hpos : 0 ≤ s.localCl) : s.Consistent where
  pos m hm := by
    rw [localCl_of_sentinel hm] at hodd hpos
    omega
  row_iff := ⟨fun _ => hodd, fun _ => hrow⟩
  dead h := by omega

/-- A row that holds nothing but a tombstone of even length. -/
theorem Consistent.of_dead {s : RowState table} {m : MetaRow} (hrow : s.row = none)
    (hs : s.sentinel = some m) (heven : m.colVersion % 2 = 0) (hpos : 0 < m.colVersion)
    (hdead : ∀ name, name ≠ CLOUDSYNC_TOMBSTONE_VALUE → s.info name = none) : s.Consistent where
  pos m' hm' := by
    rw [hs, Option.some.injEq] at hm'
    exact hm' ▸ hpos
  row_iff := by
    rw [hrow, localCl_of_sentinel hs]
    exact ⟨fun h => absurd rfl h, fun h => by omega⟩
  dead _ := hdead

theorem Consistent.alive_of_row {s : RowState table} (h : s.Consistent) {row : Row table}
    (hrow : s.row = some row) : s.localCl % 2 = 1 :=
  h.row_iff.mp (hrow ▸ Option.some_ne_none row)

@[simp] theorem setRow_localCl (s : RowState table) (row : Option (Row table)) :
    (s.setRow row).localCl = s.localCl := rfl

@[simp] theorem setRow_sentinel (s : RowState table) (row : Option (Row table)) :
    (s.setRow row).sentinel = s.sentinel := rfl

@[simp] theorem setInfo_tombstone_sentinel (s : RowState table) (m : MetaRow) :
    (s.setInfo CLOUDSYNC_TOMBSTONE_VALUE m).sentinel = some m := by
  simp [sentinel]

theorem setInfo_sentinel_of_ne (s : RowState table) {name : String}
    (h : name ≠ CLOUDSYNC_TOMBSTONE_VALUE) (m : MetaRow) :
    (s.setInfo name m).sentinel = s.sentinel := by
  simp [sentinel, Ne.symm h]

@[simp] theorem dropColumns_sentinel (s : RowState table) : s.dropColumns.sentinel = s.sentinel := by
  simp [sentinel]

/-- The causal length depends on the sentinel, and without one on whether the
row has any metadata. -/
theorem localCl_of_metadata {s : RowState table} (h : s.sentinel = none → ∃ name, s.info name ≠ none) :
    s.localCl = (s.sentinel.map MetaRow.colVersion).getD 1 := by
  cases hs : s.sentinel with
  | some m => exact localCl_of_sentinel hs
  | none =>
    rcases h hs with ⟨name, hname⟩
    exact localCl_of_info hs hname

theorem exists_info_of_odd {s : RowState table} (h : s.localCl % 2 = 1) (hs : s.sentinel = none) :
    ∃ name, s.info name ≠ none := by
  by_contra hnone
  rw [localCl, hs] at h
  simp [hnone] at h

/-- Writing a column of a row leaves its causal length alone, if it had one. -/
theorem localCl_setInfo (s : RowState table) {name : String}
    (hname : name ≠ CLOUDSYNC_TOMBSTONE_VALUE) (m : MetaRow) :
    (s.setInfo name m).localCl = (s.sentinel.map MetaRow.colVersion).getD 1 := by
  rw [localCl_of_metadata, setInfo_sentinel_of_ne s hname]
  intro _
  exact ⟨name, by simp⟩

theorem localCl_markColumns {s : RowState table} (h : s.localCl % 2 = 1)
    (cols : List (Fin table.ncols)) (dbVersion : ℤ) (seq : String → ℤ) :
    (s.markColumns cols dbVersion seq).localCl = s.localCl := by
  rw [localCl_of_metadata (exists_info_of_odd h), localCl_of_metadata, markColumns_sentinel]
  intro hs
  rw [markColumns_sentinel] at hs
  rcases exists_info_of_odd h hs with ⟨name, hname⟩
  refine ⟨name, ?_⟩
  simp only [markColumns]
  split_ifs
  · exact Option.some_ne_none _
  · exact hname

theorem localCl_of_alive (s : RowState table) (m : MetaRow) :
    (s.setInfo CLOUDSYNC_TOMBSTONE_VALUE m).localCl = m.colVersion :=
  localCl_of_sentinel (setInfo_tombstone_sentinel s m)

theorem bumpVersion_odd (m : Option MetaRow) : bumpVersion m % 2 = 1 := by
  cases m with
  | none => rfl
  | some m => exact sentinelBump_odd m.colVersion

theorem sentinelBump_nonneg {v : ℤ} (h : 0 ≤ v) : 0 ≤ sentinelBump v := by
  rw [sentinelBump, sqlAdd, sqlAdd, INT64_MAX]
  split_ifs <;> omega

theorem bumpVersion_nonneg {s : RowState table} (h : s.Consistent) :
    0 ≤ bumpVersion s.sentinel := by
  cases hs : s.sentinel with
  | none => exact zero_le_one
  | some m => exact sentinelBump_nonneg (h.pos m hs).le

@[simp] theorem inserted_row (s : RowState table) (dbVersion seq₀ : ℤ) (seq : String → ℤ) :
    (s.inserted dbVersion seq₀ seq).row = s.row := by
  rw [RowState.inserted]
  split_ifs <;> simp

theorem inserted_localCl (s : RowState table) (dbVersion seq₀ : ℤ) (seq : String → ℤ) :
    (s.inserted dbVersion seq₀ seq).localCl = bumpVersion s.sentinel := by
  have halive : ∀ cols, ((s.markAlive dbVersion seq₀).markColumns cols dbVersion seq).localCl =
      bumpVersion s.sentinel := by
    intro cols
    apply localCl_of_sentinel (m := ⟨bumpVersion s.sentinel, dbVersion, 0, seq₀⟩)
    exact (markColumns_sentinel _ _ _ _).trans (setInfo_tombstone_sentinel _ _)
  rw [RowState.inserted]
  split_ifs with hcols
  · exact halive _
  cases hs : s.sentinel with
  | some m =>
    have hbump : s.bumpAlive dbVersion seq₀ = s.markAlive dbVersion seq₀ := by
      simp only [bumpAlive, hs]
    rw [hbump, ← hs]
    exact halive _
  | none =>
    have hbump : s.bumpAlive dbVersion seq₀ = s := by
      simp only [bumpAlive, hs]
    have hfirst := s.markColumns_of_mem (List.mem_finRange ⟨0, Nat.pos_of_ne_zero hcols⟩)
      dbVersion seq
    rw [hbump]
    apply localCl_of_info
    · rw [markColumns_sentinel, hs]
    · rw [hfirst]
      exact Option.some_ne_none _

theorem Consistent.inserted {s : RowState table} (h : s.Consistent) (row : Row table)
    (dbVersion seq₁ : ℤ) (seq : String → ℤ) :
    ((s.setRow (some row)).inserted dbVersion seq₁ seq).Consistent := by
  apply Consistent.of_alive
  · simp
  · rw [inserted_localCl]
    exact bumpVersion_odd _
  · rw [inserted_localCl]
    exact bumpVersion_nonneg (s := s) h

def SentinelBelowMax (s : RowState table) : Prop :=
  ∀ m, s.sentinel = some m → m.colVersion < INT64_MAX

instance (s : RowState table) : Decidable s.SentinelBelowMax :=
  decidable_of_iff (∀ m ∈ s.sentinel.toList, m.colVersion < INT64_MAX) (by
    simp [SentinelBelowMax])

theorem Consistent.deleted {s : RowState table} (h : s.Consistent) (hrow : s.row ≠ none)
    (hmax : s.SentinelBelowMax) (dbVersion seq : ℤ) :
    ((s.setRow none).deleted dbVersion seq).Consistent := by
  have hodd := h.row_iff.mp hrow
  refine Consistent.of_dead (m := ⟨markVersion s.sentinel 2, dbVersion, 0, seq⟩) rfl ?_ ?_ ?_ ?_
  · simp [RowState.deleted, RowState.markDeleted]
  · cases hs : s.sentinel with
    | none => rfl
    | some m =>
      rw [localCl_of_sentinel hs] at hodd
      have hlt := hmax m hs
      simp only [markVersion, Option.map_some, Option.getD_some, sqlAdd]
      omega
  · cases hs : s.sentinel with
    | none => exact zero_lt_two
    | some m =>
      have hpos := h.pos m hs
      have hlt := hmax m hs
      simp only [markVersion, Option.map_some, Option.getD_some, sqlAdd]
      omega
  · intro name hname
    simp [RowState.deleted, hname]

theorem arrived_localCl (s old : RowState table) (cols : List (Fin table.ncols))
    (dbVersion seq₂ seq₃ : ℤ) (seq : String → ℤ) :
    (s.arrived old cols dbVersion seq₂ seq₃ seq).localCl = bumpVersion s.sentinel := by
  have hs : (s.receive old dbVersion seq₂).sentinel = s.sentinel := by
    simp [sentinel]
  rw [← hs]
  apply localCl_of_sentinel
    (m := ⟨bumpVersion (s.receive old dbVersion seq₂).sentinel, dbVersion, 0, seq₃⟩)
  exact (markColumns_sentinel _ _ _ _).trans (setInfo_tombstone_sentinel _ _)

theorem Consistent.arrived {s : RowState table} (h : s.Consistent) (old : RowState table)
    (row : Row table) (cols : List (Fin table.ncols)) (dbVersion seq₂ seq₃ : ℤ)
    (seq : String → ℤ) :
    ((s.setRow (some row)).arrived old cols dbVersion seq₂ seq₃ seq).Consistent := by
  apply Consistent.of_alive
  · simp [RowState.arrived]
  · rw [arrived_localCl]
    exact bumpVersion_odd _
  · rw [arrived_localCl]
    exact bumpVersion_nonneg (s := s) h

/-- Local changes of rows keep the invariant, a deletion if the sentinel can grow. -/
theorem consistent_rowStep {rows rows' : Pk → RowState table} {dbVersion seq₀ : ℤ}
    {c : RowChange table} (hstep : RowStep dbVersion seq₀ rows c rows')
    (hmax : ∀ pk, (∃ o pk' row, c = .update o pk pk' row ∧ pk' ≠ pk) ∨ c = .delete pk →
      (rows pk).SentinelBelowMax)
    (h : ∀ pk, (rows pk).Consistent) : ∀ pk, (rows' pk).Consistent := by
  intro pk'
  cases hstep with
  | insert row hfree hseq₁ hseq =>
    rw [Function.update_apply]
    split_ifs
    · exact (h _).inserted row dbVersion _ _
    · exact h pk'
  | @update orReplace pk row oldRow hold seq hseq =>
    rw [Function.update_apply]
    split_ifs
    · have hodd : ((rows pk).setRow (some row)).localCl % 2 = 1 := (h pk).alive_of_row hold
      apply Consistent.of_alive
      · simp
      · rw [localCl_markColumns hodd]
        exact hodd
      · rw [localCl_markColumns hodd]
        exact (h pk).localCl_nonneg
    · exact h pk'
  | @move orReplace oldpk pk hne row oldRow hold hfree seq₁ seq₂ seq₃ seq hseq₁ hseq₂ hseq₃ hseq =>
    rw [Function.update_apply, Function.update_apply]
    split_ifs
    · exact (h pk).arrived (rows oldpk) row _ dbVersion _ _ _
    · exact (h oldpk).deleted (hold ▸ Option.some_ne_none oldRow)
        (hmax oldpk (.inl ⟨orReplace, pk, row, rfl, hne⟩)) dbVersion _
    · exact h pk'
  | @delete pk hold seq₁ hseq₁ =>
    rw [Function.update_apply]
    split_ifs
    · exact (h pk).deleted hold (hmax pk (.inr rfl)) dbVersion _
    · exact h pk'

section
variable {n : ℕ} {s : RowState table} {c : Change n}

theorem Consistent.resurrect (h : s.Consistent) {cl : ℤ} (hodd : cl % 2 = 1) (hle : s.localCl ≤ cl)
    (st : Stamps) : (s.resurrect cl c st).Consistent := by
  have hcl : (s.resurrect cl c st).localCl = cl := localCl_of_alive _ _
  apply Consistent.of_alive
  · simp [RowState.resurrect]
  · rw [hcl, hodd]
  · rw [hcl]
    exact h.localCl_nonneg.trans hle

theorem Consistent.bury (h : s.Consistent) (hname : c.name = CLOUDSYNC_TOMBSTONE_VALUE)
    (hcl : c.colVersion = c.cl) (heven : c.cl % 2 = 0) (hlt : s.localCl < c.cl) (st : Stamps) :
    (s.bury c st).Consistent := by
  refine Consistent.of_dead (m := ⟨c.colVersion, st.sentinel, st.site, c.seq⟩) rfl ?_ ?_ ?_ ?_
  · rw [RowState.bury, hname, dropColumns_sentinel, setInfo_tombstone_sentinel]
  · rw [hcl, heven]
  · rw [hcl]
    exact h.localCl_nonneg.trans_lt hlt
  · intro name hname'
    simp [RowState.bury, hname']

/-- A column written into a row that is alive, or that never was and now starts
its first life. -/
theorem Consistent.take (h : s.Consistent) (halive : s.localCl % 2 = 1 ∨ s.localCl = 0)
    (hname : c.name ≠ CLOUDSYNC_TOMBSTONE_VALUE) (col : Fin table.ncols) (st : Stamps) :
    (s.take col c st).Consistent := by
  have hcl := localCl_setInfo (s.setRow (some (Function.update (s.row.getD table.dflt) col
    c.colValue))) hname ⟨c.colVersion, st.column, st.site, c.seq⟩
  have hodd : (s.sentinel.map MetaRow.colVersion).getD 1 % 2 = 1 ∧
      0 ≤ (s.sentinel.map MetaRow.colVersion).getD 1 := by
    cases hs : s.sentinel with
    | none => decide
    | some m =>
      have hpos := h.pos m hs
      rw [localCl_of_sentinel hs] at halive
      simp only [Option.map_some, Option.getD_some]
      omega
  apply Consistent.of_alive
  · simp [RowState.take]
  · exact hcl ▸ hodd.1
  · exact hcl ▸ hodd.2

theorem Consistent.prepared (h : s.Consistent) (hodd : c.cl % 2 = 1) (hle : s.localCl ≤ c.cl)
    (st : Stamps) : (s.prepared c st).Consistent := by
  rw [RowState.prepared]
  split_ifs
  · exact h.resurrect hodd hle st
  · exact h

/-- A prepared row is alive, unless its first life is about to start. -/
theorem localCl_prepared (hodd : c.cl % 2 = 1) (hpos : 0 ≤ s.localCl) (hle : s.localCl ≤ c.cl)
    (st : Stamps) : (s.prepared c st).localCl % 2 = 1 ∨ (s.prepared c st).localCl = 0 := by
  rw [RowState.prepared]
  split_ifs with h
  · left
    rw [RowState.resurrect, localCl_of_alive]
    exact hodd
  · omega

theorem consistent_merged (h : s.Consistent) (hwf : c.WellFormed) (st : Stamps) :
    (s.merged c st).Consistent := by
  have hpos := h.localCl_nonneg
  rw [Change.WellFormed] at hwf
  rw [merged]
  split_ifs with hold heven heq htomb heq
  · exact h
  · exact h
  · have htomb : c.name = CLOUDSYNC_TOMBSTONE_VALUE := by
      by_contra hne
      rw [if_neg hne] at hwf
      omega
    rw [if_pos htomb] at hwf
    exact h.bury htomb hwf heven (by omega) st
  · exact h
  · rw [if_pos htomb] at hwf
    exact h.resurrect (by omega) (by omega) st
  · have hodd : c.cl % 2 = 1 := by omega
    have hprep := h.prepared hodd (by omega) st
    cases hcol : tableColumnLookup table c.name with
    | none =>
      rw [columnMerged_of_none hcol]
      exact hprep
    | some col =>
      by_cases hwin : s.localCl < c.cl ∨ s.Beaten col c
      · rw [columnMerged_of_wins hcol hwin]
        exact hprep.take (localCl_prepared hodd hpos (by omega) st) htomb col st
      · rw [columnMerged_of_loses hcol hwin]
        exact h

end
end RowState

namespace Replica
variable {n : ℕ} {schema : Fin n → TableContext}

/-- A local change of a row whose effect on the key the code sees, and that
deletes no row at the largest causal length. -/
def KeepsParity (r : Replica schema) : Event schema → Prop
  | .write i c => c.KeyDetected ∧
      match c with
      | .insert _ _ _ => True
      | .update _ oldpk pk _ => pk ≠ oldpk → (r.rows i oldpk).SentinelBelowMax
      | .delete pk => (r.rows i pk).SentinelBelowMax
  | _ => True

instance (r : Replica schema) : (e : Event schema) → Decidable (r.KeepsParity e)
  | .write _ (.insert _ _ _) => inferInstanceAs (Decidable (True ∧ True))
  | .write i (.update _ oldpk pk _) =>
    inferInstanceAs (Decidable ((pk ≠ oldpk → prikeyChanged pk oldpk = true) ∧
      (pk ≠ oldpk → (r.rows i oldpk).SentinelBelowMax)))
  | .write i (.delete pk) => inferInstanceAs (Decidable (True ∧ (r.rows i pk).SentinelBelowMax))
  | .merge _ => inferInstanceAs (Decidable True)
  | .commit => inferInstanceAs (Decidable True)

/-- In every run whose local changes are seen, a base row exists exactly when
its causal length is odd, and a row of even length has no column metadata. -/
theorem reached_parity (hcls : ∀ i, (schema i).algo = .crdtCls) (r : Replica schema)
    (h : Reached schema KeepsParity r) (i : Fin n) (pk : Pk) :
    ((r.table i).base.get pk ≠ none ↔ (r.table i).metaLocalCl pk % 2 = 1) ∧
      ((r.table i).metaLocalCl pk % 2 = 0 → ∀ name, name ≠ CLOUDSYNC_TOMBSTONE_VALUE →
        (r.table i).metadata.get (pk, name) = none) := by
  have hrows : r.AllRecording ∧ ∀ i pk, (r.rows i pk).Consistent := by
    refine h.recording_invariant hcls (I := fun i s => s.Consistent) (fun _ _ _ hc => hc.1)
      (fun _ _ hs => hs.localCl_nonneg) (fun _ => RowState.consistent_absent) ?_ ?_
    · rintro r i c dbVersion seq₀ rows' ⟨-, hmax⟩ hs hstep
      refine RowState.consistent_rowStep hstep ?_ hs
      rintro pk (⟨o, pk', row, rfl, hne⟩ | rfl)
      · exact hmax hne
      · exact hmax
    · exact fun r c st _ hwf hs => RowState.consistent_merged hs hwf st
  have hrow := hrows.2 i pk
  rw [Table.metaLocalCl_eq]
  exact ⟨hrow.row_iff, hrow.dead⟩

/-- A primary key changed only behind a NUL byte: the comparison does not see
it, the metadata stays under the old key, and the row at the new one has none. -/
theorem reached_not_parity :
    ¬ ∀ (n : ℕ) (schema : Fin n → TableContext), (∀ i, (schema i).algo = .crdtCls) →
      ∀ r, Reached schema (fun _ _ => True) r → ∀ i pk,
        ((r.table i).base.get pk ≠ none ↔ (r.table i).metaLocalCl pk % 2 = 1) ∧
          ((r.table i).metaLocalCl pk % 2 = 0 → ∀ name, name ≠ CLOUDSYNC_TOMBSTONE_VALUE →
            (r.table i).metadata.get (pk, name) = none) := by
  intro h
  rcases Reachable.exists_of_runs step
    (fun r : Replica (fun _ : Fin 1 => singleColumn) => ∃ site, r = empty _ site)
    (fun _ _ => True) ⟨[1], rfl⟩
    [.write 0 (.insert false [.text ⟨[0x61, 0, 0x62], by decide⟩] fun _ => .null),
      .write 0 (.update false [.text ⟨[0x61, 0, 0x62], by decide⟩]
        [.text ⟨[0x61, 0, 0x63], by decide⟩] fun _ => .null)]
    (fun r => decide ((r.table 0).base.get [.text ⟨[0x61, 0, 0x63], by decide⟩] ≠ none ∧
      (r.table 0).metaLocalCl [.text ⟨[0x61, 0, 0x63], by decide⟩] = 0)) (by decide)
    with ⟨r, hr, hbad⟩
  rcases of_decide_eq_true hbad with ⟨hrow, hcl⟩
  have hodd := (h 1 _ (fun _ => rfl) r hr 0 _).1.mp hrow
  rw [hcl] at hodd
  exact absurd hodd (by decide)

end Replica

namespace Declared
variable {n : ℕ} {schema : Fin n → TableContext} {decl : (i : Fin n) → Declaration (schema i)}
  {cells : (i : Fin n) → Cells (schema i)}

/-- Rows stay consistent in every run on tables that take its keys and values as they are. -/
theorem reached_consistent (hcls : ∀ i, (schema i).algo = .crdtCls)
    (hplain : ∀ i, (decl i).Plain (cells i)) (r : Replica schema)
    (h : Reached decl (fun r e => e.Within cells ∧ r.KeepsParity e) r) (i : Fin n) (pk : Pk) :
    ((r.table i).base.get pk ≠ none ↔ (r.table i).metaLocalCl pk % 2 = 1) ∧
      ((r.table i).metaLocalCl pk % 2 = 0 → ∀ name, name ≠ CLOUDSYNC_TOMBSTONE_VALUE →
        (r.table i).metadata.get (pk, name) = none) :=
  Replica.reached_parity hcls r (reached_of_within hplain h).2 i pk

/-- A run that inserts a row, moves it to another key, deletes it there and merges it
back to life. -/
theorem reached_consistent_moved : ∃ r : Replica (fun _ : Fin 1 => singleColumn),
    (r.table 0).metaLocalCl (letterKey 0x62) = 3 ∧
      ((r.table 0).base.get (letterKey 0x62) ≠ none ↔
        (r.table 0).metaLocalCl (letterKey 0x62) % 2 = 1) := by
  rcases Reachable.exists_of_runs (step fun _ : Fin 1 => foldedKey)
    (fun r => ∃ site, r = Replica.empty _ site)
    (fun r e => e.Within (fun _ => letterCells) ∧ r.KeepsParity e) ⟨[1], rfl⟩
    [.write 0 (.insert false (letterKey 0x61) fun _ => .integer 10),
      .write 0 (.update false (letterKey 0x61) (letterKey 0x62) fun _ => .integer 10), .commit,
      .write 0 (.delete (letterKey 0x62)),
      .merge ⟨0, letterKey 0x62, some "v", .integer 11, 1, 7, [2], 3, 0⟩]
    (fun r => decide ((r.table 0).metaLocalCl (letterKey 0x62) = 3)) (by decide) with ⟨r, hr, hcl⟩
  exact ⟨r, of_decide_eq_true hcl,
    (reached_consistent (fun _ => rfl) (fun _ => foldedKey_plain) r hr 0 (letterKey 0x62)).1⟩

end Declared
end SqliteSync.Store
