import SqliteSync.Causal.MergeEffect

/-!
# The stamps of a merge

The rows a merge stamps share the db version it was given. They stay apart from
all that was stored when the sequence numbers do.
-/
namespace SqliteSync.Store
open Library Clock

variable {n : ℕ} {schema : Fin n → TableContext}

namespace Replica
variable (r : Replica schema) (c : Change n)

def OnlyAt (v seq : ℤ) (p : Place n → Prop) : Prop :=
  ∀ q m, r.metaAt q = some m → m.stamp = (v, seq) → p q

/-- What a merge is going to stamp is apart from what is stored. -/
structure MergesApart : Prop where
  bury : r.Buries c → r.OnlyAt (r.dbVersionNext c.dbVersion).1 c.seq c.Names
  revive : r.Revives c → r.OnlyAt (r.dbVersionNext c.dbVersion).1 c.seq c.Names ∧
    ∀ q m, c.Names q → q.2.2 ≠ CLOUDSYNC_TOMBSTONE_VALUE → r.metaAt q = some m →
      m.seq ≠ c.seq ∧ r.OnlyAt (r.dbVersionNext c.dbVersion).1 m.seq c.Names ∧
      ∀ q' m', c.Names q' → q'.2.2 ≠ CLOUDSYNC_TOMBSTONE_VALUE → r.metaAt q' = some m' →
        m'.seq = m.seq → q' = q
  take : r.ColumnWins c → tableColumnLookup (schema c.tbl) c.name ≠ none →
    ¬ r.Resurrects c ∧
      r.OnlyAt (r.dbVersionNext c.dbVersion).1 c.seq (· = (c.tbl, c.pk, c.name))

end Replica

/-- A merge of `c` has led from `r` to `r'`, where the stamps are still distinct. -/
structure Restamped (r r' : Replica schema) (c : Change n) : Prop where
  merging : Merging r r' c.dbVersion
  distinct : Distinct MetaRow.stamp r'.metaAt
  rows : ∀ q m, r'.metaAt q = some m →
    m.dbVersion = (r.dbVersionNext c.dbVersion).1 ∨ r.metaAt q = some m

namespace Restamped
variable {r r' : Replica schema} {c : Change n}

theorem refl (hr : Distinct MetaRow.stamp r.metaAt) (c : Change n) : Restamped r r c :=
  ⟨.refl r c.dbVersion, hr, fun _ _ hm => .inr hm⟩

theorem take (hr : Distinct MetaRow.stamp r.metaAt) (h : Merging r r' c.dbVersion)
    {q₀ : Place n} {m₀ : MetaRow} (hstamp : m₀.stamp = ((r.dbVersionNext c.dbVersion).1, c.seq))
    (hmeta : r'.metaAt = Function.update r.metaAt q₀ (some m₀))
    (hfree : r.OnlyAt (r.dbVersionNext c.dbVersion).1 c.seq (· = q₀)) : Restamped r r' c := by
  have hrows : ∀ q m, r'.metaAt q = some m → q = q₀ ∧ m = m₀ ∨ q ≠ q₀ ∧ r.metaAt q = some m := by
    intro q m hm
    rw [hmeta, Function.update_apply] at hm
    split_ifs at hm with hq
    · exact .inl ⟨hq, (Option.some_inj.mp hm).symm⟩
    · exact .inr ⟨hq, hm⟩
  refine ⟨h, hr.insert (k := q₀) (s := ((r.dbVersionNext c.dbVersion).1, c.seq)) ?_, ?_⟩
  · intro q m hm
    rcases hrows q m hm with ⟨hq, rfl⟩ | ⟨hq, hold⟩
    · exact .inl ⟨hq, hstamp⟩
    · exact .inr ⟨hold, fun hsame => hq (hfree q m hold hsame)⟩
  · intro q m hm
    rcases hrows q m hm with ⟨_, rfl⟩ | ⟨_, hold⟩
    · exact .inl (congrArg Prod.fst hstamp)
    · exact .inr hold

theorem bury (hr : Distinct MetaRow.stamp r.metaAt) (h : Merging r r' c.dbVersion)
    {m₀ : MetaRow} (hstamp : m₀.stamp = ((r.dbVersionNext c.dbVersion).1, c.seq))
    (hmeta : ∀ q, r'.metaAt q = if q.1 = c.tbl ∧ Table.isColumnOf c.pk q.2 = true then none
      else Function.update r.metaAt (c.tbl, c.pk, c.name) (some m₀) q)
    (hfree : r.OnlyAt (r.dbVersionNext c.dbVersion).1 c.seq c.Names) : Restamped r r' c := by
  -- of the key only the sentinel is left, as it was or as the change has it
  have hrows : ∀ q m, r'.metaAt q = some m →
      (c.Names q → q.2.2 = CLOUDSYNC_TOMBSTONE_VALUE) ∧
        (c.Names q ∧ m = m₀ ∨ r.metaAt q = some m) := by
    intro q m hm
    rw [hmeta, Function.update_apply] at hm
    split_ifs at hm with hcol hq
    · refine ⟨fun hnames => not_not.mp fun hname => hcol ?_, .inl ⟨hq ▸ ⟨rfl, rfl⟩, ?_⟩⟩
      · exact (c.isColumnOf_iff q).mpr ⟨hnames, hname⟩
      · exact (Option.some_inj.mp hm).symm
    · refine ⟨fun hnames => not_not.mp fun hname => hcol ?_, .inr hm⟩
      exact (c.isColumnOf_iff q).mpr ⟨hnames, hname⟩
  refine ⟨h, hr.revise c.Names ?_ ?_ ?_, ?_⟩
  · intro q m hq hm
    exact (hrows q m hm).2.resolve_left fun hnew => hq hnew.1
  · intro q q' m m' hq hq' hm hm' _
    exact hq.ext hq' (((hrows q m hm).1 hq).trans ((hrows q' m' hm').1 hq').symm)
  · intro q q' m m' hq hq' hm hm' hsame
    have hold' := (hrows q' m' hm').2.resolve_left fun hnew => hq' hnew.1
    rcases (hrows q m hm).2 with ⟨_, rfl⟩ | hold
    · exact hq' (hfree q' m' hold' (hsame.symm.trans hstamp))
    · exact hq' (hr q q' m m' hold hold' hsame ▸ hq)
  · intro q m hm
    rcases (hrows q m hm).2 with ⟨_, rfl⟩ | hold
    · exact .inl (congrArg Prod.fst hstamp)
    · exact .inr hold

theorem revive (hr : Distinct MetaRow.stamp r.metaAt) (h : Merging r r' c.dbVersion)
    {m₀ : MetaRow} (hstamp : m₀.stamp = ((r.dbVersionNext c.dbVersion).1, c.seq))
    (hmeta : ∀ q, r'.metaAt q = if q = (c.tbl, c.pk, CLOUDSYNC_TOMBSTONE_VALUE) then some m₀
      else if q.1 = c.tbl ∧ Table.isColumnOf c.pk q.2 = true then
        (r.metaAt q).map fun m =>
          { m with colVersion := 0, dbVersion := (r.dbVersionNext c.dbVersion).1 }
      else r.metaAt q)
    (hapart : r.MergesApart c) (hrevives : r.Revives c) : Restamped r r' c := by
  rcases hapart.revive hrevives with ⟨hfree, hcolumns⟩
  -- the sentinel, the columns, and the rows of other keys
  have hrows : ∀ q m, r'.metaAt q = some m →
      (c.Names q ∧ q.2.2 = CLOUDSYNC_TOMBSTONE_VALUE ∧
          m.stamp = ((r.dbVersionNext c.dbVersion).1, c.seq)) ∨
        (c.Names q ∧ q.2.2 ≠ CLOUDSYNC_TOMBSTONE_VALUE ∧ ∃ m', r.metaAt q = some m' ∧
          m.stamp = ((r.dbVersionNext c.dbVersion).1, m'.seq)) ∨
        (¬ c.Names q ∧ r.metaAt q = some m) := by
    intro q m hm
    rw [hmeta] at hm
    split_ifs at hm with hq hcol
    · subst hq
      exact .inl ⟨⟨rfl, rfl⟩, rfl, Option.some_inj.mp hm ▸ hstamp⟩
    · rcases Option.map_eq_some_iff.mp hm with ⟨m', hold, rfl⟩
      rcases (c.isColumnOf_iff q).mp hcol with ⟨hnames, hname⟩
      exact .inr (.inl ⟨hnames, hname, m', hold, rfl⟩)
    · refine .inr (.inr ⟨fun hnames => ?_, hm⟩)
      by_cases hname : q.2.2 = CLOUDSYNC_TOMBSTONE_VALUE
      · exact hq (hnames.ext ⟨rfl, rfl⟩ hname)
      · exact hcol ((c.isColumnOf_iff q).mpr ⟨hnames, hname⟩)
  refine ⟨h, hr.revise c.Names ?_ ?_ ?_, ?_⟩
  · intro q m hq hm
    rcases hrows q m hm with ⟨hq', _⟩ | ⟨hq', _⟩ | ⟨_, hold⟩
    · exact (hq hq').elim
    · exact (hq hq').elim
    · exact hold
  · intro q q' m m' hq hq' hm hm' hsame
    rcases hrows q m hm with ⟨_, hname, hm⟩ | ⟨_, hname, m₁, hold, hm⟩ | ⟨hno, _⟩ <;>
      rcases hrows q' m' hm' with ⟨_, hname', hm'⟩ | ⟨_, hname', m₁', hold', hm'⟩ | ⟨hno', _⟩
    · exact hq.ext hq' (hname.trans hname'.symm)
    · exact ((hcolumns q' m₁' hq' hname' hold').1
        (congrArg Prod.snd (hm'.symm.trans (hsame.symm.trans hm)))).elim
    · exact (hno' hq').elim
    · exact ((hcolumns q m₁ hq hname hold).1
        (congrArg Prod.snd (hm.symm.trans (hsame.trans hm')))).elim
    · exact (hcolumns q' m₁' hq' hname' hold').2.2 q m₁ hq hname hold
        (congrArg Prod.snd (hm.symm.trans (hsame.trans hm')))
    · exact (hno' hq').elim
    · exact (hno hq).elim
    · exact (hno hq).elim
    · exact (hno hq).elim
  · intro q q' m m' hq hq' hm hm' hsame
    have hold' : r.metaAt q' = some m' := by
      rcases hrows q' m' hm' with ⟨hyes, _⟩ | ⟨hyes, _⟩ | ⟨_, hold'⟩
      · exact (hq' hyes).elim
      · exact (hq' hyes).elim
      · exact hold'
    rcases hrows q m hm with ⟨_, _, hm⟩ | ⟨_, hname, m₁, hold, hm⟩ | ⟨hno, _⟩
    · exact hq' (hfree q' m' hold' (hsame.symm.trans hm))
    · exact hq' ((hcolumns q m₁ hq hname hold).2.1 q' m' hold' (hsame.symm.trans hm))
    · exact hno hq
  · intro q m hm
    rcases hrows q m hm with ⟨_, _, hm⟩ | ⟨_, _, _, _, hm⟩ | ⟨_, hold⟩
    · exact .inl (congrArg Prod.fst hm)
    · exact .inl (congrArg Prod.fst hm)
    · exact .inr hold

end Restamped

/-- A merge whose stamps are apart from what is stored keeps the stamps distinct. -/
theorem cloudsyncMergeInsert_restamped {r : Replica schema} {c : Change n}
    (hset : r.checked.dbVersion ≠ CLOUDSYNC_VALUE_NOTSET) (hr : Distinct MetaRow.stamp r.metaAt)
    (hapart : r.MergesApart c) : Restamped r (cloudsyncMergeInsert noFaults r c).2 c := by
  rcases cloudsyncMergeInsert_effect (c := c) hset with ⟨heffect, hmerging⟩
  generalize (cloudsyncMergeInsert noFaults r c).2 = r' at heffect hmerging
  cases heffect with
  | idle he =>
    subst he
    exact .refl hr c
  | bury hburies _ hmeta => exact .bury hr hmerging rfl hmeta (hapart.bury hburies)
  | revive cl hrevives _ hmeta => exact .revive hr hmerging rfl hmeta hapart hrevives
  | take hwins hcol _ hmeta => exact .take hr hmerging rfl hmeta (hapart.take hwins hcol).2
  | reviveTake hwins hcol hres => exact absurd hres (hapart.take hwins hcol).1

end SqliteSync.Store
