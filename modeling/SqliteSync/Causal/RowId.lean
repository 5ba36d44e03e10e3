import SqliteSync.Causal.Transaction
import SqliteSync.Store.Feed

/-!
# The rowid of the feed

`cloudsync_changes` packs the db version and the sequence number of a row into
its rowid. The two are stamped together, on every table of the connection, so
rows of the feed have different rowids when their stamps are distinct.
-/
namespace SqliteSync.Store
open Library Clock

variable {n : ℕ} {schema : Fin n → TableContext}

def cloudsyncChangesvtabRowid (c : Change n) : ℤ :=
  (BitVec.ofInt 64 c.dbVersion <<< 30 ||| BitVec.ofInt 64 c.seq).toInt

def Change.RowIdFits (c : Change n) : Prop :=
  (0 ≤ c.dbVersion ∧ c.dbVersion < 2 ^ 34) ∧ 0 ≤ c.seq ∧ c.seq < 2 ^ 30

instance (c : Change n) : Decidable c.RowIdFits := inferInstanceAs (Decidable (_ ∧ _))

theorem rowid_toNat {v s : ℕ} (hv : v < 2 ^ 34) (hs : s < 2 ^ 30) :
    (BitVec.ofInt 64 v <<< 30 ||| BitVec.ofInt 64 s).toNat = v * 2 ^ 30 + s := by
  have hv' : (BitVec.ofInt 64 (v : ℤ)).toNat = v := by
    rw [BitVec.ofInt_natCast, BitVec.toNat_ofNat, Nat.mod_eq_of_lt (by omega)]
  have hs' : (BitVec.ofInt 64 (s : ℤ)).toNat = s := by
    rw [BitVec.ofInt_natCast, BitVec.toNat_ofNat, Nat.mod_eq_of_lt (by omega)]
  rw [BitVec.toNat_or, BitVec.toNat_shiftLeft, hv', hs', Nat.mod_eq_of_lt, 
    ← Nat.shiftLeft_add_eq_or_of_lt hs, Nat.shiftLeft_eq]
  rw [Nat.shiftLeft_eq]
  omega

theorem rowid_injective {c c' : Change n} (hc : c.RowIdFits) (hc' : c'.RowIdFits)
    (h : cloudsyncChangesvtabRowid c = cloudsyncChangesvtabRowid c') :
    (c.dbVersion, c.seq) = (c'.dbVersion, c'.seq) := by
  rcases hc with ⟨⟨hv, hv'⟩, hs, hs'⟩
  rcases hc' with ⟨⟨hw, hw'⟩, ht, ht'⟩
  rw [cloudsyncChangesvtabRowid, cloudsyncChangesvtabRowid, BitVec.toInt_inj] at h
  lift c.dbVersion to ℕ using hv with v
  lift c.seq to ℕ using hs with s
  lift c'.dbVersion to ℕ using hw with w
  lift c'.seq to ℕ using ht with t
  have hnat := congrArg BitVec.toNat h
  rw [rowid_toNat (by omega) (by omega), rowid_toNat (by omega) (by omega)] at hnat
  have hversion : v = w := by omega
  have hseq : s = t := by omega
  rw [hversion, hseq]

/-- No two rows of the feed have one rowid, as long as the fields hold them. -/
def Replica.RowIdsDiffer (r : Replica schema) : Prop :=
  ∀ feed, r.cloudsyncChanges = .ok feed → (∀ c ∈ feed, c.RowIdFits) →
    (feed.map cloudsyncChangesvtabRowid).Nodup

/-- A change of the feed shows the stamp of a metadata row. -/
def Replica.Shows (r : Replica schema) (c : Change n) (q : Place n) : Prop :=
  ∃ m, r.metaAt q = some m ∧ m.stamp = (c.dbVersion, c.seq)

/-- Different rows of the metadata are shown by different changes of the feed. -/
theorem tableChanges_shows {r : Replica schema} {i : Fin n} {l : List (Change n)}
    (h : r.tableChanges i = .ok l) :
    (∀ c ∈ l, ∃ k, r.Shows c (i, k)) ∧
      l.Pairwise fun c c' => ∃ k k', k ≠ k' ∧ r.Shows c (i, k) ∧ r.Shows c' (i, k') := by
  rw [Replica.tableChanges] at h
  cases hrows : (r.table i).metadata.rows.mapM fun row =>
      ((r.table i).cloudsyncColValue row.1.2 row.1.1).map (r.changeOf i row.1 row.2) with
  | error err =>
    rw [hrows] at h
    cases h
  | ok changes =>
    rw [hrows] at h
    cases h
    have hall := forall₂_of_mapM hrows
    have hshows : ∀ row ∈ (r.table i).metadata.rows, ∀ c,
        ((r.table i).cloudsyncColValue row.1.2 row.1.1).map (r.changeOf i row.1 row.2) = .ok c →
          r.Shows c (i, row.1) := by
      intro row hrow c hc
      refine ⟨row.2, (Keyed.get_eq_some_iff _ _ _).mpr hrow, ?_⟩
      cases hv : (r.table i).cloudsyncColValue row.1.2 row.1.1 with
      | error err =>
        rw [hv] at hc
        cases hc
      | ok value =>
        rw [hv] at hc
        cases hc
        rfl
    refine ⟨fun c hc => ?_, .filter _ (pairwise_of_forall₂ hall
      (List.pairwise_map.mp (r.table i).metadata.nodup) ?_)⟩
    · rcases exists_of_forall₂ hall c (List.mem_of_mem_filter hc) with ⟨row, hrow, hc⟩
      exact ⟨row.1, hshows row hrow c hc⟩
    · intro row hrow row' hrow' c c' hne hc hc'
      exact ⟨row.1, row'.1, hne, hshows row hrow c hc, hshows row' hrow' c' hc'⟩

theorem cloudsyncChanges_shows {r : Replica schema} {feed : List (Change n)}
    (h : r.cloudsyncChanges = .ok feed) :
    feed.Pairwise fun c c' => ∃ q q', q ≠ q' ∧ r.Shows c q ∧ r.Shows c' q' := by
  rw [Replica.cloudsyncChanges] at h
  cases htables : (List.finRange n).mapM r.tableChanges with
  | error err =>
    rw [htables] at h
    cases h
  | ok lists =>
    rw [htables] at h
    cases h
    have hall := forall₂_of_mapM htables
    rw [List.pairwise_flatten]
    constructor
    · intro l hl
      rcases exists_of_forall₂ hall l hl with ⟨i, _, hi⟩
      refine (tableChanges_shows hi).2.imp ?_
      rintro c c' ⟨k, k', hne, hk, hk'⟩
      exact ⟨(i, k), (i, k'), fun heq => hne (Prod.mk.inj heq).2, hk, hk'⟩
    · apply pairwise_of_forall₂ hall (List.nodup_finRange n)
      intro i _ j _ l l' hne hi hj c hc c' hc'
      rcases (tableChanges_shows hi).1 c hc with ⟨k, hk⟩
      rcases (tableChanges_shows hj).1 c' hc' with ⟨k', hk'⟩
      exact ⟨(i, k), (j, k'), fun heq => hne (Prod.mk.inj heq).1, hk, hk'⟩

theorem rowIdsDiffer_of_distinct {r : Replica schema} (hr : Distinct MetaRow.stamp r.metaAt) :
    r.RowIdsDiffer := by
  intro feed hfeed hfits
  rw [List.Nodup, List.pairwise_map]
  refine (cloudsyncChanges_shows hfeed).imp_of_mem ?_
  rintro c c' hc hc' ⟨q, q', hne, ⟨m, hm, hstamp⟩, m', hm', hstamp'⟩ hsame
  have hpair := rowid_injective (hfits c hc) (hfits c' hc') hsame
  exact hne (hr q q' m m' hm hm' (hstamp.trans (hpair.trans hstamp'.symm)))

theorem forall_metaAt {r : Replica schema} {p : Place n → MetaRow → Prop} :
    (∀ q m, r.metaAt q = some m → p q m) ↔
      ∀ i, ∀ row ∈ (r.table i).metadata.rows, p (i, row.1) row.2 := by
  constructor
  · exact fun h i row hrow => h (i, row.1) row.2 ((Keyed.get_eq_some_iff _ _ _).mpr hrow)
  · exact fun h q m hm => h q.1 (q.2, m) ((Keyed.get_eq_some_iff _ _ _).mp hm)

theorem onlyAt_empty (site : SiteId) (v seq : ℤ) (p : Place n → Prop) :
    (Replica.empty schema site).OnlyAt v seq p := by
  rintro q m ⟨⟩

def Replica.sharesRowId (r : Replica schema) : Bool :=
  match r.cloudsyncChanges with
  | .ok feed => decide ((∀ c ∈ feed, c.RowIdFits) ∧ ¬ (feed.map cloudsyncChangesvtabRowid).Nodup)
  | .error _ => false

end SqliteSync.Store
