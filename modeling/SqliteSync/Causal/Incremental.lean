import SqliteSync.Causal.Stamped

/-!
# Incremental synchronisation

Peers ask each other for the rows of the feed above a cursor, and move the cursor to
the newest row of the answer they apply. Peers write, commit and merge in between, and
answers come late, twice, in another order or never. No cursor passes over a row its
peer does not know.
-/
namespace SqliteSync.Store
open Library Clock

section
variable {n : ℕ}

/-- The db version of the newest change, if it is newer than `v`. -/
def newest (v : ℤ) (D : List (Change n)) : ℤ := D.foldl (fun v c => v ⊔ c.dbVersion) v

theorem newest_sup (v w : ℤ) (D : List (Change n)) : newest (v ⊔ w) D = v ⊔ newest w D := by
  induction D generalizing w with
  | nil => rfl
  | cons c D ih =>
    rw [newest, List.foldl_cons, sup_assoc]
    exact ih (w ⊔ c.dbVersion)

theorem le_newest (v : ℤ) (D : List (Change n)) : v ≤ newest v D := by
  have h := newest_sup v v D
  rw [sup_idem] at h
  exact h ▸ le_sup_left

theorem newest_cases (v : ℤ) (D : List (Change n)) :
    newest v D = v ∨ ∃ c ∈ D, newest v D = c.dbVersion := by
  induction D generalizing v with
  | nil => exact .inl rfl
  | cons c D ih =>
    rw [newest, List.foldl_cons]
    rcases ih (v ⊔ c.dbVersion) with h | ⟨d, hd, h⟩
    · rcases le_total v c.dbVersion with hle | hle
      · exact .inr ⟨c, List.mem_cons_self, h.trans (sup_eq_right.mpr hle)⟩
      · exact .inl (h.trans (sup_eq_left.mpr hle))
    · exact .inr ⟨d, .tail c hd, h⟩

/-- Rows of a feed: all above a cursor up to the newest of them, in any order, and some
below it perhaps. -/
def Answers (lower : ℤ) (feed D : List (Change n)) : Prop :=
  (∀ c ∈ D, c ∈ feed) ∧
    ∀ c ∈ feed, lower < c.dbVersion → c.dbVersion ≤ newest lower D → c ∈ D

instance (lower : ℤ) (feed D : List (Change n)) : Decidable (Answers lower feed D) :=
  inferInstanceAs (Decidable (_ ∧ _))

end

/-- Rows read by one peer for another one, which had its cursor at `lower`. -/
structure Batch (ι : Type) (n : ℕ) where
  reader : ι
  writer : ι
  lower : ℤ
  changes : List (Change n)
deriving DecidableEq

def Batch.answer {ι : Type} {n : ℕ} (schema : Fin n → TableContext) (b : Batch ι n) :
    Answer ι (Fact schema) ℤ :=
  ⟨b.reader, b.writer, b.lower, newest b.lower b.changes,
    {f | ∃ c ∈ b.changes, c.fact schema = f}⟩

/-- Peers, how far each has read each other one, and the rows on their way. -/
structure Pullers (ι : Type) {n : ℕ} (schema : Fin n → TableContext) where
  node : ι → Replica schema
  cursor : ι → ι → ℤ
  batches : List (Batch ι n)

namespace Pullers
variable {ι : Type} {n : ℕ} {schema : Fin n → TableContext}

inductive Event (ι : Type) {n : ℕ} (schema : Fin n → TableContext) where
  | own (k : ι) (e : Replica.Event schema)
  | answer (k l : ι) (D : List (Change n))
  | take (autocommit : Bool) (b : Batch ι n)

/-- Peers of empty tables, who have read nothing. -/
def Initial (s : Pullers ι schema) : Prop :=
  (∀ k, ∃ site, s.node k = Replica.empty schema site) ∧ s.cursor = (fun _ _ => 0) ∧ s.batches = []

/-- What is read is committed, and what happens to a peer keeps what was read of it true. -/
def Careful (s : Pullers ι schema) : Event ι schema → Prop
  | .own k e => (s.node k).KeepsCursors e
  | .answer k l D => newest (s.cursor k l) D ≤ (s.node l).checked.dbVersion
  | .take autocommit b => Replica.HasRoom autocommit (s.node b.reader) b.changes

instance (s : Pullers ι schema) : (e : Event ι schema) → Decidable (s.Careful e)
  | .own k e => inferInstanceAs (Decidable ((s.node k).KeepsCursors e))
  | .answer _ l _ => inferInstanceAs (Decidable (_ ≤ (s.node l).checked.dbVersion))
  | .take autocommit b =>
    inferInstanceAs (Decidable (Replica.HasRoom autocommit (s.node b.reader) b.changes))

def pulling (s : Pullers ι schema) : Pulling ι (Replica schema) (Fact schema) ℤ where
  node := s.node
  cursor := s.cursor
  answers := {a | ∃ b ∈ s.batches, b.answer schema = a}

/-- Each peer is in a run of its own, the rows on their way are fit to be merged, and
cursors pass over nothing. -/
structure Sound (s : Pullers ι schema) : Prop where
  reached : ∀ k, Replica.Reached schema Replica.KeepsFeed (s.node k)
  fit : ∀ b ∈ s.batches, ∀ c ∈ b.changes, c.WellFormedFor (schema c.tbl) ∧
    c.colValue ≠ CLOUDSYNC_RLS_RESTRICTED_VALUE
  covered : (Replica.log schema).Covered s.pulling

variable {s t : Pullers ι schema}

theorem sound_initial (h : s.Initial) : s.Sound := by
  rcases h with ⟨hnode, hcursor, hbatches⟩
  have hnone : ∀ a, a ∉ s.pulling.answers := by
    rintro a ⟨b, hb, -⟩
    rw [hbatches] at hb
    cases hb
  refine ⟨fun k => .start (hnode k), ?_, ?_, ?_, ?_, ?_, ?_⟩
  · intro b hb
    rw [hbatches] at hb
    cases hb
  · intro k l
    rcases hnode l with ⟨site, hsite⟩
    change (s.node l).Past (s.cursor k l)
    rw [hsite, hcursor]
    exact .empty schema site
  · rintro k l f ⟨name, m, hm, -⟩
    rcases hnode l with ⟨site, hsite⟩
    have hm : ((s.node l).rows f.tbl f.pk).info name = some m := hm
    rw [hsite] at hm
    cases hm
  · exact fun a ha => absurd ha (hnone a)
  · exact fun a ha => absurd ha (hnone a)
  · exact fun a ha => absurd ha (hnone a)

theorem Sound.knows (hcls : ∀ i, (schema i).algo = .crdtCls)
    (hdflt : ∀ i col, (schema i).dflt col ≠ CLOUDSYNC_RLS_RESTRICTED_VALUE) (hs : s.Sound) (k : ι)
    {l : ι} {feed : List (Change n)} (hfeed : (s.node l).cloudsyncChanges = .ok feed) {c : Change n}
    (hc : c ∈ feed) (hle : c.dbVersion ≤ s.cursor k l) : (s.node k).Knows c := by
  have hfaithful := Replica.faithful_of_reached hcls hdflt (hs.reached l)
  have hsends := sends_of_feed (fun i pk => (hfaithful.2 i pk).1) (fun i pk => (hfaithful.2 i pk).2)
    hfeed c hc
  exact hs.covered.known k l (c.fact schema) (Replica.entry_of_sends hsends) hle

theorem Sound.ignores (hcls : ∀ i, (schema i).algo = .crdtCls)
    (hdflt : ∀ i col, (schema i).dflt col ≠ CLOUDSYNC_RLS_RESTRICTED_VALUE) (hs : s.Sound) (k : ι)
    {l : ι} {feed : List (Change n)} (hfeed : (s.node l).cloudsyncChanges = .ok feed) {c : Change n}
    (hc : c ∈ feed) (hle : c.dbVersion ≤ s.cursor k l) :
    cloudsyncMergeInsert noFaults (s.node k) c = (.ok (), s.node k) ∧
      ∀ faults, (cloudsyncMergeInsert faults (s.node k) c).2 = s.node k := by
  have hgos : (schema c.tbl).algo ≠ .crdtGos := by
    rw [hcls]
    decide
  rcases (Replica.faithful_of_reached hcls hdflt (hs.reached l)).feed with ⟨feed', hfeed', hwf, -⟩
  rw [hfeed, Except.ok.injEq] at hfeed'
  exact (hs.knows hcls hdflt k hfeed hc hle).merge hgos
    ((Replica.faithful_of_reached hcls hdflt (hs.reached k)).2 c.tbl c.pk).1 (hwf c (hfeed' ▸ hc)).1

theorem Sound.agree (hcls : ∀ i, (schema i).algo = .crdtCls)
    (hdflt : ∀ i col, (schema i).dflt col ≠ CLOUDSYNC_RLS_RESTRICTED_VALUE) (hs : s.Sound) {k l : ι}
    {feed feed' : List (Change n)} (hfeed : (s.node k).cloudsyncChanges = .ok feed)
    (hfeed' : (s.node l).cloudsyncChanges = .ok feed') (hread : ∀ c ∈ feed, c.dbVersion ≤ s.cursor l k)
    (hread' : ∀ c ∈ feed', c.dbVersion ≤ s.cursor k l) : (s.node k).Agree (s.node l) := by
  have hk := Replica.faithful_of_reached hcls hdflt (hs.reached k)
  have hl := Replica.faithful_of_reached hcls hdflt (hs.reached l)
  apply Replica.agree_of_below hk hl
  · apply Replica.below_of_knows hk hl.sound hfeed
    exact fun c hc => hs.knows hcls hdflt l hfeed hc (hread c hc)
  · apply Replica.below_of_knows hl hk.sound hfeed'
    exact fun c hc => hs.knows hcls hdflt k hfeed' hc (hread' c hc)

section
variable [DecidableEq ι]

def step (s : Pullers ι schema) : Event ι schema → Option (Pullers ι schema)
  | .own k e => ((s.node k).step e).map fun r => { s with node := Function.update s.node k r }
  | .answer k l D =>
    match (s.node l).cloudsyncChanges with
    | .ok feed =>
      if Answers (s.cursor k l) feed D then
        some { s with batches := ⟨k, l, s.cursor k l, D⟩ :: s.batches }
      else none
    | .error _ => none
  | .take autocommit b =>
    if b ∈ s.batches then
      some { s with
        node := Function.update s.node b.reader
          ((s.node b.reader).deliverEach autocommit b.changes)
        cursor := fun k l => if k = b.reader ∧ l = b.writer then newest (s.cursor k l) b.changes
          else s.cursor k l }
    else none

theorem reached_setNode (h : ∀ k, Replica.Reached schema Replica.KeepsFeed (s.node k)) (k : ι)
    {r : Replica schema} (hr : Replica.Reached schema Replica.KeepsFeed r) (l : ι) :
    Replica.Reached schema Replica.KeepsFeed (Function.update s.node k r l) := by
  rw [Function.update_apply]
  split_ifs
  · exact hr
  · exact h l

theorem past_newest {r : Replica schema} {v : ℤ} (h : r.Past v) {feed D : List (Change n)}
    (hr : r.Faithful) (hfeed : r.cloudsyncChanges = .ok feed) (hD : ∀ c ∈ D, c ∈ feed)
    (hle : newest v D ≤ r.checked.dbVersion) : r.Past (newest v D) := by
  refine ⟨h.nonneg.trans (le_newest v D), h.pending, hle, ?_⟩
  rcases newest_cases v D with hsame | ⟨c, hc, hsame⟩
  · rw [hsame]
    exact h.stored
  · have hsends := sends_of_feed (fun i pk => (hr.2 i pk).1) (fun i pk => (hr.2 i pk).2) hfeed c
      (hD c hc)
    rcases hsends.version with ⟨m, hm, -, hversion⟩
    refine .inr ⟨c.dbVersion, Replica.mem_stored_rows.mpr ?_, hsame.le⟩
    exact ⟨c.tbl, c.pk, c.name, m, hm, hversion.symm⟩

theorem Sound.simulates (hcls : ∀ i, (schema i).algo = .crdtCls)
    (hdflt : ∀ i col, (schema i).dflt col ≠ CLOUDSYNC_RLS_RESTRICTED_VALUE) (hs : s.Sound)
    {e : Event ι schema} (he : s.Careful e) (h : s.step e = some t) :
    (Replica.log schema).Step s.pulling t.pulling := by
  have hfaithful := fun k => Replica.faithful_of_reached hcls hdflt (hs.reached k)
  cases e with
  | own k e =>
    rcases Option.map_eq_some_iff.mp h with ⟨r, hr, rfl⟩
    exact .own k (Replica.advances_step hcls (hfaithful k) he hr)
  | answer k l D =>
    cases hfeed : (s.node l).cloudsyncChanges with
    | error err =>
      rw [step, hfeed] at h
      cases h
    | ok feed =>
      rw [step, hfeed] at h
      simp only [Option.ite_none_right_eq_some, Option.some.injEq] at h
      rcases h with ⟨⟨hsub, hall⟩, rfl⟩
      have hpast := past_newest (hs.covered.past k l) (hfaithful l) hfeed hsub he
      have hstep := Log.Step.answer (L := Replica.log schema) (x := s.pulling) k l hpast
        (E := {f | ∃ c ∈ D, c.fact schema = f}) ?_
      · convert hstep using 1
        simp only [pulling, Pulling.mk.injEq, true_and]
        ext a
        simp only [List.mem_cons, exists_eq_or_imp, Set.mem_insert_iff]
        exact or_congr_left eq_comm
      · intro f hf hlt hle
        rcases (hfaithful l).exists_change hfeed hf with ⟨c, hc, rfl⟩
        exact ⟨c, hall c hc hlt hle, rfl⟩
  | take autocommit b =>
    rw [step, Option.ite_none_right_eq_some, Option.some.injEq] at h
    rcases h with ⟨hb, rfl⟩
    rcases Replica.advances_deliverEach hcls autocommit (hfaithful b.reader).sound
      (fun c hc => (hs.fit b hb c hc).1) he with ⟨hadvances, hknows⟩
    have hstep := Log.Step.take (L := Replica.log schema) (x := s.pulling) (b.answer schema)
      ⟨b, hb, rfl⟩ hadvances ?_
    · convert hstep using 1
      simp only [pulling, Pulling.mk.injEq, and_true]
      refine ⟨rfl, ?_⟩
      funext k l
      rw [Log.movedCursor]
      split_ifs with hkl hread hread
      · rcases hkl with ⟨rfl, rfl⟩
        have hlower : b.lower ≤ s.cursor b.reader b.writer :=
          hs.covered.lower (b.answer schema) ⟨b, hb, rfl⟩
        change _ = s.cursor b.reader b.writer ⊔ newest b.lower b.changes
        rw [← newest_sup, sup_eq_left.mpr hlower]
      · exact absurd hkl hread
      · exact absurd hread hkl
      · rfl
    · rintro f ⟨c, hc, rfl⟩
      exact hknows c hc

theorem Sound.step (hcls : ∀ i, (schema i).algo = .crdtCls)
    (hdflt : ∀ i col, (schema i).dflt col ≠ CLOUDSYNC_RLS_RESTRICTED_VALUE) (hs : s.Sound)
    {e : Event ι schema} (he : s.Careful e) (h : s.step e = some t) : t.Sound := by
  have hcovered := hs.covered.step (hs.simulates hcls hdflt he h)
  cases e with
  | own k e =>
    rcases Option.map_eq_some_iff.mp h with ⟨r, hr, rfl⟩
    exact ⟨reached_setNode hs.reached k ((hs.reached k).next e he.1 hr), hs.fit, hcovered⟩
  | answer k l D =>
    cases hfeed : (s.node l).cloudsyncChanges with
    | error err =>
      rw [Pullers.step, hfeed] at h
      cases h
    | ok feed =>
      rw [Pullers.step, hfeed] at h
      simp only [Option.ite_none_right_eq_some, Option.some.injEq] at h
      rcases h with ⟨⟨hsub, -⟩, rfl⟩
      refine ⟨hs.reached, fun b hb => ?_, hcovered⟩
      rcases List.mem_cons.mp hb with rfl | hb
      · rcases (Replica.faithful_of_reached hcls hdflt (hs.reached l)).feed with
          ⟨feed', hfeed', hwf, -⟩
        rw [hfeed, Except.ok.injEq] at hfeed'
        exact fun c hc => hwf c (hfeed' ▸ hsub c hc)
      · exact hs.fit b hb
  | take autocommit b =>
    rw [Pullers.step, Option.ite_none_right_eq_some, Option.some.injEq] at h
    rcases h with ⟨hb, rfl⟩
    have hreached := Replica.reached_deliverEach (hs.reached b.reader) autocommit (hs.fit b hb)
    exact ⟨reached_setNode hs.reached b.reader hreached, hs.fit, hcovered⟩

theorem sound_of_reachable (hcls : ∀ i, (schema i).algo = .crdtCls)
    (hdflt : ∀ i col, (schema i).dflt col ≠ CLOUDSYNC_RLS_RESTRICTED_VALUE)
    (h : Reachable step Initial Careful s) : s.Sound :=
  h.invariant (fun _ => sound_initial) fun _ _ _ hs he ht => hs.step hcls hdflt he ht

/-- A cursor passes over nothing: at every moment, a row of a peer's feed whose db version
the cursor of another one has reached is one that the other has nothing to take from. -/
theorem ignored_below_cursor (hcls : ∀ i, (schema i).algo = .crdtCls)
    (hdflt : ∀ i col, (schema i).dflt col ≠ CLOUDSYNC_RLS_RESTRICTED_VALUE)
    (h : Reachable step Initial Careful s) (k : ι) {l : ι} {feed : List (Change n)}
    (hfeed : (s.node l).cloudsyncChanges = .ok feed) {c : Change n} (hc : c ∈ feed)
    (hle : c.dbVersion ≤ s.cursor k l) :
    cloudsyncMergeInsert noFaults (s.node k) c = (.ok (), s.node k) ∧
      ∀ faults, (cloudsyncMergeInsert faults (s.node k) c).2 = s.node k := by
  exact (sound_of_reachable hcls hdflt h).ignores hcls hdflt k hfeed hc hle

/-- A peer that has read the row of another one, written again since and read again. -/
theorem ignored_below_cursor_read : ∃ s : Pullers Bool fun _ : Fin 1 => singleColumn,
    s.cursor false true = 2 ∧ (cloudsyncMergeInsert noFaults (s.node false)
      ⟨0, [.integer 1], some "v", .integer 11, 2, 2, [1], 1, 0⟩).2 = s.node false := by
  let first : Change 1 := ⟨0, [.integer 1], some "v", .integer 10, 1, 1, [1], 1, 0⟩
  let second : Change 1 := ⟨0, [.integer 1], some "v", .integer 11, 2, 2, [1], 1, 0⟩
  rcases Reachable.exists_of_runs (@step Bool _ (fun _ : Fin 1 => singleColumn) _) Initial Careful
    (s := ⟨fun k => Replica.empty _ [if k then 1 else 2], fun _ _ => 0, []⟩)
    ⟨fun k => ⟨_, rfl⟩, rfl, rfl⟩
    [.own true (.write 0 (.insert false [.integer 1] fun _ => .integer 10)), .own true .commit,
      .answer false true [first], .take false ⟨false, true, 0, [first]⟩,
      .own true (.write 0 (.update false [.integer 1] [.integer 1] fun _ => .integer 11)),
      .own true .commit, .answer false true [second], .take false ⟨false, true, 1, [second]⟩]
    (fun s => decide (s.cursor false true = 2 ∧
      (s.node true).cloudsyncChanges.toOption = some [second])) (by decide) with ⟨s, hs, hrun⟩
  rcases of_decide_eq_true hrun with ⟨hcursor, hfeed⟩
  exact ⟨s, hcursor, (ignored_below_cursor (fun _ => rfl)
    (fun _ _ => (by decide : Value.null ≠ CLOUDSYNC_RLS_RESTRICTED_VALUE)) hs false
    (ok_of_toOption hfeed) (.head []) (by rw [hcursor])).2 noFaults⟩

end
end Pullers
end SqliteSync.Store
