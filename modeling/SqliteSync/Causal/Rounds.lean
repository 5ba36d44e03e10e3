import SqliteSync.Library.Gossip
import SqliteSync.Causal.Agreement

/-!
# Rounds of synchronisation

Replicas merge each other's feeds. A first round in which everyone hears of everyone
settles the causal length of every row, but not the values: a change that starts a row
over makes registers of an earlier life forget their versions. From then on no row is
started over, a merge of a feed is a join, and a second round settles the values.
-/
namespace SqliteSync.Store
open Library Clock

namespace Replica
variable {n : ℕ} {schema : Fin n → TableContext}

def changesFor (D : List (Change n)) (i : Fin n) (pk : Pk) : List (Change n) :=
  D.filter fun c => c.tbl = i ∧ c.pk = pk

theorem mem_changesFor {D : List (Change n)} {i : Fin n} {pk : Pk} :
    {c | c ∈ changesFor D i pk} = changesOf D i pk := by
  ext c
  simp [changesFor, changesOf]

theorem Sound.merge (hcls : ∀ i, (schema i).algo = .crdtCls) {r : Replica schema} (hr : r.Sound)
    {c : Change n} (hwf : c.WellFormedFor (schema c.tbl)) :
    (cloudsyncMergeInsert noFaults r c).2.Sound := by
  have hgos : (schema c.tbl).algo ≠ .crdtGos := by
    rw [hcls]
    decide
  rcases cloudsyncMergeInsert_merged r c hgos (hr.2 c.tbl c.pk).localCl_nonneg with ⟨st, hm⟩
  refine ⟨hr.1.merged hm, fun i pk => ?_⟩
  by_cases hi : i = c.tbl
  · subst hi
    by_cases hpk : pk = c.pk
    · subst hpk
      rw [rows, hm.rewrites.here]
      exact RowState.consistent_merged (hr.2 c.tbl c.pk) hwf.wellFormed st
    · rw [rows, hm.rewrites.rows pk hpk]
      exact hr.2 c.tbl pk
  · rw [rows, hm.rewrites.tables i hi]
    exact hr.2 i pk

def settle (autocommit : Bool) (r : Replica schema) : Replica schema :=
  if autocommit then { r with data := cloudsyncCommitHook r.data } else r

theorem settle_rows (autocommit : Bool) (r : Replica schema) : (r.settle autocommit).rows = r.rows := by
  rw [settle]
  split_ifs <;> rfl

theorem Sound.settle {r : Replica schema} (hr : r.Sound) (autocommit : Bool) :
    (r.settle autocommit).Sound := by
  rw [Replica.settle]
  split_ifs
  · exact ⟨fun i => ⟨(hr.1 i).cls, (hr.1 i).insync, (hr.1 i).enabled⟩, hr.2⟩
  · exact hr

/-- Changes are merged one after the other, each by a statement of its own. -/
def deliverEach (autocommit : Bool) (r : Replica schema) (D : List (Change n)) : Replica schema :=
  D.foldl (fun r c => (cloudsyncMergeInsert noFaults r c).2.settle autocommit) r

theorem rows_deliverEach (hcls : ∀ i, (schema i).algo = .crdtCls) (autocommit : Bool)
    {r : Replica schema} (hr : r.Sound) {D : List (Change n)}
    (hD : ∀ c ∈ D, c.WellFormedFor (schema c.tbl)) (i : Fin n) (pk : Pk) :
    ((r.deliverEach autocommit D).rows i pk).summary =
      ((changesFor D i pk).map (Change.summary (schema i))).foldl CausalRow.merge
        (r.rows i pk).summary := by
  induction D generalizing r with
  | nil => rfl
  | cons c D ih =>
    have hwf := hD c List.mem_cons_self
    refine (ih ((hr.merge hcls hwf).settle autocommit) fun d hd => hD d (.tail c hd)).trans ?_
    rw [settle_rows, rows_merge hcls hr hwf]
    by_cases hrow : c.tbl = i ∧ c.pk = pk
    · rw [if_pos hrow, changesFor, changesFor, List.filter_cons_of_pos (by simpa using hrow),
        List.map_cons, List.foldl_cons]
    · rw [if_neg hrow, changesFor, changesFor, List.filter_cons_of_neg (by simpa using hrow)]

theorem reached_settle {r : Replica schema} (h : Reached schema KeepsFeed r) (autocommit : Bool) :
    Reached schema KeepsFeed (r.settle autocommit) := by
  rw [settle]
  split_ifs
  · exact h.next .commit ⟨trivial, trivial, trivial⟩ rfl
  · exact h

theorem reached_deliverEach {r : Replica schema} (h : Reached schema KeepsFeed r) (autocommit : Bool)
    {D : List (Change n)} (hD : ∀ c ∈ D, c.WellFormedFor (schema c.tbl) ∧
      c.colValue ≠ CLOUDSYNC_RLS_RESTRICTED_VALUE) :
    Reached schema KeepsFeed (r.deliverEach autocommit D) := by
  induction D generalizing r with
  | nil => exact h
  | cons c D ih =>
    have hc := hD c List.mem_cons_self
    have hmerged := h.next (.merge c) ⟨hc, trivial, trivial⟩ (if_pos hc.1.wellFormed)
    apply ih (reached_settle hmerged autocommit)
    exact fun d hd => hD d (.tail c hd)

/-- A replica merges the feed of another one, in some order, inside a transaction or not. -/
def Pulls (r q r' : Replica schema) : Prop :=
  ∃ feed D autocommit, q.cloudsyncChanges = .ok feed ∧ D.Perm feed ∧ r' = r.deliverEach autocommit D

theorem Pulls.reached (hcls : ∀ i, (schema i).algo = .crdtCls)
    (hdflt : ∀ i col, (schema i).dflt col ≠ CLOUDSYNC_RLS_RESTRICTED_VALUE) {r q r' : Replica schema}
    (hr : Reached schema KeepsFeed r) (hq : Reached schema KeepsFeed q) (h : r.Pulls q r') :
    Reached schema KeepsFeed r' := by
  rcases h with ⟨feed, D, autocommit, hfeed, hD, rfl⟩
  rcases (faithful_of_reached hcls hdflt hq).feed with ⟨feed', hfeed', hwf, -⟩
  rw [hfeed, Except.ok.injEq] at hfeed'
  subst hfeed'
  exact reached_deliverEach hr autocommit fun c hc => hwf c (hD.mem_iff.mp hc)

theorem Pulls.rows (hcls : ∀ i, (schema i).algo = .crdtCls) {r q r' : Replica schema}
    (hr : r.Sound) (hq : q.Faithful) (h : r.Pulls q r') (i : Fin n) (pk : Pk) :
    (r'.rows i pk).localCl = (r.rows i pk).localCl ⊔ (q.rows i pk).localCl ∧
      ((q.rows i pk).localCl ≤ (r.rows i pk).localCl →
        (r'.rows i pk).summary = (r.rows i pk).summary ⊔ (q.rows i pk).summary) := by
  rcases h with ⟨feed, D, autocommit, hfeed, hD, rfl⟩
  rcases hq.feed with ⟨feed', hfeed', hwf, htells⟩
  rw [hfeed, Except.ok.injEq] at hfeed'
  subst hfeed'
  have hrows := rows_deliverEach hcls autocommit hr (fun c hc => (hwf c (hD.mem_iff.mp hc)).1) i pk
  have htell := htells D hD i pk
  rw [← mem_changesFor] at htell
  constructor
  · have hepoch := htell.foldl_epoch (z := (r.rows i pk).summary) (hr.2 i pk).localCl_nonneg
    rw [← hrows] at hepoch
    exact hepoch
  · intro hle
    rw [hrows]
    exact htell.foldl_merge (hq.2 i pk).1 hle

section
variable {ι : Type*} [DecidableEq ι]

theorem exists_exchanges (hcls : ∀ i, (schema i).algo = .crdtCls)
    (hdflt : ∀ i col, (schema i).dflt col ≠ CLOUDSYNC_RLS_RESTRICTED_VALUE)
    {s : ι → Replica schema} (hs : ∀ k, Reached schema KeepsFeed (s k)) (events : List (ι × ι)) :
    ∃ u, Exchanges Pulls s events u := by
  induction events generalizing s with
  | nil => exact ⟨s, .nil s⟩
  | cons e events ih =>
    rcases (faithful_of_reached hcls hdflt (hs e.2)).feed with ⟨feed, hfeed, -⟩
    have hpull : (s e.1).Pulls (s e.2) ((s e.1).deliverEach true feed) :=
      ⟨feed, feed, true, hfeed, .refl feed, rfl⟩
    have hnext : ∀ k, Reached schema KeepsFeed
        (Function.update s e.1 ((s e.1).deliverEach true feed) k) := by
      intro k
      rw [Function.update_apply]
      split_ifs
      · exact hpull.reached hcls hdflt (hs e.1) (hs e.2)
      · exact hs k
    rcases ih hnext with ⟨u, hu⟩
    exact ⟨u, .cons hpull hu⟩

noncomputable def lengths (r : Replica schema) (i : Fin n) (pk : Pk) : ℤ := (r.rows i pk).localCl

noncomputable def summaries (r : Replica schema) (i : Fin n) (pk : Pk) :
    CausalRow (Fin (schema i).ncols) ValueKey := (r.rows i pk).summary

end
end Replica
end SqliteSync.Store
