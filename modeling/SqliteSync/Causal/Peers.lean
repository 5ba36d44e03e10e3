import SqliteSync.Causal.Agreement
import SqliteSync.Store.Ran

/-!
# Peers

Replicas that write, commit, send what they have recorded and merge what has been sent,
in any order, any number of times or never. Whatever fails on the way, a value in a base
table was written by someone into that cell, or is its default. And what is sent is
always fit to be merged, so a peer is a replica in a run of its own.
-/
namespace SqliteSync.Store
open Library Clock

namespace Table
variable {table : TableContext} {W : Pk → Fin table.ncols → Value → Prop} {t : Table table}

def Holds (W : Pk → Fin table.ncols → Value → Prop) (t : Table table) : Prop :=
  ∀ pk row, t.base.get pk = some row → ∀ col, W pk col (row col)

namespace Holds

theorem of_rowAt (h : t.Holds W) {t' : Table table} (pk : Pk) (row : Option (Row table))
    (hrow : ∀ row' ∈ row, ∀ col, W pk col (row' col))
    (ht : ∀ pk', (t'.rowAt pk').row = if pk' = pk then row else (t.rowAt pk').row) :
    t'.Holds W := by
  intro pk' row' hget
  have hsame := (ht pk').symm.trans hget
  split_ifs at hsame with hpk
  · exact hpk ▸ hrow row' hsame
  · exact h pk' row' hsame

theorem insertBase (h : t.Holds W) {pk : Pk} {row : Row table} (hrow : ∀ col, W pk col (row col)) :
    (t.insertBase pk row).Holds W := by
  apply h.of_rowAt pk (some row) fun row' hrow' => Option.some_inj.mp hrow' ▸ hrow
  intro pk'
  rw [rowAt_insertBase]
  split_ifs <;> rfl

theorem realMergeDelete (h : t.Holds W) (pk : Pk) : (t.realMergeDelete pk).Holds W := by
  apply h.of_rowAt pk none fun row' hrow' => nomatch hrow'
  intro pk'
  rw [rowAt_realMergeDelete]
  split_ifs <;> rfl

theorem updateBase (h : t.Holds W) (oldpk : Pk) {pk : Pk} {row : Row table}
    (hrow : ∀ col, W pk col (row col)) : (t.updateBase oldpk pk row).Holds W := by
  apply (h.realMergeDelete oldpk).of_rowAt pk (some row)
    fun row' hrow' => Option.some_inj.mp hrow' ▸ hrow
  intro pk'
  rw [rowAt_updateBase, rowAt_realMergeDelete]
  split_ifs <;> rfl

/-- What the row holds of a column when it is there, and its default otherwise. -/
theorem getD (h : t.Holds W) (hdflt : ∀ pk col, W pk col (table.dflt col)) (pk : Pk)
    (col : Fin table.ncols) : W pk col ((t.rowAt pk).row.getD table.dflt col) := by
  cases hrow : (t.rowAt pk).row with
  | none => exact hdflt pk col
  | some row => exact h pk row hrow col

theorem writes {n : ℕ} {c : Change n} (hdflt : ∀ pk col, W pk col (table.dflt col))
    (hc : ∀ col, tableColumnLookup table c.name = some col → W c.pk col c.colValue)
    {f : Table table → Table table} (hf : c.Writes table f) (h : t.Holds W) : (f t).Holds W := by
  cases hf with
  | @colMerge col hcol _ =>
    apply h.of_rowAt c.pk
      (some (Function.update ((t.rowAt c.pk).row.getD table.dflt) col c.colValue))
    · intro row' hrow' col'
      rw [← Option.some_inj.mp hrow', Function.update_apply]
      split_ifs with heq
      · exact heq ▸ hc col hcol
      · exact h.getD hdflt c.pk col'
    · intro pk'
      rw [rowAt_colMerge]
      split_ifs <;> rfl
  | mergeDelete => exact h.realMergeDelete c.pk
  | mergeSentinel =>
    apply h.of_rowAt c.pk (some ((t.rowAt c.pk).row.getD table.dflt))
    · intro row' hrow' col'
      rw [← Option.some_inj.mp hrow']
      exact h.getD hdflt c.pk col'
    · intro pk'
      rw [rowAt_realMergeSentinel]
      split_ifs <;> rfl
  | zeroClock => exact h
  | winnerClock => exact h
  | deleteDrop => exact h

end Holds
end Table

/-- Every value a local change writes is one allowed in its cell. -/
def RowChange.Brings {table : TableContext} (W : Pk → Fin table.ncols → Value → Prop) :
    RowChange table → Prop
  | .insert _ pk row | .update _ _ pk row => ∀ col, W pk col (row col)
  | .delete _ => True

instance {table : TableContext} (W : Pk → Fin table.ncols → Value → Prop)
    [∀ pk col value, Decidable (W pk col value)] : (c : RowChange table) → Decidable (c.Brings W)
  | .insert _ pk row | .update _ _ pk row => inferInstanceAs (Decidable (∀ col, W pk col (row col)))
  | .delete _ => isTrue trivial

section
variable {n : ℕ} {schema : Fin n → TableContext}
  {W : (i : Fin n) → Pk → Fin (schema i).ncols → Value → Prop} {r r' : Replica schema}

/-- The value of a merged change is one allowed in the cell it names. -/
def Change.Brings (W : (i : Fin n) → Pk → Fin (schema i).ncols → Value → Prop) (c : Change n) :
    Prop := ∀ col, tableColumnLookup (schema c.tbl) c.name = some col → W c.tbl c.pk col c.colValue

def Replica.Holding (W : (i : Fin n) → Pk → Fin (schema i).ncols → Value → Prop)
    (r : Replica schema) : Prop := ∀ i, (r.table i).Holds (W i)

namespace Replica.Holding

theorem setTable (h : r.Holding W) {i : Fin n} {t : Table (schema i)} (ht : t.Holds (W i)) :
    (r.setTable i t).Holding W := by
  intro j
  by_cases hj : j = i
  · subst hj
    rw [Replica.setTable_table_self]
    exact ht
  · rw [Replica.setTable_table_of_ne r hj]
    exact h j

theorem of_sameBase (h : r.Holding W) (hbase : SameBase r r') : r'.Holding W := by
  intro i pk row hrow
  rw [hbase i] at hrow
  exact h i pk row hrow

/-- A local change leaves what it writes, whether its trigger fires or not. -/
theorem applyRowChange (h : r.Holding W) {i : Fin n} {c : RowChange (schema i)}
    (hc : c.Brings (W i)) (hr' : Store.applyRowChange r i c = some r') : r'.Holding W := by
  cases applyRowChange_applied hr' with
  | insert _ pk _ _ =>
    have hwritten := h.setTable ((h i).insertBase hc)
    split_ifs
    · exact hwritten
    · exact hwritten.of_sameBase (.cloudsyncInsert _ i pk)
  | update _ oldpk pk row oldRow _ _ =>
    have hwritten := h.setTable ((h i).updateBase oldpk hc)
    split_ifs
    · exact hwritten
    · exact hwritten.of_sameBase (.cloudsyncUpdate _ i pk oldpk row oldRow)
  | delete pk _ _ =>
    have hwritten := h.setTable ((h i).realMergeDelete pk)
    split_ifs
    · exact hwritten
    · exact hwritten.of_sameBase (.cloudsyncDelete _ i pk)

theorem cloudsyncMergeInsert (h : r.Holding W)
    (hdflt : ∀ i pk col, W i pk col ((schema i).dflt col)) {c : Change n} (hc : c.Brings W)
    (faults : Faults) : (Store.cloudsyncMergeInsert faults r c).2.Holding W := by
  have hran := cloudsyncMergeInsert_ran faults r c
  intro i
  by_cases hi : i = c.tbl
  · subst hi
    apply hran.invariant (P := fun t => t.Holds (W c.tbl)) _ (h c.tbl)
    exact fun f t hf ht => ht.writes (hdflt c.tbl) hc hf
  · rw [hran.tables i hi]
    exact h i

end Replica.Holding

/-- The feed carries allowed values, where no column has the name of the tombstone. -/
theorem Replica.Holding.feed (h : r.Holding W)
    (hnames : ∀ i, tableColumnLookup (schema i) CLOUDSYNC_TOMBSTONE_VALUE = none)
    {feed : List (Change n)} (hfeed : r.cloudsyncChanges = .ok feed) {c : Change n} (hc : c ∈ feed) :
    c.Brings W := by
  intro col hcol
  rcases (cell_of_feed hfeed hc).2 with htomb | ⟨col', hcol', hvalue⟩
  · rw [htomb, hnames] at hcol
    cases hcol
  · rw [hcol, Option.some.injEq] at hcol'
    subst hcol'
    rcases Option.map_eq_some_iff.mp hvalue with ⟨row, hrow, hvalue⟩
    rw [← hvalue]
    exact h c.tbl c.pk row hrow col

/-- Replicas, and every change that was ever sent. -/
structure Peers (ι : Type) {n : ℕ} (schema : Fin n → TableContext) where
  node : ι → Replica schema
  sent : List (Change n)

end

namespace Peers
variable {ι : Type} [DecidableEq ι] {n : ℕ} {schema : Fin n → TableContext}

inductive Event (ι : Type) {n : ℕ} (schema : Fin n → TableContext) where
  | write (k : ι) (i : Fin n) (c : RowChange (schema i))
  | commit (k : ι)
  | send (k : ι)
  | receive (k : ι) (c : Change n) (faults : Faults)

def setNode (p : Peers ι schema) (k : ι) (r : Replica schema) : Peers ι schema :=
  { p with node := Function.update p.node k r }

/-- A peer sends its feed; what has been sent may reach any peer, at any time and more
than once, or not at all. -/
def step (p : Peers ι schema) : Event ι schema → Option (Peers ι schema)
  | .write k i c => (applyRowChange (p.node k) i c).map (p.setNode k)
  | .commit k => some (p.setNode k { p.node k with data := cloudsyncCommitHook (p.node k).data })
  | .send k =>
    match (p.node k).cloudsyncChanges with
    | .ok feed => some { p with sent := p.sent ++ feed }
    | .error _ => none
  | .receive k c faults =>
    if c ∈ p.sent then some (p.setNode k (cloudsyncMergeInsert faults (p.node k) c).2) else none

/-- Peers of empty tables, before anything was sent. -/
def Initial (p : Peers ι schema) : Prop :=
  (∀ k, ∃ site, p.node k = Replica.empty schema site) ∧ p.sent = []

/-- An invariant of the nodes and one of what is sent. -/
structure Keeps (I : Replica schema → Prop) (J : Change n → Prop) (p : Peers ι schema) : Prop where
  node : ∀ k, I (p.node k)
  sent : ∀ c ∈ p.sent, J c

theorem Keeps.setNode {I : Replica schema → Prop} {J : Change n → Prop} {p : Peers ι schema}
    (h : p.Keeps I J) (k : ι) {r : Replica schema} (hr : I r) : (p.setNode k r).Keeps I J where
  node l := by
    change I (Function.update p.node k r l)
    rw [Function.update_apply]
    split_ifs
    · exact hr
    · exact h.node l
  sent := h.sent

/-- The rule for peers: each kind of step keeps the invariant of the node that takes it,
and a feed meets the invariant of what is sent. -/
theorem keeps_of_reachable {I : Replica schema → Prop} {J : Change n → Prop}
    {allowed : Peers ι schema → Event ι schema → Prop}
    (hempty : ∀ site, I (Replica.empty schema site))
    (hwrite : ∀ p k i c r', allowed p (.write k i c) → I (p.node k) →
      applyRowChange (p.node k) i c = some r' → I r')
    (hcommit : ∀ r : Replica schema, I r → I { r with data := cloudsyncCommitHook r.data })
    (hsend : ∀ r feed, I r → r.cloudsyncChanges = .ok feed → ∀ c ∈ feed, J c)
    (hreceive : ∀ p k c faults, allowed p (.receive k c faults) → I (p.node k) → J c →
      I (cloudsyncMergeInsert faults (p.node k) c).2)
    {p : Peers ι schema} (h : Reachable step Initial allowed p) : p.Keeps I J := by
  refine Reachable.invariant (I := Keeps I J) ?_ ?_ h
  · rintro p ⟨hnode, hsent⟩
    refine ⟨fun k => ?_, fun c hc => ?_⟩
    · rcases hnode k with ⟨site, hsite⟩
      exact hsite ▸ hempty site
    · rw [hsent] at hc
      cases hc
  · intro p e q hp he hq
    cases e with
    | write k i c =>
      rcases Option.map_eq_some_iff.mp hq with ⟨r', hr', rfl⟩
      exact hp.setNode k (hwrite p k i c r' he (hp.node k) hr')
    | commit k =>
      cases hq
      exact hp.setNode k (hcommit _ (hp.node k))
    | send k =>
      cases hfeed : (p.node k).cloudsyncChanges with
      | error err =>
        rw [step, hfeed] at hq
        cases hq
      | ok feed =>
        rw [step, hfeed] at hq
        cases hq
        refine ⟨hp.node, fun c hc => ?_⟩
        rcases List.mem_append.mp hc with hc | hc
        · exact hp.sent c hc
        · exact hsend _ feed (hp.node k) hfeed c hc
    | receive k c faults =>
      rw [step, Option.ite_none_right_eq_some, Option.some.injEq] at hq
      rcases hq with ⟨hc, rfl⟩
      exact hp.setNode k (hreceive p k c faults he (hp.node k) (hp.sent c hc))

/-- Whatever is written into a cell is allowed there. -/
def Brings (W : (i : Fin n) → Pk → Fin (schema i).ncols → Value → Prop) : Event ι schema → Prop
  | .write _ i c => c.Brings (W i)
  | _ => True

instance (W : (i : Fin n) → Pk → Fin (schema i).ncols → Value → Prop)
    [∀ i pk col value, Decidable (W i pk col value)] : (e : Event ι schema) → Decidable (Brings W e)
  | .write _ i c => inferInstanceAs (Decidable (c.Brings (W i)))
  | .commit _ | .send _ | .receive .. => isTrue trivial

/-- No value comes from nowhere: what is allowed in a cell holds of every value every
peer ever has there, if it holds of the default and of what is written into it. -/
theorem values_written {W : (i : Fin n) → Pk → Fin (schema i).ncols → Value → Prop}
    (hnames : ∀ i, tableColumnLookup (schema i) CLOUDSYNC_TOMBSTONE_VALUE = none)
    (hdflt : ∀ i pk col, W i pk col ((schema i).dflt col)) {p : Peers ι schema}
    (h : Reachable step Initial (fun _ e => Brings W e) p) (k : ι) (i : Fin n) (pk : Pk)
    (row : Row (schema i)) (hrow : ((p.node k).table i).base.get pk = some row)
    (col : Fin (schema i).ncols) : W i pk col (row col) := by
  have hkeeps : p.Keeps (fun r => r.Holding W) (fun c => c.Brings W) := by
    apply keeps_of_reachable _ _ _ _ _ h
    · rintro site i pk row ⟨⟩
    · exact fun p k i c r' hc hr hr' => hr.applyRowChange hc hr'
    · exact fun r hr => hr
    · exact fun r feed hr hfeed c hc => hr.feed hnames hfeed hc
    · exact fun p k c faults _ hr hc => hr.cloudsyncMergeInsert hdflt hc faults
  exact hkeeps.node k i pk row hrow col

/-- A value written by one peer, and merged by another one, which first failed to. -/
theorem values_written_merged : ∃ p : Peers Bool fun _ : Fin 1 => singleColumn,
    ∃ row, ((p.node false).table 0).base.get [.integer 1] = some row ∧
      (row ⟨0, Nat.one_pos⟩ = .null ∨ row ⟨0, Nat.one_pos⟩ = .integer 10) := by
  rcases Reachable.exists_of_runs (@step Bool _ _ fun _ : Fin 1 => singleColumn) Initial
    (fun _ e => Brings (fun _ _ _ value => value = .null ∨ value = .integer 10) e)
    (s := ⟨fun k => Replica.empty _ [if k then 1 else 2], []⟩) ⟨fun k => ⟨_, rfl⟩, rfl⟩
    [.write true 0 (.insert false [.integer 1] fun _ => .integer 10), .send true,
      .receive false ⟨0, [.integer 1], some "v", .integer 10, 1, 1, [1], 1, 0⟩
        fun stmt => if stmt = .winnerClock "v" then some "disk full" else none,
      .receive false ⟨0, [.integer 1], some "v", .integer 10, 1, 1, [1], 1, 0⟩ noFaults]
    (fun p => (((p.node false).table 0).base.get [.integer 1]).isSome) (by decide) with ⟨p, hp, hrow⟩
  rcases Option.isSome_iff_exists.mp hrow with ⟨row, hrow⟩
  exact ⟨p, row, hrow, values_written (fun _ => rfl) (fun _ _ _ => .inl rfl) hp false 0 [.integer 1]
    row hrow ⟨0, Nat.one_pos⟩⟩

/-- Local changes are ones the code sees, and merges do not fail. -/
def Careful (p : Peers ι schema) : Event ι schema → Prop
  | .write k i c => (p.node k).KeepsFeed (.write i c)
  | .receive _ _ faults => faults = noFaults
  | _ => True

/-- Among peers a replica is in a run of its own: whatever it merges is a change as the
extension produces them. -/
theorem node_reached (hcls : ∀ i, (schema i).algo = .crdtCls)
    (hdflt : ∀ i col, (schema i).dflt col ≠ CLOUDSYNC_RLS_RESTRICTED_VALUE) {p : Peers ι schema}
    (h : Reachable step Initial Careful p) :
    (∀ k, Replica.Reached schema Replica.KeepsFeed (p.node k)) ∧
      ∀ c ∈ p.sent, c.WellFormedFor (schema c.tbl) ∧
        c.colValue ≠ CLOUDSYNC_RLS_RESTRICTED_VALUE := by
  have hkeeps : p.Keeps (Replica.Reached schema Replica.KeepsFeed)
      (fun c => c.WellFormedFor (schema c.tbl) ∧
        c.colValue ≠ CLOUDSYNC_RLS_RESTRICTED_VALUE) := by
    apply keeps_of_reachable _ _ _ _ _ h
    · exact fun site => .start ⟨site, rfl⟩
    · exact fun p k i c r' hc hr hr' => hr.next (.write i c) hc hr'
    · exact fun r hr => hr.next .commit ⟨trivial, trivial, trivial⟩ rfl
    · intro r feed hr hfeed c hc
      rcases (Replica.faithful_of_reached hcls hdflt hr).feed with ⟨feed', hfeed', hwf, -⟩
      rw [hfeed, Except.ok.injEq] at hfeed'
      exact hwf c (hfeed' ▸ hc)
    · rintro p k c faults rfl hr hc
      exact hr.next (.merge c) ⟨hc, trivial, trivial⟩ (if_pos hc.1.wellFormed)
  exact ⟨hkeeps.node, hkeeps.sent⟩

/-- A row written by one peer and merged by another one. -/
theorem node_reached_merged : ∃ p : Peers Bool fun _ : Fin 1 => singleColumn,
    ((p.node false).table 0).base.get [.integer 1] ≠ none ∧
      Replica.Reached _ Replica.KeepsFeed (p.node false) := by
  let p₀ : Peers Bool fun _ : Fin 1 => singleColumn :=
    ⟨fun k => Replica.empty _ [if k then 1 else 2], []⟩
  let insert : Event Bool fun _ : Fin 1 => singleColumn :=
    .write true 0 (.insert false [.integer 1] fun _ => .integer 10)
  let receive : Event Bool fun _ : Fin 1 => singleColumn :=
    .receive false ⟨0, [.integer 1], some "v", .integer 10, 1, 1, [1], 1, 0⟩ noFaults
  have h₀ : Reachable step Initial Careful p₀ := .start ⟨fun k => ⟨_, rfl⟩, rfl⟩
  have h₁ := h₀.next_get insert (by decide : (p₀.node true).KeepsFeed _)
    (by decide : (p₀.step insert).isSome)
  have h₂ := h₁.next_get (.send true) trivial (by decide)
  have h₃ := h₂.next_get receive rfl (by decide)
  exact ⟨_, (by decide), (node_reached (fun _ => rfl)
    (fun _ _ => (by decide : Value.null ≠ CLOUDSYNC_RLS_RESTRICTED_VALUE)) h₃).1 false⟩

end Peers
end SqliteSync.Store
