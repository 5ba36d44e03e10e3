import SqliteSync.Causal.Exchange
import SqliteSync.Network.Sync

/-!
# Two databases that sync

A database gets the payloads that the other one sent by syncing, over a network on which
any request may fail. A sync takes one payload or none, so the databases of a run of syncs
are those of a run of the exchange.
-/
namespace SqliteSync.Store.Exchange
open Library Clock Payload Network

section
variable {n : ℕ} {schema : Fin n → TableContext}

/-- What a try of database `k` meets: nothing fails in the database, and what a server sends
is a blob on its way to `k`, or an error that has an end. -/
structure Served (s : Exchange schema) (k autocommit : Bool) (x : Try) : Prop where
  applier : x.applier = .sound autocommit
  alloc : ∀ i, x.alloc.ok i = true
  blob : ∀ url, (x.download url).Answers →
    ∃ m ∈ s.wire, m.batch.reader = k ∧ (x.download url).body = m.blob
  ends : ∀ url, (x.download url).Ends

/-- Database `k` is left like this. -/
def put (s : Exchange schema) (k : Bool) (cursor : CheckCursor) (y : Catalog schema) :
    Exchange schema :=
  { s with device := Function.update s.device k y, cursor := Function.update s.cursor k cursor }

variable {w : Wiring} {s : Exchange schema}

theorem put_self (s : Exchange schema) (k : Bool) : s.put k (s.cursor k) (s.device k) = s := by
  rw [put, Function.update_eq_self, Function.update_eq_self]

theorem Carries.length {x : Catalog schema} {m : Message n} (h : Carries w x m) :
    headerSize ≤ m.blob.length ∧ m.blob.length < 2 ^ 31 := by
  refine ⟨?_, h.size.trans_lt w.limit_lt⟩
  rcases h.sent with ⟨rows, expandedSize, data, e, -, -, -, hblob⟩
  rw [hblob, List.length_append, store_length_header]
  exact Nat.le_add_right _ _

/-- A sync takes one message, where a try gets through, and none where no try does. -/
theorem sync_cases (hcls : ∀ i, (schema i).algo = .crdtCls)
    (hdflt : ∀ i col, (schema i).dflt col ≠ CLOUDSYNC_RLS_RESTRICTED_VALUE) (hs : s.pullers.Sound)
    (hw : s.Wired w) {k autocommit : Bool} (endpoint : CString) (maxRetries : ℤ) {tries : ℕ → Try}
    (hserved : ∀ i, s.Served k autocommit (tries i)) :
    ∃ rc text cursor y, cloudsyncNetworkSync (w.receiver k) endpoint maxRetries tries (s.cursor k)
        (s.device k) = some (rc, text, cursor, y) ∧
      ((∃ i : ℕ, i < maxRetries ∧ (tries i).GetsThrough endpoint (s.cursor k)) ∧ 0 < rc ∧
          (∃ m ∈ s.wire, m.batch.reader = k ∧ rc = m.batch.changes.length ∧
            s.step w (.take autocommit m) = some (s.put k cursor y)) ∨
        (¬ ∃ i : ℕ, i < maxRetries ∧ (tries i).GetsThrough endpoint (s.cursor k)) ∧ rc ≤ 0 ∧
          cursor = s.cursor k ∧ y = s.device k) := by
  apply cloudsyncNetworkSync_cases (P := fun rc cursor y => ∃ m ∈ s.wire, m.batch.reader = k ∧
    rc = m.batch.changes.length ∧ s.step w (.take autocommit m) = some (s.put k cursor y))
  constructor
  · intro i hi
    rcases (hserved i).blob _ hi.found with ⟨m, hm, rfl, hbody⟩
    have hcarries := hw.carries m hm
    rcases exists_applied hcls hdflt hs hw autocommit hm with ⟨result, hresult, hrc, -⟩
    have hcheck := cloudsyncNetworkCheckInternal_of_getsThrough (r := w.receiver m.batch.reader)
      (y := s.device m.batch.reader) hi (hserved i).alloc (hbody ▸ hcarries.length.1)
      (hbody ▸ hcarries.length.2)
    have hfound : ((tries i).found endpoint (s.cursor m.batch.reader)).body = m.blob := hbody
    rw [hfound, (hserved i).applier, hresult] at hcheck
    refine ⟨_, _, _, _, ?_, ⟨m, hm, rfl, hrc, ?_⟩, hcheck⟩
    · rw [hrc]
      exact Int.natCast_pos.mpr (List.length_pos_iff.mpr hcarries.nonempty)
    · rw [step, if_pos hm, hresult]
      rfl
  · intro i hi
    exact cloudsyncNetworkCheckInternal_of_not_getsThrough hi (hserved i).alloc
      ((hserved i).ends _)

/-- At every moment of every run, and whatever a server and the network do in each of its
tries: a sync brings rows exactly if one of its tries gets through, then it takes one of
the payloads on their way, whole and once, and else it leaves everything as it is. -/
theorem sync_taken (hcls : ∀ i, (schema i).algo = .crdtCls)
    (hdflt : ∀ i col, (schema i).dflt col ≠ CLOUDSYNC_RLS_RESTRICTED_VALUE)
    (h : Reachable (step w) Initial (Careful w) s) {k autocommit : Bool} (endpoint : CString)
    (maxRetries : ℤ) {tries : ℕ → Try} (hserved : ∀ i, s.Served k autocommit (tries i)) :
    ∃ rc text cursor y, cloudsyncNetworkSync (w.receiver k) endpoint maxRetries tries (s.cursor k)
        (s.device k) = some (rc, text, cursor, y) ∧
      (0 < rc ↔ ∃ i : ℕ, i < maxRetries ∧ (tries i).GetsThrough endpoint (s.cursor k)) ∧
      (rc ≤ 0 → s.put k cursor y = s) ∧
      (0 < rc → ∃ m ∈ s.wire, m.batch.reader = k ∧ rc = m.batch.changes.length ∧
        s.step w (.take autocommit m) = some (s.put k cursor y)) := by
  rcases pullers_of_reachable hcls hdflt h with ⟨hw, hpullers⟩
  rcases sync_cases hcls hdflt (Pullers.sound_of_reachable hcls hdflt hpullers) hw endpoint maxRetries
    hserved with ⟨rc, text, cursor, y, hsync, ⟨hthrough, hpos, htaken⟩ | ⟨hnot, hrc, rfl, rfl⟩⟩
  · exact ⟨rc, text, cursor, y, hsync, iff_of_true hpos hthrough, fun h => absurd h hpos.not_ge,
      fun _ => htaken⟩
  · exact ⟨rc, text, s.cursor k, s.device k, hsync, iff_of_false hrc.not_gt hnot,
      fun _ => s.put_self k, fun h => absurd h hrc.not_gt⟩

/-- The first try is lost, each later one finds the blob. -/
def lostOnce (blob : List UInt8) (i : ℕ) : Try where
  applier := .sound true
  alloc := ⟨fun _ => true, fun _ => 0⟩
  check _ := if i = 0 then ⟨true, 0, [], 28, 0, ascii "Timeout was reached"⟩
    else ⟨true, 0, [ascii "url"], 0, 200, []⟩
  download _ := ⟨true, 0, [blob], 0, 200, []⟩

theorem served_lostOnce {m : Message n} (hm : m ∈ s.wire) (i : ℕ) :
    s.Served m.batch.reader true (lostOnce m.blob i) := by
  refine ⟨rfl, fun _ => rfl, fun url _ => ⟨m, hm, rfl, ?_⟩, fun url _ hstatus => ?_⟩
  · simp [lostOnce, Curl.body]
  · exact absurd (by decide : (200 : ℤ) < 400) hstatus

theorem lostOnce_getsThrough {blob : List UInt8} (hblob : blob ≠ []) :
    (lostOnce blob 1).GetsThrough (ascii "https://host/check") ⟨none, none⟩ := by
  have hstatus : (200 : ℤ) < 400 := by decide
  refine ⟨by decide, by decide, ⟨⟨rfl, rfl, rfl⟩, hstatus,
    (by decide : [ascii "url"].flatten ≠ [])⟩, ⟨rfl, rfl, rfl⟩, hstatus, ?_⟩
  simpa [Try.found, lostOnce, Curl.body] using hblob

theorem blob_ne_nil (hw : s.Wired w) {m : Message n} (hm : m ∈ s.wire) : m.blob ≠ [] := by
  intro hnil
  have hlength := (hw.carries m hm).length.1
  rw [hnil] at hlength
  exact absurd hlength (by decide)

/-- The task, found on the second try. -/
theorem sync_taken_lostOnce : ∃ (s : Exchange fun _ : Fin 1 => singleColumn) (m : Message 1)
    (rc : ℤ) (text : SqlResult) (cursor : CheckCursor) (y : Catalog fun _ : Fin 1 => singleColumn),
      s.wire = [m] ∧ cloudsyncNetworkSync (plainWiring.receiver false) (ascii "https://host/check") 2
        (lostOnce m.blob) (s.cursor false) (s.device false) = some (rc, text, cursor, y) ∧
          s.step plainWiring (.take true m) = some (s.put false cursor y) := by
  rcases runsTasks.exists_told with ⟨⟨s, m, h, hwire, hreader, hcursor⟩, -⟩
  have hm : m ∈ s.wire := hwire ▸ List.mem_singleton_self m
  have hw := (pullers_of_reachable (fun _ => rfl) singleColumn_dflt h).1
  rcases sync_taken (fun _ => rfl) singleColumn_dflt h (ascii "https://host/check") 2
    (hreader ▸ served_lostOnce hm) with ⟨rc, text, cursor, y, hsync, hpos, -, htaken⟩
  have hthrough : (lostOnce m.blob 1).GetsThrough (ascii "https://host/check") (s.cursor false) :=
    hcursor ▸ lostOnce_getsThrough (blob_ne_nil hw hm)
  rcases htaken (hpos.mpr ⟨1, by norm_num, hthrough⟩) with ⟨m', hm', -, -, hstep⟩
  rw [hwire, List.mem_singleton] at hm'
  exact ⟨s, m, rc, text, cursor, y, hwire, hsync, hm' ▸ hstep⟩

/-! ## Runs of syncs -/

/-- What happens to databases that sync. -/
inductive Online {n : ℕ} (schema : Fin n → TableContext) where
  | own (k : Bool) (e : Replica.Event schema)
  | send (k : Bool) (D : List FeedRow)
  | sync (k autocommit : Bool) (endpoint : CString) (maxRetries : ℤ) (tries : ℕ → Try)

def onlineStep (w : Wiring) (s : Exchange schema) : Online schema → Option (Exchange schema)
  | .own k e => s.step w (.own k e)
  | .send k D => s.step w (.send k D)
  | .sync k _ endpoint maxRetries tries =>
    (cloudsyncNetworkSync (w.receiver k) endpoint maxRetries tries (s.cursor k) (s.device k)).map
      fun z => s.put k z.2.2.1 z.2.2.2

/-- The databases are careful, with any payload that a sync could take as well. -/
def CarefulOnline (w : Wiring) (s : Exchange schema) : Online schema → Prop
  | .own k e => s.Careful w (.own k e)
  | .send k D => s.Careful w (.send k D)
  | .sync k autocommit _ _ tries => (∀ i, s.Served k autocommit (tries i)) ∧
      ∀ m ∈ s.wire, m.batch.reader = k → s.Careful w (.take autocommit m)

theorem exchange_of_online (hcls : ∀ i, (schema i).algo = .crdtCls)
    (hdflt : ∀ i col, (schema i).dflt col ≠ CLOUDSYNC_RLS_RESTRICTED_VALUE)
    (h : Reachable (onlineStep w) Initial (CarefulOnline w) s) :
    Reachable (step w) Initial (Careful w) s := by
  apply h.invariant
  · exact fun s hs => .start hs
  · intro s e t hs he ht
    cases e with
    | own k e => exact hs.next (.own k e) he ht
    | send k D => exact hs.next (.send k D) he ht
    | sync k autocommit endpoint maxRetries tries =>
      rcases he with ⟨hserved, hcareful⟩
      rcases pullers_of_reachable hcls hdflt hs with ⟨hw, hpullers⟩
      have hsound := Pullers.sound_of_reachable hcls hdflt hpullers
      rcases sync_cases hcls hdflt hsound hw endpoint maxRetries hserved with
        ⟨rc, text, cursor, y, hsync, ⟨-, -, m, hm, hk, -, hstep⟩ | ⟨-, -, rfl, rfl⟩⟩
      · rw [onlineStep, hsync, Option.map_some, Option.some_inj] at ht
        exact hs.next (.take autocommit m) (hcareful m hm hk) (ht ▸ hstep)
      · rw [onlineStep, hsync, Option.map_some, Option.some_inj] at ht
        have hsame : s = t := (s.put_self k).symm.trans ht
        exact hsame ▸ hs

/-- Databases that sync run the tasks, with a first try that is lost each time. -/
theorem runsTasks_online :
    RunsTasks (Reachable (onlineStep plainWiring) Initial (CarefulOnline plainWiring)) where
  start _ h := .start h
  own s k e r h he hr := by
    apply h.next (.own k e) he
    rw [onlineStep, step, hr]
    rfl
  send s k D feed rows h he hfeed hD hrows := by
    rcases exists_send he hfeed hD hrows with ⟨blob, hsend⟩
    exact ⟨blob, h.next (.send k D) he hsend⟩
  take s m h hm honly hcursor he := by
    rcases pullers_of_reachable (fun _ => rfl) singleColumn_dflt
      (exchange_of_online (fun _ => rfl) singleColumn_dflt h) with ⟨hw, hpullers⟩
    have hs := Pullers.sound_of_reachable (fun _ => rfl) singleColumn_dflt hpullers
    rcases exists_take (fun _ => rfl) singleColumn_dflt hs hw true hm with ⟨cursor, hnewest, htake⟩
    rcases sync_cases (fun _ => rfl) singleColumn_dflt hs hw (ascii "https://host/check") 2
      (served_lostOnce hm) with
      ⟨rc, text, cursor', y, hsync, ⟨-, -, m', hm', hk, -, htaken⟩ | ⟨hnot, -⟩⟩
    · rw [honly m' hm' hk, htake, Option.some_inj] at htaken
      refine ⟨cursor, hnewest, htaken ▸ h.next (.sync m.batch.reader true
        (ascii "https://host/check") 2 (lostOnce m.blob)) ⟨served_lostOnce hm, ?_⟩ ?_⟩
      · exact fun m' hm' hk => honly m' hm' hk ▸ he
      · rw [onlineStep, hsync]
        rfl
    · have hthrough := lostOnce_getsThrough (blob_ne_nil hw hm)
      exact absurd ⟨1, by norm_num, hcursor ▸ hthrough⟩ hnot

end
end SqliteSync.Store.Exchange
