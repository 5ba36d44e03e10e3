import SqliteSync.Network.Sender

/-!
# Unsent changes

`cloudsync_network_has_unsent_changes` compares the newest db version of the local
rows, as an `int`, with the stored one. The sender also takes the rows at the stored
db version whose sequence numbers are above the stored one.
-/
namespace SqliteSync.Network
open Library Store Config

section
variable {n : ℕ} {schema : Fin n → TableContext}

theorem lt_maxDbVersion_iff {v : ℤ} (hv : 0 ≤ v) (rows : List (Change n)) :
    v < maxDbVersion rows ↔ ∃ c ∈ rows, v < c.dbVersion := by
  rw [maxDbVersion]
  cases hmax : (rows.map Change.dbVersion).max? with
  | none =>
    rw [List.max?_eq_none_iff, List.map_eq_nil_iff] at hmax
    subst hmax
    simp [hv]
  | some m =>
    rw [List.max?_eq_some_iff] at hmax
    rcases hmax with ⟨hmem, hle⟩
    constructor
    · intro h
      rcases List.mem_map.mp hmem with ⟨c, hc, rfl⟩
      exact ⟨c, hc, h⟩
    · rintro ⟨c, hc, h⟩
      exact h.trans_le (hle _ (List.mem_map_of_mem hc))

theorem le_maxDbVersion {rows : List (Change n)} {c : Change n} (hc : c ∈ rows) :
    c.dbVersion ≤ maxDbVersion rows := by
  rw [maxDbVersion]
  cases hmax : (rows.map Change.dbVersion).max? with
  | none =>
    rw [List.max?_eq_none_iff, List.map_eq_nil_iff] at hmax
    subst hmax
    cases hc
  | some m => exact (List.max?_eq_some_iff.mp hmax).2 _ (List.mem_map_of_mem hc)

namespace Client
variable (x : Client schema) (d : Reader)

/-- The query of the sender, if the sender comes to it, selects a row. -/
def SelectsRow : Prop :=
  ∃ dbVersion seq rows newest, x.sendCursor d = .ok (dbVersion, seq) ∧
    x.unsentRows dbVersion seq = .ok (rows, newest) ∧ rows ≠ []

/-- What the two functions read can be compared: the newest local db version is not
above a cursor the sender refuses, it is above a cursor the sender takes exactly if it
is so as an `int`, and a local row with the db version of the cursor is not above the
cursor alone. -/
structure Comparable : Prop where
  refused : ∀ err, x.sendCursor d = .error err → toInt32 x.maxLocalDbVersion = 0 ∨
    toInt32 x.maxLocalDbVersion ≤ d.int x.settings CLOUDSYNC_KEY_SEND_DBVERSION
  narrowed : ∀ v q, x.sendCursor d = .ok (v, q) →
    (v < toInt32 x.maxLocalDbVersion ↔ v < x.maxLocalDbVersion)
  level : ∀ v q, x.sendCursor d = .ok (v, q) → ∀ c ∈ x.localRows, c.dbVersion = v → q < c.seq →
    v < x.maxLocalDbVersion

section
variable {x : Client schema} {d : Reader}

theorem hasUnsent_iff : x.cloudsyncNetworkHasUnsentChanges d = true ↔
    toInt32 x.maxLocalDbVersion ≠ 0 ∧
      d.int x.settings CLOUDSYNC_KEY_SEND_DBVERSION < toInt32 x.maxLocalDbVersion := by
  rw [cloudsyncNetworkHasUnsentChanges]
  split_ifs with hzero
  · exact iff_of_false id fun h => h.1 hzero
  · rw [Reader.hasUnsent, decide_eq_true_eq]
    exact (and_iff_right hzero).symm

theorem not_selectsRow_of_refused {err : String} (h : x.sendCursor d = .error err) :
    ¬ x.SelectsRow d := by
  rintro ⟨v, q, rows, newest, hcursor, -⟩
  rw [h] at hcursor
  cases hcursor

/-- A cursor that is not refused is not negative, and is the number the check reads. -/
theorem sendCursor_ok {v q : ℤ} (h : x.sendCursor d = .ok (v, q)) :
    0 ≤ v ∧ d.int x.settings CLOUDSYNC_KEY_SEND_DBVERSION = v := by
  rw [sendCursor, Reader.cursor] at h
  dsimp only at h
  split_ifs at h with hversion hseq
  rw [Except.ok.injEq, Prod.mk.injEq] at h
  exact ⟨h.1 ▸ not_lt.mp hversion, h.1⟩

theorem lt_maxLocalDbVersion_iff {v : ℤ} (hv : 0 ≤ v) :
    v < x.maxLocalDbVersion ↔ ∃ c ∈ x.localRows, v < c.dbVersion := by
  rw [← lt_maxDbVersion_iff hv, maxLocalDbVersion]
  cases hfeed : x.replica.cloudsyncChanges with
  | ok feed => rfl
  | error err =>
    have hrows : x.localRows = [] := by rw [localRows, hfeed]
    rw [hrows]
    exact iff_of_false (by dsimp only; omega) (not_lt.mpr hv)

theorem le_maxLocalDbVersion {c : Change n} (hc : c ∈ x.localRows) :
    c.dbVersion ≤ x.maxLocalDbVersion := by
  rw [maxLocalDbVersion]
  cases hfeed : x.replica.cloudsyncChanges with
  | ok feed => exact le_maxDbVersion hc
  | error err =>
    rw [localRows, hfeed] at hc
    cases hc

/-- With the stored site id in the context, the sender selects from the rows the check
looks at. -/
theorem selectsRow_iff (hsite : x.replica.siteOf 0 = x.siteId) {v q : ℤ}
    (h : x.sendCursor d = .ok (v, q)) :
    x.SelectsRow d ↔ ∃ c ∈ x.localRows, v < c.dbVersion ∨ c.dbVersion = v ∧ q < c.seq := by
  have hselects : ∀ c : Change n, x.selects v q c = true ↔
      c.siteId = x.siteId ∧ (v < c.dbVersion ∨ c.dbVersion = v ∧ q < c.seq) := by
    intro c
    simp [selects]
  rw [localRows]
  cases hfeed : x.replica.cloudsyncChanges with
  | error err =>
    refine iff_of_false ?_ (by simp)
    rintro ⟨v, q, rows, newest, -, hrows, -⟩
    rw [unsentRows, hfeed] at hrows
    cases hrows
  | ok feed =>
    dsimp only
    constructor
    · rintro ⟨v', q', rows, newest, hcursor, hrows, hne⟩
      rw [h, Except.ok.injEq, Prod.mk.injEq] at hcursor
      rcases hcursor with ⟨rfl, rfl⟩
      rw [unsentRows, hfeed, Except.map, Except.ok.injEq, Prod.mk.injEq] at hrows
      rcases hrows with ⟨rfl, -⟩
      rcases List.exists_mem_of_ne_nil _ hne with ⟨c, hc⟩
      rw [List.mem_filter, hselects] at hc
      exact ⟨c, List.mem_filter.mpr ⟨hc.1, beq_iff_eq.mpr (hc.2.1.trans hsite.symm)⟩, hc.2.2⟩
    · rintro ⟨c, hc, habove⟩
      rw [List.mem_filter, beq_iff_eq, hsite] at hc
      refine ⟨v, q, feed.filter (x.selects v q), maxDbVersion feed, h, ?_, ?_⟩
      · rw [unsentRows, hfeed]
        rfl
      · exact List.ne_nil_of_mem (List.mem_filter.mpr ⟨hc.1, (hselects c).mpr ⟨hc.2, habove⟩⟩)

theorem hasUnsent_refused_iff {err : String} (h : x.sendCursor d = .error err) :
    (x.cloudsyncNetworkHasUnsentChanges d = true ↔ x.SelectsRow d) ↔ x.Comparable d := by
  rw [iff_false_right (not_selectsRow_of_refused h), hasUnsent_iff, not_and_or, not_not, not_lt]
  constructor
  · intro hnot
    refine ⟨fun _ _ => hnot, ?_, ?_⟩
    · intro v q hok
      rw [h] at hok
      cases hok
    · intro v q hok
      rw [h] at hok
      cases hok
  · exact fun hc => hc.refused err h

theorem hasUnsent_taken_iff (hsite : x.replica.siteOf 0 = x.siteId) {v q : ℤ}
    (h : x.sendCursor d = .ok (v, q)) :
    (x.cloudsyncNetworkHasUnsentChanges d = true ↔ x.SelectsRow d) ↔ x.Comparable d := by
  rcases sendCursor_ok h with ⟨hv, hread⟩
  have hunsent : x.cloudsyncNetworkHasUnsentChanges d = true ↔ v < toInt32 x.maxLocalDbVersion := by
    rw [hasUnsent_iff, hread]
    omega
  have habove := lt_maxLocalDbVersion_iff (x := x) hv
  rw [hunsent, selectsRow_iff hsite h]
  constructor
  · intro hagree
    -- a row at the db version of the cursor makes the newest one nonnegative
    have hlevel : ∀ c ∈ x.localRows, c.dbVersion = v → q < c.seq → v < x.maxLocalDbVersion := by
      intro c hc hversion hseq
      have hcut : v < toInt32 x.maxLocalDbVersion := hagree.mpr ⟨c, hc, .inr ⟨hversion, hseq⟩⟩
      exact hcut.trans_le (toInt32_le ((hversion ▸ hv).trans (le_maxLocalDbVersion hc)))
    refine ⟨?_, ?_, ?_⟩
    · intro err hrefused
      rw [h] at hrefused
      cases hrefused
    · intro v' q' hok
      rw [h, Except.ok.injEq, Prod.mk.injEq] at hok
      rcases hok with ⟨rfl, rfl⟩
      constructor
      · intro hcut
        rcases hagree.mp hcut with ⟨c, hc, hlt | ⟨hversion, hseq⟩⟩
        · exact habove.mpr ⟨c, hc, hlt⟩
        · exact hlevel c hc hversion hseq
      · intro hlt
        rcases habove.mp hlt with ⟨c, hc, hlt⟩
        exact hagree.mpr ⟨c, hc, .inl hlt⟩
    · intro v' q' hok
      rw [h, Except.ok.injEq, Prod.mk.injEq] at hok
      rcases hok with ⟨rfl, rfl⟩
      exact hlevel
  · intro hc
    rw [hc.narrowed v q h, habove]
    constructor
    · rintro ⟨c, hmem, hlt⟩
      exact ⟨c, hmem, .inl hlt⟩
    · rintro ⟨c, hmem, hlt | ⟨hversion, hseq⟩⟩
      · exact ⟨c, hmem, hlt⟩
      · exact habove.mp (hc.level v q h c hmem hversion hseq)

end
end Client
end

namespace Sender
variable {n : ℕ} {schema : Fin n → TableContext}

/-- In every state of every run that keeps the site id, inside and outside of
transactions, the check says that there are unsent changes exactly when the sender
selects one, if and only if what the two read can be compared. -/
theorem hasUnsent_agrees_iff {s : Sender schema} (h : Reachable step Started KeepsSite s)
    (d : Reader) :
    (s.client.cloudsyncNetworkHasUnsentChanges d = true ↔ s.client.SelectsRow d) ↔
      s.client.Comparable d := by
  have hsite : s.client.replica.siteOf 0 = s.client.siteId := (identified_of_reachable h).siteOf
  cases hcursor : s.client.sendCursor d with
  | error err => exact Client.hasUnsent_refused_iff hcursor
  | ok cursor => exact Client.hasUnsent_taken_iff hsite hcursor

def oneRow (k : ℤ) : RowChange singleColumn := .insert false [.integer k] fun _ => .integer k

/-- What the first transaction of the site 1 sends of it. -/
def oneChange (k seq : ℤ) : Change 1 :=
  ⟨⟨0, Nat.one_pos⟩, [.integer k], some "v", .integer k, 1, 1, [1], 1, seq⟩

theorem exists_two_writes : ∃ t u : Transaction fun _ : Fin 1 => singleColumn,
    (Transaction.opened _ [1]).step (.write ⟨0, Nat.one_pos⟩ (oneRow 1)) = some t ∧
      t.step (.write ⟨0, Nat.one_pos⟩ (oneRow 2)) = some u ∧
      t.live.cloudsyncChanges = .ok [oneChange 1 0] ∧
      u.live.cloudsyncChanges = .ok [oneChange 1 0, oneChange 2 1] :=
  ⟨_, _, rfl, rfl, rfl, rfl⟩

theorem sendCursor_empty (r : Replica fun _ : Fin 1 => singleColumn) (site : SiteId) :
    (Client.mk r Keyed.empty site).sendCursor ⟨true, 64⟩ = .ok (0, 0) :=
  (Reader.cursor_eq_ok_iff le_rfl le_rfl).mpr ⟨Reader.int_of_missing rfl, Reader.int_of_missing rfl⟩

theorem localRows_of_feed {x : Client fun _ : Fin 1 => singleColumn} {feed : List (Change 1)}
    (hfeed : x.replica.cloudsyncChanges = .ok feed)
    (hlocal : ∀ c ∈ feed, c.siteId = x.replica.siteOf 0) :
    x.localRows = feed ∧ x.maxLocalDbVersion = maxDbVersion feed := by
  have hrows : x.localRows = feed := by
    rw [Client.localRows, hfeed]
    exact List.filter_eq_self.mpr fun c hc => beq_iff_eq.mpr (hlocal c hc)
  rw [Client.maxLocalDbVersion, hfeed]
  exact ⟨hrows, congrArg maxDbVersion hrows⟩

/-- After the first write there is something to send. -/
theorem hasUnsent_agrees_first : ∃ s : Sender fun _ : Fin 1 => singleColumn,
    s.client.SelectsRow ⟨true, 64⟩ ∧ s.client.cloudsyncNetworkHasUnsentChanges ⟨true, 64⟩ = true := by
  rcases exists_two_writes with ⟨t, -, ht, -, hfeed, -⟩
  let s : Sender fun _ : Fin 1 => singleColumn := ⟨t, Keyed.empty, Keyed.empty, [1]⟩
  have hreach : Reachable step Started KeepsSite s := by
    refine .next (.start (.opened [1] Keyed.empty)) (.db (.write ⟨0, Nat.one_pos⟩ (oneRow 1)))
      trivial ?_
    rw [step, ht]
    rfl
  have hsite : s.client.replica.siteOf 0 = [1] := (identified_of_reachable hreach).siteOf
  have hlocal := localRows_of_feed (x := s.client) hfeed (by simp [hsite, oneChange])
  have hcursor : s.client.sendCursor ⟨true, 64⟩ = .ok (0, 0) := sendCursor_empty _ _
  have hselects : s.client.SelectsRow ⟨true, 64⟩ := by
    refine ⟨0, 0, [oneChange 1 0], 1, hcursor, ?_, List.cons_ne_nil _ _⟩
    rw [Client.unsentRows, show s.client.replica.cloudsyncChanges = _ from hfeed]
    rfl
  refine ⟨s, hselects, ((hasUnsent_agrees_iff hreach ⟨true, 64⟩).mpr ⟨?_, ?_, ?_⟩).mpr hselects⟩
  · intro err hrefused
    rw [hcursor] at hrefused
    cases hrefused
  · intro v q hok
    rw [hlocal.2]
    exact Iff.rfl
  · intro v q hok c hc hversion hseq
    rw [hcursor, Except.ok.injEq, Prod.mk.injEq] at hok
    rcases hok with ⟨rfl, rfl⟩
    rw [hlocal.2]
    decide

/-- A second row of the same transaction, after a send. -/
theorem not_hasUnsent_agrees : ¬ ∀ s : Sender fun _ : Fin 1 => singleColumn,
    Reachable step Started KeepsSite s → ∀ d : Reader,
      (s.client.cloudsyncNetworkHasUnsentChanges d = true ↔ s.client.SelectsRow d) := by
  intro h
  rcases exists_two_writes with ⟨t, u, ht, hu, hfeed, hfeed'⟩
  let sent : Settings := Reader.storeSent ⟨true, 64⟩ Keyed.empty 1 0
  let s : Sender fun _ : Fin 1 => singleColumn := ⟨t, Keyed.empty, Keyed.empty, [1]⟩
  let s' : Sender fun _ : Fin 1 => singleColumn := ⟨u, sent, Keyed.empty, [1]⟩
  have hwritten : Reachable step Started KeepsSite s := by
    refine .next (.start (.opened [1] Keyed.empty)) (.db (.write ⟨0, Nat.one_pos⟩ (oneRow 1)))
      trivial ?_
    rw [step, ht]
    rfl
  have hsend : s.client.cloudsyncNetworkSendChangesInternal ⟨true, 64⟩ .sound =
      ⟨.ok (), sent, [oneChange 1 0]⟩ := by
    have hrows : s.client.unsentRows 0 0 = .ok ([oneChange 1 0], 1) := by
      rw [Client.unsentRows, show s.client.replica.cloudsyncChanges = _ from hfeed]
      rfl
    exact send_sound (sendCursor_empty _ _) hrows (List.cons_ne_nil _ _)
  have hreach : Reachable step Started KeepsSite s' := by
    refine .next (.next hwritten (.send ⟨true, 64⟩ .sound) trivial rfl)
      (.db (.write ⟨0, Nat.one_pos⟩ (oneRow 2))) trivial ?_
    rw [hsend, step]
    dsimp only
    rw [show (Sender.mk t sent Keyed.empty [1]).tx.step _ = _ from hu]
    rfl
  have hreads := (storeSent_reads_iff (d := ⟨true, 64⟩) (s := Keyed.empty) (v := 1) (q := 0)
    (by norm_num) (by norm_num) (by norm_num) le_rfl (by norm_num)).mpr (by norm_num)
  have hsite : s'.client.replica.siteOf 0 = [1] := (identified_of_reachable hreach).siteOf
  have hlocal := localRows_of_feed (x := s'.client) hfeed' (by simp [hsite, oneChange])
  have hselects : s'.client.SelectsRow ⟨true, 64⟩ := by
    refine ⟨1, 0, [oneChange 2 1], 1, hreads.cursor, ?_, List.cons_ne_nil _ _⟩
    rw [Client.unsentRows, show s'.client.replica.cloudsyncChanges = _ from hfeed']
    rfl
  have hunsent := (h s' hreach ⟨true, 64⟩).mpr hselects
  rw [Client.cloudsyncNetworkHasUnsentChanges, hlocal.2,
    show Reader.hasUnsent ⟨true, 64⟩ s'.client.settings _ = _ from hreads.unsent _] at hunsent
  exact absurd hunsent (by decide)

end Sender
end SqliteSync.Network
