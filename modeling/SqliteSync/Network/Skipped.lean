import SqliteSync.Network.Kept
import SqliteSync.Network.SentCursor
import SqliteSync.Network.Unsent

/-!
# What the send cursor passes

The cursor is taken from the whole feed, but later writes and merges may stamp local
rows at or below it. A row is safe while it is above the cursor, or when it was sent as
it is now.
-/
namespace SqliteSync.Network
open Library Clock Store Config

section
variable {n : ℕ} {schema : Fin n → TableContext}

/-! ## What was sent -/

def SentRow (sent : List (Change n)) (r : Replica schema) (p : Place n) (m : MetaRow) : Prop :=
  ∃ c ∈ sent, (c.tbl = p.1 ∧ c.pk = p.2.1 ∧ c.name = p.2.2) ∧ c.colVersion = m.colVersion ∧
    c.cl = clAt r p

theorem SentRow.append {sent : List (Change n)} {r : Replica schema} {p : Place n} {m : MetaRow}
    (h : SentRow sent r p m) (more : List (Change n)) : SentRow (sent ++ more) r p m := by
  rcases h with ⟨c, hc, hsame⟩
  exact ⟨c, List.mem_append_left more hc, hsame⟩

theorem SentRow.congr {sent : List (Change n)} {r r' : Replica schema} {p : Place n} {m : MetaRow}
    (h : SentRow sent r p m) (hcl : clAt r' p = clAt r p) : SentRow sent r' p m := by
  rw [SentRow, hcl]
  exact h

/-- What is stored in a database and what was sent of it: local rows are above the
cursor or were sent, sites are distinct, and numbers are not negative. -/
structure Covered (sent : List (Change n)) (s : Settings) (r : Replica schema) : Prop where
  dbVersion : Printed s CLOUDSYNC_KEY_SEND_DBVERSION
  seq : Printed s CLOUDSYNC_KEY_SEND_SEQ
  sites : r.siteIds.Nodup
  known : ∀ p m, r.metaAt p = some m → m.siteId < r.siteIds.length
  nonneg : ∀ p m, r.metaAt p = some m → 0 ≤ m.dbVersion
  counted : ∀ p m, r.metaAt p = some m → m.siteId = 0 → 0 ≤ m.seq
  rows : ∀ p m, r.metaAt p = some m → m.siteId = 0 →
    storedCursor s < toLex m.stamp ∨ SentRow sent r p m

namespace Covered
variable {sent : List (Change n)} {s : Settings} {r : Replica schema}

theorem append (h : Covered sent s r) (more : List (Change n)) : Covered (sent ++ more) s r :=
  ⟨h.dbVersion, h.seq, h.sites, h.known, h.nonneg, h.counted,
    fun p m hm hlocal => (h.rows p m hm hlocal).imp_right fun hsent => hsent.append more⟩

theorem congr (h : Covered sent s r) {r' : Replica schema} (hmeta : r'.metaAt = r.metaAt)
    (hsites : r'.siteIds = r.siteIds) : Covered sent s r' := by
  refine ⟨h.dbVersion, h.seq, hsites ▸ h.sites, ?_, hmeta ▸ h.nonneg, hmeta ▸ h.counted, ?_⟩
  · rw [hmeta, hsites]
    exact h.known
  · rw [hmeta]
    intro p m hm hlocal
    refine (h.rows p m hm hlocal).imp_right fun hsent => hsent.congr (clAt_congr ?_)
    rw [hmeta]

/-- A row of the feed under the local site id is a local row of the metadata. -/
theorem local_of_siteOf (h : Covered sent s r) {p : Place n} {m : MetaRow}
    (hm : r.metaAt p = some m) (hsite : r.siteOf m.siteId = r.siteOf 0) :
    m.siteId = 0 := by
  have hlt := h.known p m hm
  have hpos : 0 < r.siteIds.length := (Nat.zero_le _).trans_lt hlt
  rw [Replica.siteOf, Replica.siteOf, List.getD_eq_getElem?_getD, List.getD_eq_getElem?_getD,
    List.getElem?_eq_getElem hlt, List.getElem?_eq_getElem hpos, Option.getD_some,
    Option.getD_some] at hsite
  exact (h.sites.getElem_inj_iff).mp hsite

end Covered

theorem getsetSiteid_nodup {siteIds : List SiteId} (h : siteIds.Nodup) (site : SiteId) :
    (getsetSiteid siteIds site).2.Nodup := by
  rw [getsetSiteid]
  split_ifs with hmem
  · exact h
  · rw [List.nodup_append]
    refine ⟨h, List.nodup_singleton site, fun a ha b hb => ?_⟩
    rw [List.mem_singleton] at hb
    rintro rfl
    exact hmem (hb ▸ ha)

theorem getsetSiteid_lt (siteIds : List SiteId) (site : SiteId) :
    (getsetSiteid siteIds site).1 < (getsetSiteid siteIds site).2.length ∧
      siteIds.length ≤ (getsetSiteid siteIds site).2.length := by
  rw [getsetSiteid]
  split_ifs with hmem
  · exact ⟨List.idxOf_lt_length_iff.mpr hmem, le_rfl⟩
  · simp

theorem site_of_getsetSiteid {id : SiteId} {r : Replica schema} (h : LocalSite id r) {site : SiteId}
    (hzero : (getsetSiteid r.siteIds site).1 = 0) : site = r.siteOf 0 := by
  rw [h.siteOf]
  rw [LocalSite] at h
  cases hsites : r.siteIds with
  | nil =>
    rw [hsites] at h
    cases h
  | cons first others =>
    rw [hsites, List.head?_cons, Option.some_inj] at h
    rw [hsites, getsetSiteid] at hzero
    split_ifs at hzero
    · by_contra hne
      rw [List.idxOf_cons_ne _ (h ▸ Ne.symm hne)] at hzero
      cases hzero

/-- The number the clock starts from is not negative when nothing stored is. -/
theorem checked_nonneg {r : Replica schema} (hnonneg : ∀ p m, r.metaAt p = some m → 0 ≤ m.dbVersion)
    (hcached : -1 ≤ r.data.dbVersion) : 0 ≤ r.checked.dbVersion := by
  rcases dbVersionCheckUptodate_cases r.view r.data with ⟨hset, -, hcheck⟩ | hcheck
  · rw [Replica.checked, hcheck]
    rw [CLOUDSYNC_VALUE_NOTSET] at hset
    omega
  · rw [Replica.checked, hcheck]
    dsimp only
    by_cases hempty : r.view.stored = []
    · rw [DbView.maxDbVersion, hempty]
      exact le_rfl
    · rcases Transaction.mem_stored.mp (maxDbVersion_mem r.view hempty) with ⟨p, m, hm, hv⟩
      exact hv ▸ hnonneg p m hm

end

/-! ## Runs with sends -/

/-- A connection that sends, with the rows of the payloads that were uploaded and
announced. -/
structure Delivery {n : ℕ} (schema : Fin n → TableContext) where
  sender : Sender schema
  sent : List (Change n)

namespace Delivery
variable {n : ℕ} {schema : Fin n → TableContext}

/-- The database as it is now. -/
def live (s : Delivery schema) : Replica schema := s.sender.tx.live

/-- The payload of a step. -/
def payload (s : Sender schema) : Sender.Event schema → List (Change n)
  | .send d inp => (s.client.cloudsyncNetworkSendChangesInternal d inp).sent
  | .db _ => []
  | .init _ => []
  | .set _ _ => []

def step (s : Delivery schema) (e : Sender.Event schema) : Option (Delivery schema) :=
  (s.sender.step e).map fun t => ⟨t, s.sent ++ payload s.sender e⟩

/-- Nothing was sent yet, and the settings have no cursor. -/
structure Begun (s : Delivery schema) : Prop where
  started : Sender.Started s.sender
  cursor : ∀ key ∈ [CLOUDSYNC_KEY_SEND_DBVERSION, CLOUDSYNC_KEY_SEND_SEQ],
    s.sender.settings.get (lowered key) = none ∧ s.sender.saved.get (lowered key) = none
  sent : s.sent = []

/-- Every local row of the feed is selected by the next send, or was sent as it is now. -/
def NoneSkipped (s : Delivery schema) : Prop :=
  ∀ feed, s.live.cloudsyncChanges = .ok feed → ∀ c ∈ feed, c.siteId = s.live.siteOf 0 →
    (storedCursor s.sender.settings < toLex (c.dbVersion, c.seq) ∧
      ∀ d v q, s.sender.client.sendCursor d = .ok (v, q) → s.sender.client.selects v q c = true) ∨
    ∃ c' ∈ s.sent, (c'.tbl = c.tbl ∧ c'.pk = c.pk ∧ c'.name = c.name) ∧
      c'.colVersion = c.colVersion ∧ c'.cl = c.cl

def Above (s : Delivery schema) (dbVersion seq : ℤ) : Prop :=
  storedCursor s.sender.settings < toLex (dbVersion, seq)

/-- What a local change stamps is above the cursor, and so is a column that outlives the
sentinel of its key. -/
structure WritesAbove (s : Delivery schema) (i : Fin n) (c : RowChange (schema i)) : Prop where
  successor : HasSuccessor s.live.checked
  stamped : Stamps s.live i c →
    s.Above (s.live.dbVersionNext CLOUDSYNC_VALUE_NOTSET).1 s.live.data.seq
  outlived : ∀ p m, p.1 = i → Outlives s.live i c p.2.1 p.2.2 →
    s.live.metaAt (i, p.2.1, CLOUDSYNC_TOMBSTONE_VALUE) ≠ none → s.live.metaAt p = some m →
    m.siteId = 0 → s.Above m.dbVersion m.seq

/-- What a merge stamps of the local site is above the cursor: a change of this site that
comes back, and the columns that start over and are not written by the change. -/
structure MergesAbove (s : Delivery schema) (c : Change n) : Prop where
  successor : HasSuccessor s.live.checked
  own : c.siteId = s.live.siteOf 0 → 0 ≤ c.seq ∧ s.Above (s.live.dbVersionNext c.dbVersion).1 c.seq
  restarted : s.live.Revives c → ∀ p m, c.Names p → p.2.2 ≠ CLOUDSYNC_TOMBSTONE_VALUE →
    ¬ (p.2.2 = c.name ∧ tableColumnLookup (schema c.tbl) c.name ≠ none) →
    s.live.metaAt p = some m → m.siteId = 0 → s.Above (s.live.dbVersionNext c.dbVersion).1 m.seq
  sentinel : NamesSentinel schema c → ∀ p m, c.Names p → p.2.2 ≠ CLOUDSYNC_TOMBSTONE_VALUE →
    s.live.metaAt p = some m → m.siteId = 0 → s.Above m.dbVersion m.seq

/-- The payload has every row that the cursor is going to pass: the aggregate finds memory
for each, and a row above the cursor that the feed hides has a newer db version than what the
feed shows. -/
structure SendsAll (s : Delivery schema) (inp : SendInput) (rows : List (Change n)) (newest : ℤ) :
    Prop where
  granted : ∀ k < rows.length, inp.grants k = true
  shown : ∀ p m, s.live.metaAt p = some m → m.siteId = 0 → s.Above m.dbVersion m.seq →
    (s.live.table p.1).cloudsyncColValue p.2.2 p.2.1 = .ok CLOUDSYNC_RLS_RESTRICTED_VALUE →
    newest < m.dbVersion ∧
      storedNumber s.sender.settings CLOUDSYNC_KEY_SEND_DBVERSION < m.dbVersion

/-- The steps that skip nothing. -/
def SkipsNothing (s : Delivery schema) : Sender.Event schema → Prop
  | .db (.write i c) => s.live.Records i c → s.WritesAbove i c
  | .db (.merge c) => Applies s.live c → s.MergesAbove c
  | .db .commit => True
  | .db .rollback => LocalSite s.sender.siteId s.sender.tx.saved
  | .init _ => True
  | .set key _ => ∀ k ∈ key, lowered k ≠ lowered CLOUDSYNC_KEY_SEND_DBVERSION ∧
      lowered k ≠ lowered CLOUDSYNC_KEY_SEND_SEQ
  | .send d inp => inp.Accepted → ∀ v q rows newest, s.sender.client.sendCursor d = .ok (v, q) →
      s.sender.client.unsentRows v q = .ok (rows, newest) → rows ≠ [] →
      inp.grants (rows.length - 1) = true → s.SendsAll inp rows newest

/-- What the runs keep true. -/
structure Sound (s : Delivery schema) : Prop where
  identified : s.sender.Identified
  live : Covered s.sent s.sender.settings s.live
  saved : Covered s.sent s.sender.saved s.sender.tx.saved
  dbVersion : -1 ≤ s.live.data.dbVersion
  pending : -1 ≤ s.live.data.pendingDbVersion
  seq : 0 ≤ s.live.data.seq

section
variable {s : Delivery schema}

theorem Sound.checked (hs : s.Sound) : 0 ≤ s.live.checked.dbVersion :=
  checked_nonneg hs.live.nonneg hs.dbVersion

theorem Sound.next (hs : s.Sound) (hsucc : HasSuccessor s.live.checked) (mv : ℤ) :
    0 ≤ (s.live.dbVersionNext mv).1 :=
  (hs.checked.trans_lt (lt_nextVersion s.live.checked mv hsucc)).le

theorem Sound.sites_pos (hs : s.Sound) : 0 < s.live.siteIds.length := by
  have hid := hs.identified
  rw [Sender.Identified, LocalSite] at hid
  rw [List.length_pos_iff]
  intro hnil
  rw [show s.sender.tx.live.siteIds = [] from hnil] at hid
  cases hid

theorem Sound.covered_write (hs : s.Sound) {i : Fin n} {c : RowChange (schema i)}
    {r : Replica schema} (hw : Written s.live r i c) (habove : s.WritesAbove i c) :
    Covered s.sent s.sender.settings r := by
  have hnext := hs.next habove.successor CLOUDSYNC_VALUE_NOTSET
  constructor
  · exact hs.live.dbVersion
  · exact hs.live.seq
  · exact hw.sites ▸ hs.live.sites
  · intro p m hm
    rw [hw.sites]
    rcases hw.rows p m hm with ⟨hold, -⟩ | ⟨-, hsite, -⟩ | ⟨hold, -⟩
    · exact hs.live.known p m hold
    · exact hsite ▸ hs.sites_pos
    · exact hs.live.known p m hold
  · intro p m hm
    rcases hw.rows p m hm with ⟨hold, -⟩ | ⟨-, -, hversion, -⟩ | ⟨hold, -⟩
    · exact hs.live.nonneg p m hold
    · exact hversion ▸ hnext
    · exact hs.live.nonneg p m hold
  · intro p m hm hlocal
    rcases hw.rows p m hm with ⟨hold, -⟩ | ⟨-, -, -, hseq⟩ | ⟨hold, -⟩
    · exact hs.live.counted p m hold hlocal
    · exact hs.seq.trans hseq
    · exact hs.live.counted p m hold hlocal
  · intro p m hm hlocal
    rcases hw.rows p m hm with ⟨hold, hcl⟩ | ⟨hstamps, -, hversion, hseq⟩ | ⟨hold, hi, hout, hsent⟩
    · exact (hs.live.rows p m hold hlocal).imp_right fun hsent => hsent.congr hcl
    · have hstamp : toLex ((s.live.dbVersionNext CLOUDSYNC_VALUE_NOTSET).1, s.live.data.seq) ≤
          toLex m.stamp := by
        rw [MetaRow.stamp, hversion, Prod.Lex.toLex_le_toLex]
        exact .inr ⟨rfl, hseq⟩
      exact .inl ((habove.stamped hstamps).trans_le hstamp)
    · exact .inl (habove.outlived p m hi hout hsent hold hlocal)

theorem Sound.covered_merge (hs : s.Sound) {c : Change n} {r : Replica schema}
    (he : MergeEffect s.live r c)
    (hsites : r.siteIds = (getsetSiteid s.live.siteIds c.siteId).2)
    (hwritten : s.live.Revives c → tableColumnLookup (schema c.tbl) c.name ≠ none →
      c.name ≠ CLOUDSYNC_TOMBSTONE_VALUE →
      r.metaAt (c.tbl, c.pk, c.name) = some (s.live.incoming c c.colVersion))
    (habove : Applies s.live c → s.MergesAbove c) (hsucc : HasSuccessor s.live.checked) :
    Covered s.sent s.sender.settings r := by
  have hnext := hs.next hsucc c.dbVersion
  have hordinal := getsetSiteid_lt s.live.siteIds c.siteId
  -- row 0 of the new ordinals is the local site
  have hown : ∀ colVersion, (s.live.incoming c colVersion).siteId = 0 →
      c.siteId = s.live.siteOf 0 := fun colVersion hzero => site_of_getsetSiteid hs.identified hzero
  constructor
  · exact hs.live.dbVersion
  · exact hs.live.seq
  · exact hsites ▸ getsetSiteid_nodup hs.live.sites c.siteId
  · intro p m hm
    rw [hsites]
    rcases mergeEffect_rows he hm with ⟨hold, -⟩ | ⟨-, colVersion, rfl⟩ |
      ⟨-, -, -, m', hold, -, hsite⟩ | ⟨-, -, -, -, hold⟩
    · exact (hs.live.known p m hold).trans_le hordinal.2
    · exact hordinal.1
    · exact hsite ▸ (hs.live.known p m' hold).trans_le hordinal.2
    · exact (hs.live.known p m hold).trans_le hordinal.2
  · intro p m hm
    rcases mergeEffect_rows he hm with ⟨hold, -⟩ | ⟨-, colVersion, rfl⟩ |
      ⟨-, -, -, m', hold, hstamp, -⟩ | ⟨-, -, -, -, hold⟩
    · exact hs.live.nonneg p m hold
    · exact hnext
    · have hversion : m.dbVersion = (s.live.dbVersionNext c.dbVersion).1 := congrArg Prod.fst hstamp
      exact hversion ▸ hnext
    · exact hs.live.nonneg p m hold
  · intro p m hm hlocal
    rcases mergeEffect_rows he hm with ⟨hold, -⟩ | ⟨happlies, colVersion, rfl⟩ |
      ⟨-, -, -, m', hold, hstamp, hsite⟩ | ⟨-, -, -, -, hold⟩
    · exact hs.live.counted p m hold hlocal
    · exact ((habove happlies).own (hown colVersion hlocal)).1
    · have hseq : m.seq = m'.seq := congrArg Prod.snd hstamp
      exact hseq ▸ hs.live.counted p m' hold (hsite ▸ hlocal)
    · exact hs.live.counted p m hold hlocal
  · intro p m hm hlocal
    rcases mergeEffect_rows he hm with ⟨hold, hcl⟩ | ⟨happlies, colVersion, rfl⟩ |
      ⟨hrevives, hnames, hcolumn, m', hold, hstamp, hsite⟩ |
      ⟨happlies, hsentinel, hnames, hcolumn, hold⟩
    · exact (hs.live.rows p m hold hlocal).imp_right fun hsent => hsent.congr hcl
    · exact .inl ((habove happlies).own (hown colVersion hlocal)).2
    · have happlies := habove (.inr (.inl hrevives))
      by_cases hover : p.2.2 = c.name ∧ tableColumnLookup (schema c.tbl) c.name ≠ none
      · -- the column of the change does not start over
        have hp : p = (c.tbl, c.pk, c.name) := hnames.ext ⟨rfl, rfl⟩ hover.1
        have hm' := hwritten hrevives hover.2 (hover.1 ▸ hcolumn)
        rw [← hp, hm, Option.some_inj] at hm'
        subst hm'
        exact .inl (happlies.own (hown _ hlocal)).2
      · have hrestarted := happlies.restarted hrevives p m' hnames hcolumn hover hold
          (hsite ▸ hlocal)
        rw [hstamp]
        exact .inl hrestarted
    · exact .inl ((habove happlies).sentinel hsentinel p m hnames hcolumn hold hlocal)

/-- A step of the database that keeps the settings and what they are rolled back to. -/
theorem Sound.of_live (hs : s.Sound) {r : Replica schema} {merged : Bool}
    (hid : LocalSite s.sender.siteId r) (hcovered : Covered s.sent s.sender.settings r)
    (hdb : -1 ≤ r.data.dbVersion) (hpending : -1 ≤ r.data.pendingDbVersion)
    (hseq : 0 ≤ r.data.seq) :
    Sound ⟨{ s.sender with tx := ⟨r, s.sender.tx.saved, merged⟩ }, s.sent⟩ :=
  ⟨hid, hcovered, hs.saved, hdb, hpending, hseq⟩

theorem Sound.write (hs : s.Sound) {i : Fin n} {c : RowChange (schema i)} {r : Replica schema}
    (hallowed : s.live.Records i c → s.WritesAbove i c) (h : applyRowChange s.live i c = some r) :
    Sound ⟨{ s.sender with tx := ⟨r, s.sender.tx.saved, s.sender.tx.merged⟩ }, s.sent⟩ := by
  have hid : LocalSite s.sender.siteId r := by
    rw [LocalSite, applyRowChange_siteIds h]
    exact hs.identified
  rcases applyRowChange_written h with ⟨-, hoff⟩ | ⟨hon, hw⟩
  · refine hs.of_live hid (hs.live.congr hoff.metaAt hoff.sites) ?_ ?_ ?_
    · exact hoff.data ▸ hs.dbVersion
    · exact hoff.data ▸ hs.pending
    · exact hoff.data ▸ hs.seq
  · have habove := hallowed hon
    have hsettled : s.live.Settled := by
      refine ⟨?_, habove.successor⟩
      have hzero := hs.checked
      rw [CLOUDSYNC_VALUE_NOTSET]
      omega
    have hasked := hw.clocked.asked (List.cons_ne_nil _ _) hsettled
    have hlatest := hw.clocked.latest _ rfl
    refine hs.of_live hid (hs.covered_write hw habove) ?_ ?_ (hs.seq.trans hw.clocked.seq)
    · rw [hasked.1]
      exact (neg_one_lt_zero.trans_le hs.checked).le
    · rw [hlatest]
      exact (neg_one_lt_zero.trans_le (hs.next habove.successor _)).le

theorem Sound.merge (hs : s.Sound) {c : Change n}
    (hallowed : Applies s.live c → s.MergesAbove c) :
    Sound ⟨{ s.sender with
      tx := ⟨(cloudsyncMergeInsert noFaults s.live c).2, s.sender.tx.saved, true⟩ }, s.sent⟩ := by
  have hset : s.live.checked.dbVersion ≠ CLOUDSYNC_VALUE_NOTSET := by
    have hzero := hs.checked
    rw [CLOUDSYNC_VALUE_NOTSET]
    omega
  have hid : LocalSite s.sender.siteId (cloudsyncMergeInsert noFaults s.live c).2 :=
    cloudsyncMergeInsert_localSite noFaults hs.identified c
  rcases cloudsyncMergeInsert_effect (r := s.live) (c := c) hset with ⟨heffect, hmerging⟩
  rcases applies_of_effect heffect with hidle | ⟨happlies, hsites⟩
  · rw [hidle] at hid ⊢
    exact hs.of_live hid hs.live hs.dbVersion hs.pending hs.seq
  · have hsucc := (hallowed happlies).successor
    have hcovered := hs.covered_merge heffect hsites (metaAt_of_revives hset) hallowed hsucc
    refine hs.of_live hid hcovered ?_ ?_ ?_
    · rcases hmerging.clock with hu | ha
      · rw [hu.dbVersion]
        exact hs.dbVersion
      · rw [ha.dbVersion]
        exact (neg_one_lt_zero.trans_le hs.checked).le
    · rcases hmerging.clock with hu | ha
      · rw [hu.pending]
        exact hs.pending
      · rw [ha.pending]
        exact (neg_one_lt_zero.trans_le (hs.next hsucc _)).le
    · rw [hmerging.seq]
      exact hs.seq

/-- A send that goes through has every local row in its payload that is above the cursor. -/
theorem Sound.send (hs : s.Sound) (d : Reader) (inp : SendInput)
    (hallowed : s.SkipsNothing (.send d inp)) :
    Sound ⟨{ s.sender with
        settings := (s.sender.client.cloudsyncNetworkSendChangesInternal d inp).settings },
      s.sent ++ (s.sender.client.cloudsyncNetworkSendChangesInternal d inp).sent⟩ := by
  rcases s.sender.client.send_cases d inp with ⟨hsettings, hsent⟩ |
    ⟨v, q, rows, newest, haccepted, hcursor, hrows, hne, hsettings, hsent⟩
  · rw [hsettings, hsent, List.append_nil]
    exact ⟨hs.identified, hs.live, hs.saved, hs.dbVersion, hs.pending, hs.seq⟩
  · rcases granted_of_payloadRows hne with ⟨hfound, hlast⟩
    have hall := hallowed haccepted v q rows newest hcursor hrows hfound hlast
    rw [payloadRows_of_granted hall.granted] at hsent
    rw [hsettings, hsent]
    rw [Client.unsentRows, map_eq_ok_iff] at hrows
    rcases hrows with ⟨feed, hfeed, hpair⟩
    rw [Prod.mk.injEq] at hpair
    rcases hpair with ⟨rfl, rfl⟩
    have hsite : s.live.siteOf 0 = s.sender.siteId := hs.identified.siteOf
    -- a local row is sent, or was sent before, or the feed hides it
    have hcovered : ∀ p m, s.live.metaAt p = some m → m.siteId = 0 →
        SentRow (s.sent ++ feed.filter (s.sender.client.selects v q)) s.live p m ∨
          maxDbVersion feed < m.dbVersion ∧
            storedNumber s.sender.settings CLOUDSYNC_KEY_SEND_DBVERSION < m.dbVersion := by
      intro p m hm hlocal
      rcases hs.live.rows p m hm hlocal with habove | hold
      · by_cases hhidden : (s.live.table p.1).cloudsyncColValue p.2.2 p.2.1 =
            .ok CLOUDSYNC_RLS_RESTRICTED_VALUE
        · exact .inr (hall.shown p m hm hlocal habove hhidden)
        rcases mem_feed_of_metaAt hfeed hm hhidden with ⟨value, hmem⟩
        have hlocal' : (s.live.changeOf p.1 p.2 m value).siteId = s.sender.siteId := by
          rw [← hsite, ← hlocal]
          rfl
        have hselects := Client.selects_of_lt (x := s.sender.client) hs.live.dbVersion hs.live.seq
          hcursor hlocal' habove
        exact .inl ⟨_, List.mem_append_right _ (List.mem_filter.mpr ⟨hmem, hselects⟩),
          ⟨rfl, rfl, rfl⟩, rfl, rfl⟩
      · exact .inl (hold.append _)
    have hnewest : 0 ≤ maxDbVersion feed := by
      rw [maxDbVersion]
      cases hmax : (feed.map Change.dbVersion).max? with
      | none => exact le_rfl
      | some newest =>
        rcases List.mem_map.mp (List.max?_mem hmax) with ⟨c, hc, rfl⟩
        rcases metaAt_of_mem_feed hfeed hc with ⟨p, m, value, hm, rfl⟩
        exact hs.live.nonneg p m hm
    have hnumber : 0 ≤ maxSeq (feed.filter (s.sender.client.selects v q)) (maxDbVersion feed) := by
      rw [maxSeq]
      cases hmax : (((feed.filter (s.sender.client.selects v q)).filter
          fun c => c.dbVersion == maxDbVersion feed).map Change.seq).max? with
      | none => exact le_rfl
      | some number =>
        rcases List.mem_map.mp (List.max?_mem hmax) with ⟨c, hc, rfl⟩
        rcases List.mem_filter.mp (List.mem_of_mem_filter hc) with ⟨hc, hselects⟩
        rcases metaAt_of_mem_feed hfeed hc with ⟨p, m, value, hm, rfl⟩
        rw [Client.selects, Bool.and_eq_true, beq_iff_eq] at hselects
        exact hs.live.counted p m hm (hs.live.local_of_siteOf hm (hselects.1.trans hsite.symm))
    have hprinted := hs.live.dbVersion.storeSent hs.live.seq d hnewest hnumber
    refine ⟨hs.identified, ⟨hprinted.1, hprinted.2.1, hs.live.sites, hs.live.known, hs.live.nonneg,
      hs.live.counted, fun p m hm hlocal => ?_⟩, hs.saved.append _, hs.dbVersion, hs.pending,
      hs.seq⟩
    rcases hcovered p m hm hlocal with hsent' | ⟨hbeyond, hbeyond'⟩
    · exact .inr hsent'
    · left
      rw [storedCursor, Prod.Lex.toLex_lt_toLex]
      rcases hprinted.2.2 with hstored | hstored
      · exact .inl (hstored.trans_lt hbeyond)
      · exact .inl (hstored.trans_lt hbeyond')

theorem sound_begun (h : s.Begun) : s.Sound := by
  rcases s with ⟨sender, sent⟩
  rcases h with ⟨hstarted, hcursor, hsent⟩
  have hunset : ∀ settings : Settings,
      (∀ key ∈ [CLOUDSYNC_KEY_SEND_DBVERSION, CLOUDSYNC_KEY_SEND_SEQ],
        settings.get (lowered key) = none) →
      ∀ r : Replica schema, r.siteIds.Nodup → (∀ p, r.metaAt p = none) →
        Covered sent settings r := by
    intro settings hkeys r hnodup hmeta
    have hno : ∀ (p : Place n) (m : MetaRow), r.metaAt p = some m → False := by
      intro p m hm
      rw [hmeta p] at hm
      cases hm
    exact ⟨.inl (hkeys _ List.mem_cons_self), .inl (hkeys _ (.tail _ List.mem_cons_self)), hnodup,
      fun p m hm => (hno p m hm).elim, fun p m hm => (hno p m hm).elim,
      fun p m hm => (hno p m hm).elim, fun p m hm => (hno p m hm).elim⟩
  have hlive := hunset sender.settings fun key hkey => (hcursor key hkey).1
  have hsaved := hunset sender.saved fun key hkey => (hcursor key hkey).2
  cases hstarted with
  | opened site settings =>
    exact ⟨rfl, hlive _ (List.nodup_singleton site) fun _ => rfl,
      hsaved _ (List.nodup_singleton site) fun _ => rfl, neg_one_lt_zero.le, neg_one_lt_zero.le,
      le_rfl⟩
  | installed site settings =>
    exact ⟨rfl, hlive _ (List.nodup_singleton site) fun _ => rfl,
      hsaved _ List.nodup_nil fun _ => rfl, neg_one_lt_zero.le, neg_one_lt_zero.le, le_rfl⟩

theorem Sound.init (hs : s.Sound) (uuid : SiteId) :
    Sound ⟨s.sender.cloudsyncContextInit uuid, s.sent⟩ := by
  have hne : s.sender.tx.live.siteIds ≠ [] := List.length_pos_iff.mp hs.sites_pos
  have hsame : s.sender.cloudsyncContextInit uuid = s.sender := by
    rw [Sender.cloudsyncContextInit, if_neg hne, hs.identified.siteOf, ite_self]
  rw [hsame]
  exact hs

theorem Sound.set (hs : s.Sound) {key : Option String} {value : Option CString}
    (hallowed : s.SkipsNothing (.set key value)) :
    Sound ⟨{ s.sender with settings := dbutilsSettingsSetKeyValue s.sender.settings key value },
      s.sent⟩ := by
  have hget : ∀ key' ∈ [CLOUDSYNC_KEY_SEND_DBVERSION, CLOUDSYNC_KEY_SEND_SEQ],
      (dbutilsSettingsSetKeyValue s.sender.settings key value).get (lowered key') =
        s.sender.settings.get (lowered key') := by
    intro key' hkey'
    rcases key with - | key
    · rfl
    have hne : lowered key' ≠ lowered key := by
      rcases List.mem_cons.mp hkey' with rfl | hkey'
      · exact (hallowed key rfl).1.symm
      · rw [List.mem_singleton] at hkey'
        exact hkey' ▸ (hallowed key rfl).2.symm
    rcases value with - | value
    · rw [dbutilsSettingsSetKeyValue, Keyed.get_deleteWhere]
      cases s.sender.settings.get (lowered key') <;> simp [hne]
    · rw [dbutilsSettingsSetKeyValue, Keyed.get_replace, if_neg hne]
  have hversion := hget _ List.mem_cons_self
  have hseq := hget _ (.tail _ List.mem_cons_self)
  refine ⟨hs.identified, ⟨hs.live.dbVersion.congr hversion, hs.live.seq.congr hseq, hs.live.sites,
    hs.live.known, hs.live.nonneg, hs.live.counted, ?_⟩, hs.saved, hs.dbVersion, hs.pending, hs.seq⟩
  intro p m hm hlocal
  rw [storedCursor, storedNumber, storedNumber, hversion, hseq]
  exact hs.live.rows p m hm hlocal

theorem Sound.step (hs : s.Sound) {e : Sender.Event schema} (hallowed : s.SkipsNothing e)
    {t : Delivery schema} (h : Delivery.step s e = some t) : t.Sound := by
  rcases Option.map_eq_some_iff.mp h with ⟨sender, hsender, rfl⟩
  cases e with
  | db e =>
    rw [payload, List.append_nil]
    rcases Option.map_eq_some_iff.mp hsender with ⟨tx, htx, rfl⟩
    cases e with
    | write i c =>
      rcases Option.map_eq_some_iff.mp htx with ⟨r, hr, rfl⟩
      exact hs.write hallowed hr
    | merge c =>
      cases htx
      exact hs.merge hallowed
    | commit =>
      cases htx
      exact ⟨hs.identified, hs.live.congr rfl rfl, hs.live.congr rfl rfl, hs.pending, le_rfl,
        le_rfl⟩
    | rollback =>
      cases htx
      exact ⟨hallowed, hs.saved.congr rfl rfl, hs.saved, hs.dbVersion, le_rfl, le_rfl⟩
  | init uuid =>
    rw [payload, List.append_nil]
    cases hsender
    exact hs.init uuid
  | set key value =>
    rw [payload, List.append_nil]
    cases hsender
    exact hs.set hallowed
  | send d inp =>
    cases hsender
    exact hs.send d inp hallowed

theorem Sound.noneSkipped (hs : s.Sound) : s.NoneSkipped := by
  intro feed hfeed c hc hlocal
  rcases metaAt_of_mem_feed hfeed hc with ⟨p, m, value, hm, rfl⟩
  have hzero := hs.live.local_of_siteOf hm hlocal
  rcases hs.live.rows p m hm hzero with habove | ⟨c', hc', hplace, hversion, hcl⟩
  · refine .inl ⟨habove, fun d v q hcursor => ?_⟩
    exact Client.selects_of_lt (x := s.sender.client) hs.live.dbVersion hs.live.seq hcursor
      (hlocal.trans hs.identified.siteOf) habove
  · exact .inr ⟨c', hc', hplace, hversion, hcl⟩

end

/-! ## One run that skips nothing, and one that skips a row -/

theorem step_db {n : ℕ} {schema : Fin n → TableContext} {s : Delivery schema}
    {e : Transaction.Event schema} {t : Transaction schema} (h : s.sender.tx.step e = some t) :
    step s (.db e) = some ⟨{ s.sender with
      tx := t, settings := s.sender.settingsAfter e, saved := s.sender.savedAfter e }, s.sent⟩ := by
  rw [step, Sender.step, h, payload, List.append_nil]
  rfl

theorem begun_opened : Begun
    (⟨⟨Transaction.opened _ [1], Keyed.empty, Keyed.empty, [1]⟩, []⟩ :
      Delivery fun _ : Fin 1 => singleColumn) :=
  ⟨.opened [1] Keyed.empty, fun _ _ => ⟨rfl, rfl⟩, rfl⟩

theorem exists_first : ∃ t : Transaction fun _ : Fin 1 => singleColumn,
    (Transaction.opened _ [1]).step (.write ⟨0, Nat.one_pos⟩ (Sender.oneRow 1)) = some t ∧
      t.live.cloudsyncChanges = .ok [Sender.oneChange 1 0] ∧
      (t.live.table ⟨0, Nat.one_pos⟩).metadata.rows = [(([.integer 1], "v"), ⟨1, 1, 0, 0⟩)] ∧
      (t.live.table ⟨0, Nat.one_pos⟩).cloudsyncColValue "v" [.integer 1] = .ok (.integer 1) :=
  ⟨_, rfl, rfl, rfl, rfl⟩

def aheadChange : Change 1 :=
  ⟨⟨0, Nat.one_pos⟩, [.integer 7], some "v", .integer 7, 1, 5, [2], 1, 0⟩

def behindChange : Change 1 :=
  ⟨⟨0, Nat.one_pos⟩, [.integer 2], some "v", .integer 2, 1, 5, [1], 1, 0⟩

theorem exists_behind : ∃ t₁ t₂ t₃ t₄ : Transaction fun _ : Fin 1 => singleColumn,
    (Transaction.opened _ [1]).step (.write ⟨0, Nat.one_pos⟩ (Sender.oneRow 1)) = some t₁ ∧
      t₁.step .commit = some t₂ ∧ t₂.step (.merge aheadChange) = some t₃ ∧
      t₃.step (.write ⟨0, Nat.one_pos⟩ (Sender.oneRow 2)) = some t₄ ∧
      t₃.live.cloudsyncChanges = .ok [Sender.oneChange 1 0, aheadChange] ∧
      t₄.live.cloudsyncChanges = .ok [Sender.oneChange 1 0, aheadChange, behindChange] ∧
      t₄.live.siteIds = [[1], [2]] :=
  ⟨_, _, _, _, rfl, rfl, rfl, rfl, rfl, rfl, rfl⟩

theorem storedCursor_ahead :
    storedCursor (Reader.storeSent ⟨true, 64⟩ Keyed.empty 5 0) = toLex (5, 0) := by
  have hstored : Reader.storeSent ⟨true, 64⟩ Keyed.empty 5 0 =
      storeInt Keyed.empty CLOUDSYNC_KEY_SEND_DBVERSION 5 := by
    rw [Reader.storeSent, Reader.int_of_missing rfl, Reader.int_of_missing rfl]
    rfl
  have hget := get_storeInt_self Keyed.empty CLOUDSYNC_KEY_SEND_DBVERSION 5 (by norm_num)
  rw [hstored, storedCursor, storedNumber, hget,
    storedNumber_of_missing (get_storeInt_ne Keyed.empty lowered_sendSeq_ne 5)]
  exact congrArg (fun v : ℤ => toLex (v, (0 : ℤ))) (numberOf_printInt (by norm_num))

end Delivery
end SqliteSync.Network
