import SqliteSync.Causal.Incremental
import SqliteSync.Causal.Transfer

/-!
# Two databases that send each other payloads

A database encodes rows of its feed above the cursor that the other one stores, and the
other one applies what arrives: late, twice, in another order or never. Seen from the
stored cursors the two are peers who pull each other's feeds.
-/
namespace SqliteSync.Store
open Library Clock Payload

/-- The machines of the two databases, which can open each other's payloads. -/
structure Wiring where
  receiver : Bool → Receiver
  lz4 : Lz4
  hash : ℕ
  limit : ℕ
  lawful : lz4.Lawful
  opens : ∀ k, (receiver k).Opens lz4 hash
  limit_eq : ∀ k, (receiver k).limit = limit
  limit_lt : limit < 2 ^ 31
  hash_lt : hash < 2 ^ 64

/-- A payload on its way, and the rows it was made of. -/
structure Message (n : ℕ) where
  batch : Batch Bool n
  blob : List UInt8
deriving DecidableEq

/-- Two databases, the cursor each has stored, and the payloads on their way. -/
structure Exchange {n : ℕ} (schema : Fin n → TableContext) where
  device : Bool → Catalog schema
  cursor : Bool → CheckCursor
  wire : List (Message n)

section
variable {n : ℕ} {schema : Fin n → TableContext}

def Catalog.changeOfRow (x : Catalog schema) (f : FeedRow) : Option (Change n) :=
  (x.tableLookup f.tbl).map f.change

/-- Rows of a feed: all above a cursor up to the last of them, by db version, and some
below it perhaps. -/
def Selects (lower : ℤ) (feed D : List FeedRow) : Prop :=
  (∀ f ∈ D, f ∈ feed) ∧
    (∀ f ∈ feed, lower < f.dbVersion → (∃ g ∈ D, f.dbVersion ≤ g.dbVersion) → f ∈ D) ∧
      D.Pairwise fun f g => f.dbVersion ≤ g.dbVersion

instance (lower : ℤ) (feed D : List FeedRow) : Decidable (Selects lower feed D) :=
  inferInstanceAs (Decidable (_ ∧ _ ∧ _))

def Fits (limit : ℕ) (rows : List (List Value)) : Prop :=
  (∀ row ∈ rows.head?, headerSize + (Codec.pkEncodeValues row).length ≤
    CLOUDSYNC_PAYLOAD_MINBUF_SIZE) ∧ headerSize + (encodedRows rows).length ≤ limit

namespace Exchange
variable (w : Wiring) (s : Exchange schema)

inductive Event {n : ℕ} (schema : Fin n → TableContext) where
  | own (k : Bool) (e : Replica.Event schema)
  | send (k : Bool) (D : List FeedRow)
  | take (autocommit : Bool) (m : Message n)

/-- The stored `check_dbversion`; a missing key counts as zero. -/
def read (k : Bool) : ℤ := (s.cursor k).dbversion.getD 0

/-- The rows `D` are sent to `k`. -/
def step : Event schema → Option (Exchange schema)
  | .own k e =>
    ((s.device k).replica.step e).map fun r =>
      { s with device := Function.update s.device k { s.device k with replica := r } }
  | .send k D =>
    match (s.device !k).cloudsyncChanges, D.mapM FeedRow.values with
    | .ok feed, some rows =>
      match cloudsyncPayloadEncode (w.receiver !k).m w.lz4 (w.receiver !k).e w.limit w.hash rows with
      | some (.blob blob) =>
        if Selects (s.read k) feed D then
          some { s with
            wire := ⟨⟨k, !k, s.read k, D.filterMap (s.device !k).changeOfRow⟩, blob⟩ :: s.wire }
        else none
      | _ => none
    | _, _ => none
  | .take autocommit m =>
    if m ∈ s.wire then
      ((Applier.sound autocommit).payloadApply (w.receiver m.batch.reader)
        (s.cursor m.batch.reader) (s.device m.batch.reader) m.blob).map fun x =>
          { s with
            device := Function.update s.device m.batch.reader x.2
            cursor := Function.update s.cursor m.batch.reader x.1.cursor }
    else none

/-- Two databases of empty tables with the same names, who have read nothing. -/
def Initial (s : Exchange schema) : Prop :=
  (∀ k, ∃ site, (s.device k).replica = Replica.empty schema site) ∧
    (∀ k i, (s.device k).tableLookup ((s.device !k).tblName i) = some i) ∧
    (∀ k, ∀ u ∈ (s.device k).others, likeCloudsync u.name = false) ∧
    s.cursor = (fun _ => ⟨none, none⟩) ∧ s.wire = []

/-- What is sent is committed and fits in a payload, and what happens to a database keeps
what was read of it true. Db versions are as small as the code reads the stored one. -/
def Careful : Event schema → Prop
  | .own k e => (s.device k).replica.KeepsCursors e
  | .send k D => D ≠ [] ∧ (∀ f ∈ D, f.Plain ∧ f.dbVersion < 2 ^ 31 ∧
      f.dbVersion ≤ (s.device !k).replica.checked.dbVersion) ∧
        ∀ rows ∈ D.mapM FeedRow.values, Fits w.limit rows
  | .take autocommit m =>
    Replica.HasRoom autocommit (s.device m.batch.reader).replica m.batch.changes

def pullers : Pullers Bool schema where
  node k := (s.device k).replica
  cursor k l := if l = !k then s.read k else 0
  batches := s.wire.map (·.batch)

/-- The blob is what the rows `D` were encoded as. -/
structure Carries (w : Wiring) (x : Catalog schema) (m : Message n) : Prop where
  writer : m.batch.writer = !m.batch.reader
  nonempty : m.batch.changes ≠ []
  named : ∀ c ∈ m.batch.changes, c.colName.isSome
  plain : ∀ c ∈ m.batch.changes, (x.row c).Plain ∧ c.dbVersion < 2 ^ 31
  sorted : m.batch.changes.Pairwise fun c d => c.dbVersion ≤ d.dbVersion
  sent : ∃ rows expandedSize data e, (m.batch.changes.map x.row).mapM FeedRow.values = some rows ∧
    (encodedRows rows).length ≤ w.limit ∧ Sent w.lz4 rows expandedSize data ∧
      m.blob = (cloudsyncNetworkHeaderInit e expandedSize insertParams rows.length w.hash).store e ++
        data
  size : m.blob.length ≤ w.limit

/-- The databases know each other's tables, and the stored cursors are small. -/
structure Wired (w : Wiring) (s : Exchange schema) : Prop where
  names : ∀ k i, (s.device k).tableLookup ((s.device !k).tblName i) = some i
  others : ∀ k, ∀ u ∈ (s.device k).others, likeCloudsync u.name = false
  read : ∀ k, 0 ≤ s.read k ∧ s.read k < 2 ^ 31
  carries : ∀ m ∈ s.wire, Carries w (s.device !m.batch.reader) m

/-! ## What is sent -/

section
variable {x : Catalog schema}

theorem changeOfRow_row {c : Change n} (h : c.colName.isSome) : x.changeOfRow (x.row c) = some c := by
  have htbl : x.tableLookup (x.row c).tbl = some c.tbl := x.tableLookup_tblName c.tbl
  rw [Catalog.changeOfRow, htbl, Option.map_some, x.change_row h]

theorem rows_of_changes {changes : List (Change n)} (hnamed : ∀ c ∈ changes, c.colName.isSome)
    {D : List FeedRow} (hD : ∀ f ∈ D, f ∈ changes.map x.row) :
    (D.filterMap x.changeOfRow).map x.row = D ∧ ∀ c ∈ D.filterMap x.changeOfRow, c ∈ changes := by
  induction D with
  | nil => exact ⟨rfl, fun c hc => absurd hc List.not_mem_nil⟩
  | cons f D ih =>
    rcases List.mem_map.mp (hD f List.mem_cons_self) with ⟨c, hc, rfl⟩
    rcases ih fun g hg => hD g (.tail _ hg) with ⟨hmap, hmem⟩
    rw [List.filterMap_cons_some (changeOfRow_row (hnamed c hc)), List.map_cons, hmap]
    refine ⟨rfl, fun d hd => ?_⟩
    rcases List.mem_cons.mp hd with rfl | hd
    · exact hc
    · exact hmem d hd

theorem answers_of_selects {changes : List (Change n)} (hnamed : ∀ c ∈ changes, c.colName.isSome)
    {lower : ℤ} {D : List FeedRow} (h : Selects lower (changes.map x.row) D) :
    Answers lower changes (D.filterMap x.changeOfRow) := by
  rcases h with ⟨hsub, hall, -⟩
  rcases rows_of_changes hnamed hsub with ⟨hrows, hmem⟩
  refine ⟨hmem, fun c hc hlt hle => List.mem_filterMap.mpr ?_⟩
  refine ⟨x.row c, hall _ (List.mem_map_of_mem hc) hlt ?_, changeOfRow_row (hnamed c hc)⟩
  rcases newest_cases lower (D.filterMap x.changeOfRow) with hsame | ⟨d, hd, hsame⟩
  · exact absurd (hsame ▸ hle) hlt.not_ge
  · refine ⟨x.row d, ?_, (hsame ▸ hle : c.dbVersion ≤ d.dbVersion)⟩
    rw [← hrows]
    exact List.mem_map_of_mem hd

end

theorem newest_getLast {D : List (Change n)} (h : D.Pairwise fun c d => c.dbVersion ≤ d.dbVersion)
    (v : ℤ) {last : Change n} (hlast : D.getLast? = some last) : newest v D = v ⊔ last.dbVersion := by
  induction D generalizing v with
  | nil => cases hlast
  | cons c D ih =>
    rcases List.pairwise_cons.mp h with ⟨hc, hD⟩
    rw [newest, List.foldl_cons, ← newest]
    cases hD' : D.getLast? with
    | none =>
      rw [List.getLast?_eq_none_iff.mp hD'] at hlast ⊢
      cases hlast
      rfl
    | some d =>
      rw [List.getLast?_cons, hD', Option.getD_some, Option.some_inj] at hlast
      subst hlast
      rw [ih hD (v ⊔ c.dbVersion) hD', sup_assoc, sup_eq_right.mpr (hc d (List.mem_of_getLast? hD'))]

theorem advance_dbversion {c : CheckCursor} (h₀ : 0 ≤ c.dbversion.getD 0)
    (h : c.dbversion.getD 0 < 2 ^ 31) (ctx : BindContext) :
    (c.advance ctx).dbversion.getD 0 = c.dbversion.getD 0 ⊔ ctx.dbVersion := by
  rw [CheckCursor.advance, settingsGetInt, toInt32_of_lt h₀ h]
  by_cases hle : c.dbversion.getD 0 ≤ ctx.dbVersion
  · rw [if_pos hle]
    exact (sup_eq_right.mpr hle).symm
  · rw [if_neg hle]
    exact (sup_eq_left.mpr (not_le.mp hle).le).symm

/-! ## What arrives -/

variable {w : Wiring} {s t : Exchange schema}

/-- A blob that arrives is applied as the changes it was made of, and the stored cursor
moves to the newest of them. -/
theorem exists_applied (hcls : ∀ i, (schema i).algo = .crdtCls)
    (hdflt : ∀ i col, (schema i).dflt col ≠ CLOUDSYNC_RLS_RESTRICTED_VALUE) (hs : s.pullers.Sound)
    (hw : s.Wired w) (autocommit : Bool) {m : Message n} (hm : m ∈ s.wire) :
    ∃ result, (Applier.sound autocommit).payloadApply (w.receiver m.batch.reader)
        (s.cursor m.batch.reader) (s.device m.batch.reader) m.blob =
          some (result, { s.device m.batch.reader with
            replica := (s.device m.batch.reader).replica.deliverEach autocommit m.batch.changes }) ∧
      result.rc = m.batch.changes.length ∧
        result.cursor.dbversion.getD 0 = newest (s.read m.batch.reader) m.batch.changes := by
  have hc := hw.carries m hm
  have hread := hw.read m.batch.reader
  rcases hc.sent with ⟨rows, expandedSize, data, e, hrows, hlength, hsent, hblob⟩
  have hplain : ∀ f ∈ m.batch.changes.map (s.device !m.batch.reader).row, f.Plain := by
    intro f hf
    rcases List.mem_map.mp hf with ⟨c, hcm, rfl⟩
    exact (hc.plain c hcm).1
  have hchanges : ∀ c ∈ m.batch.changes, c.WellFormedFor (schema c.tbl) ∧ c.colName.isSome :=
    fun c hcm => ⟨(hs.fit m.batch (List.mem_map_of_mem hm) c hcm).1, hc.named c hcm⟩
  have hsound := (Replica.faithful_of_reached hcls hdflt (hs.reached m.batch.reader)).sound
  have hmerged := (s.device !m.batch.reader).mergeRows_row hcls (hw.names m.batch.reader) hsound
    autocommit hchanges 0 SQLITE_OK
  rw [if_neg hc.nonempty] at hmerged
  rcases (Applier.sound autocommit).payloadApply_sent w.lawful (w.opens m.batch.reader) e hplain hrows
    w.hash_lt (w.limit_eq _ ▸ w.limit_lt) (w.limit_eq _ ▸ hlength) hsent (s.cursor m.batch.reader)
    (s.device m.batch.reader) with ⟨result, hresult, hdone⟩
  rw [← hblob, hmerged] at hresult
  rcases hdone (by rw [hmerged]) with ⟨hrc, -, hcursor⟩
  refine ⟨result, hresult, ?_, ?_⟩
  · rw [hrc, List.length_map]
  · cases hlast : m.batch.changes.getLast? with
    | none => exact absurd (List.getLast?_eq_none_iff.mp hlast) hc.nonempty
    | some last =>
      rw [hcursor ((s.device !m.batch.reader).row last) (by rw [List.getLast?_map, hlast]; rfl),
        advance_dbversion hread.1 hread.2, newest_getLast hc.sorted _ hlast]
      rfl

theorem exists_take (hcls : ∀ i, (schema i).algo = .crdtCls)
    (hdflt : ∀ i col, (schema i).dflt col ≠ CLOUDSYNC_RLS_RESTRICTED_VALUE) (hs : s.pullers.Sound)
    (hw : s.Wired w) (autocommit : Bool) {m : Message n} (hm : m ∈ s.wire) :
    ∃ cursor : CheckCursor,
      cursor.dbversion.getD 0 = newest (s.read m.batch.reader) m.batch.changes ∧
        s.step w (.take autocommit m) = some { s with
          device := Function.update s.device m.batch.reader { s.device m.batch.reader with
            replica := (s.device m.batch.reader).replica.deliverEach autocommit m.batch.changes }
          cursor := Function.update s.cursor m.batch.reader cursor } := by
  rcases exists_applied hcls hdflt hs hw autocommit hm with ⟨result, hresult, -, hcursor⟩
  refine ⟨result.cursor, hcursor, ?_⟩
  rw [step, if_pos hm, hresult]
  rfl

theorem exists_blob {D : List FeedRow} (hne : D ≠ []) {rows : List (List Value)}
    (hrows : D.mapM FeedRow.values = some rows) (hfits : Fits w.limit rows) (k : Bool) :
    ∃ blob, cloudsyncPayloadEncode (w.receiver k).m w.lz4 (w.receiver k).e w.limit w.hash rows =
        some (.blob blob) ∧
      ∃ expandedSize data, Sent w.lz4 rows expandedSize data ∧ blob = (cloudsyncNetworkHeaderInit
        (w.receiver k).e expandedSize insertParams rows.length w.hash).store (w.receiver k).e ++ data := by
  have hwidth : ∀ row ∈ rows, row.length = insertParams := by
    intro row hrow
    rcases mem_of_mapM_eq_some hrows row hrow with ⟨f, -, hf⟩
    exact (Applier.padded_values hf).1
  have hrowsNe : rows ≠ [] := by
    rintro rfl
    exact hne (List.length_eq_zero_iff.mp (length_of_mapM hrows).symm)
  rcases cloudsyncPayloadEncode_eq (w.receiver k).m (w.opens k).alloc w.lz4 (w.receiver k).e w.limit
    w.hash insertParams rows hrowsNe (by decide) hwidth hfits.1 w.limit_lt hfits.2 with
    ⟨expandedSize, data, hsent, hencode⟩
  exact ⟨_, hencode, expandedSize, data, hsent, rfl⟩

theorem exists_send {k : Bool} {D : List FeedRow} (he : s.Careful w (.send k D))
    {feed : List FeedRow} (hfeed : (s.device !k).cloudsyncChanges = .ok feed)
    (hD : Selects (s.read k) feed D) {rows : List (List Value)}
    (hrows : D.mapM FeedRow.values = some rows) :
    ∃ blob, s.step w (.send k D) = some { s with
      wire := ⟨⟨k, !k, s.read k, D.filterMap (s.device !k).changeOfRow⟩, blob⟩ :: s.wire } := by
  rcases exists_blob he.1 hrows (he.2.2 rows hrows) !k with ⟨blob, hencode, -⟩
  refine ⟨blob, ?_⟩
  rw [step, hfeed, hrows]
  dsimp only
  rw [hencode]
  exact if_pos hD

theorem carries_of_send {x : Catalog schema} (hx : x.replica.Faithful)
    (hothers : ∀ u ∈ x.others, likeCloudsync u.name = false) {feed D : List FeedRow}
    (hfeed : x.cloudsyncChanges = .ok feed) {lower : ℤ} (hD : Selects lower feed D) (hne : D ≠ [])
    (hplain : ∀ f ∈ D, f.Plain ∧ f.dbVersion < 2 ^ 31) {rows : List (List Value)}
    (hrows : D.mapM FeedRow.values = some rows) (hfits : Fits w.limit rows) {k : Bool}
    {blob : List UInt8}
    (hblob : cloudsyncPayloadEncode (w.receiver !k).m w.lz4 (w.receiver !k).e w.limit w.hash rows =
      some (.blob blob)) :
    Carries w x ⟨⟨k, !k, lower, D.filterMap x.changeOfRow⟩, blob⟩ := by
  rcases x.cloudsyncChanges_row hothers hfeed with ⟨changes, hchanges, rfl⟩
  have hnamed := Catalog.named_of_feed hx hchanges
  rcases rows_of_changes hnamed hD.1 with ⟨hmap, hmem⟩
  rcases exists_blob hne hrows hfits !k with ⟨blob', hencode, expandedSize, data, hsent, rfl⟩
  rw [hblob, Option.some_inj, EncodeResult.blob.injEq] at hencode
  have hchange : ∀ c ∈ D.filterMap x.changeOfRow, x.row c ∈ D := by
    intro c hc
    rw [← hmap]
    exact List.mem_map_of_mem hc
  refine ⟨rfl, ?_, fun c hc => hnamed c (hmem c hc), fun c hc => hplain _ (hchange c hc), ?_,
    ⟨rows, expandedSize, data, (w.receiver !k).e, ?_, ?_, hsent, hencode⟩,
    length_le_of_cloudsyncPayloadEncode hblob⟩
  · rintro (hnil : D.filterMap x.changeOfRow = [])
    rw [hnil] at hmap
    exact hne hmap.symm
  · have hsorted := hD.2.2
    rw [← hmap, List.pairwise_map] at hsorted
    exact hsorted
  · change ((D.filterMap x.changeOfRow).map x.row).mapM FeedRow.values = some rows
    rw [hmap, hrows]
  · have hlimit := hfits.2
    omega

/-! ## Stored cursors are cursors of peers -/

theorem pullers_setReplica (s : Exchange schema) (k : Bool) (r : Replica schema) :
    pullers { s with device := Function.update s.device k { s.device k with replica := r } } =
      { s.pullers with node := Function.update s.pullers.node k r } := by
  rw [pullers, Pullers.mk.injEq]
  refine ⟨?_, rfl, rfl⟩
  funext l
  dsimp only
  rw [Function.update_apply, Function.update_apply]
  split_ifs <;> rfl

theorem Carries.congr {x x' : Catalog schema} {m : Message n} (h : Carries w x m)
    (hnames : x'.tblName = x.tblName) : Carries w x' m := by
  have hrow : x'.row = x.row := by
    funext c
    rw [Catalog.row, Catalog.row, hnames]
  exact ⟨h.writer, h.nonempty, h.named, hrow ▸ h.plain, h.sorted, hrow ▸ h.sent, h.size⟩

theorem Wired.setReplica (hw : s.Wired w) (k : Bool) (r : Replica schema) :
    Wired w { s with device := Function.update s.device k { s.device k with replica := r } } := by
  have hframe : ∀ l, (Function.update s.device k { s.device k with replica := r } l).tblName =
      (s.device l).tblName ∧
        (Function.update s.device k { s.device k with replica := r } l).others = (s.device l).others := by
    intro l
    rw [Function.update_apply]
    split_ifs with hl
    · exact hl ▸ ⟨rfl, rfl⟩
    · exact ⟨rfl, rfl⟩
  refine ⟨fun l i => ?_, fun l => ?_, hw.read, fun m hm => (hw.carries m hm).congr (hframe _).1⟩
  · have hname := hw.names l i
    simp only [Catalog.tableLookup, (hframe _).1] at hname ⊢
    exact hname
  · rw [(hframe l).2]
    exact hw.others l

theorem newest_le_checked (hs : s.pullers.Sound) {k : Bool} {D : List (Change n)}
    (hD : ∀ c ∈ D, c.dbVersion ≤ (s.device !k).replica.checked.dbVersion) :
    newest (s.read k) D ≤ (s.device !k).replica.checked.dbVersion := by
  rcases newest_cases (s.read k) D with hsame | ⟨c, hc, hsame⟩
  · have hpast : Replica.Past (s.pullers.node !k) (s.pullers.cursor k !k) := hs.covered.past k !k
    have hcursor : s.pullers.cursor k (!k) = s.read k := if_pos rfl
    rw [hcursor] at hpast
    exact hsame.trans_le hpast.checked
  · exact hsame.trans_le (hD c hc)

def Simulated (w : Wiring) (s t : Exchange schema) : Prop :=
  t.Wired w ∧ ∃ e, s.pullers.Careful e ∧ s.pullers.step e = some t.pullers

theorem simulated_own (hw : s.Wired w) {k : Bool} {e : Replica.Event schema}
    (he : (s.device k).replica.KeepsCursors e) (h : s.step w (.own k e) = some t) :
    Simulated w s t := by
  rcases Option.map_eq_some_iff.mp h with ⟨r, hr, rfl⟩
  refine ⟨hw.setReplica k r, .own k e, he, ?_⟩
  rw [pullers_setReplica]
  change ((s.device k).replica.step e).map _ = _
  rw [hr]
  rfl

theorem simulated_send (hcls : ∀ i, (schema i).algo = .crdtCls)
    (hdflt : ∀ i col, (schema i).dflt col ≠ CLOUDSYNC_RLS_RESTRICTED_VALUE) (hs : s.pullers.Sound)
    (hw : s.Wired w) {k : Bool} {D : List FeedRow} (he : s.Careful w (.send k D))
    (h : s.step w (.send k D) = some t) : Simulated w s t := by
  rcases he with ⟨hne, hD, hfits⟩
  have hfaithful := Replica.faithful_of_reached hcls hdflt (hs.reached !k)
  have hcursor : s.pullers.cursor k (!k) = s.read k := if_pos rfl
  rw [step] at h
  split at h
  · rename_i feed rows hfeed hrows
    split at h
    · rename_i blob hblob
      rw [Option.ite_none_right_eq_some, Option.some.injEq] at h
      rcases h with ⟨hselects, rfl⟩
      have hcarries := carries_of_send hfaithful (hw.others !k) hfeed hselects hne
        (fun f hf => ⟨(hD f hf).1, (hD f hf).2.1⟩) hrows (hfits rows hrows) hblob
      rcases (s.device !k).cloudsyncChanges_row (hw.others !k) hfeed with ⟨changes, hchanges, rfl⟩
      have hnamed := Catalog.named_of_feed hfaithful hchanges
      rcases rows_of_changes hnamed hselects.1 with ⟨hmap, -⟩
      refine ⟨⟨hw.names, hw.others, hw.read, fun m hm => ?_⟩,
        .answer k (!k) (D.filterMap (s.device !k).changeOfRow), ?_, ?_⟩
      · rcases List.mem_cons.mp hm with rfl | hm
        · exact hcarries
        · exact hw.carries m hm
      · change newest (s.pullers.cursor k !k) _ ≤ _
        rw [hcursor]
        apply newest_le_checked hs
        intro c hc
        have hrow : (s.device !k).row c ∈ D := by
          rw [← hmap]
          exact List.mem_map_of_mem hc
        exact (hD _ hrow).2.2
      · have hnode : (s.pullers.node !k).cloudsyncChanges = .ok changes := hchanges
        rw [Pullers.step, hnode]
        dsimp only
        rw [hcursor, if_pos (answers_of_selects hnamed hselects)]
        rfl
    · cases h
  · cases h

theorem simulated_take (hcls : ∀ i, (schema i).algo = .crdtCls)
    (hdflt : ∀ i col, (schema i).dflt col ≠ CLOUDSYNC_RLS_RESTRICTED_VALUE) (hs : s.pullers.Sound)
    (hw : s.Wired w) {autocommit : Bool} {m : Message n} (he : s.Careful w (.take autocommit m))
    (h : s.step w (.take autocommit m) = some t) : Simulated w s t := by
  have hm : m ∈ s.wire := by
    by_contra hm
    rw [step, if_neg hm] at h
    cases h
  rcases exists_take hcls hdflt hs hw autocommit hm with ⟨cursor, hcursor, hstep⟩
  rw [hstep, Option.some.injEq] at h
  subst h
  have hc := hw.carries m hm
  have hset := hw.setReplica m.batch.reader
    ((s.device m.batch.reader).replica.deliverEach autocommit m.batch.changes)
  have hread : ∀ k, (Function.update s.cursor m.batch.reader cursor k).dbversion.getD 0 =
      if k = m.batch.reader then newest (s.read k) m.batch.changes else s.read k := by
    intro k
    rw [Function.update_apply]
    split_ifs with hk
    · rw [hcursor, hk]
    · rfl
  refine ⟨⟨hset.names, hset.others, fun k => ?_, hset.carries⟩, .take autocommit m.batch, he, ?_⟩
  · rw [read]
    dsimp only
    rw [hread]
    split_ifs
    · rcases newest_cases (s.read k) m.batch.changes with hsame | ⟨c, hcm, hsame⟩
      · rw [hsame]
        exact hw.read k
      · exact ⟨(hw.read k).1.trans (le_newest (s.read k) m.batch.changes),
          hsame ▸ (hc.plain c hcm).2⟩
    · exact hw.read k
  · have hmem : m.batch ∈ s.pullers.batches := List.mem_map_of_mem hm
    have hnode := pullers_setReplica s m.batch.reader
      ((s.device m.batch.reader).replica.deliverEach autocommit m.batch.changes)
    rw [pullers, Pullers.mk.injEq] at hnode
    rw [Pullers.step, if_pos hmem, Option.some_inj]
    conv_rhs => rw [pullers]
    rw [Pullers.mk.injEq]
    refine ⟨hnode.1.symm, ?_, rfl⟩
    funext k l
    rw [read]
    dsimp only
    rw [hread]
    change (if k = m.batch.reader ∧ l = m.batch.writer then
      newest (if l = !k then s.read k else 0) m.batch.changes else if l = !k then s.read k else 0) = _
    rw [hc.writer]
    by_cases hl : l = !k
    · rw [hl, if_pos rfl, if_pos rfl]
      by_cases hk : k = m.batch.reader
      · rw [if_pos ⟨hk, by rw [hk]⟩, if_pos hk]
      · rw [if_neg fun h => hk h.1, if_neg hk]
    · rw [if_neg hl, if_neg hl, if_neg]
      rintro ⟨rfl, rfl⟩
      exact hl rfl

theorem simulated_step (hcls : ∀ i, (schema i).algo = .crdtCls)
    (hdflt : ∀ i col, (schema i).dflt col ≠ CLOUDSYNC_RLS_RESTRICTED_VALUE) (hs : s.pullers.Sound)
    (hw : s.Wired w) {e : Event schema} (he : s.Careful w e) (h : s.step w e = some t) :
    Simulated w s t := by
  cases e with
  | own k e => exact simulated_own hw he h
  | send k D => exact simulated_send hcls hdflt hs hw he h
  | take autocommit m => exact simulated_take hcls hdflt hs hw he h

/-- In a run of the databases the stored cursors are those of a run of peers. -/
theorem pullers_of_reachable (hcls : ∀ i, (schema i).algo = .crdtCls)
    (hdflt : ∀ i col, (schema i).dflt col ≠ CLOUDSYNC_RLS_RESTRICTED_VALUE)
    (h : Reachable (step w) Initial (Careful w) s) :
    s.Wired w ∧ Reachable Pullers.step Pullers.Initial Pullers.Careful s.pullers := by
  apply h.simulates
  · rintro s ⟨hempty, hnames, hothers, hcursor, hwire⟩
    have hread : ∀ k, s.read k = 0 := by
      intro k
      rw [read, hcursor]
      rfl
    refine ⟨⟨hnames, hothers, fun k => ?_, fun m hm => ?_⟩, hempty, ?_, ?_⟩
    · rw [hread]
      exact ⟨le_rfl, by norm_num⟩
    · rw [hwire] at hm
      cases hm
    · funext k l
      rw [pullers]
      dsimp only
      rw [hread, ite_self]
    · rw [pullers, hwire]
      rfl
  · intro s e t hs hw he ht
    exact simulated_step hcls hdflt (Pullers.sound_of_reachable hcls hdflt hs) hw he ht

theorem reachable_own (h : Reachable (step w) Initial (Careful w) s) (k : Bool)
    {e : Replica.Event schema} (he : s.Careful w (.own k e)) {r : Replica schema}
    (hr : (s.device k).replica.step e = some r) :
    Reachable (step w) Initial (Careful w)
      { s with device := Function.update s.device k { s.device k with replica := r } } := by
  apply h.next (.own k e) he
  rw [step, hr]
  rfl

theorem reachable_send (h : Reachable (step w) Initial (Careful w) s) (k : Bool) {D : List FeedRow}
    (he : s.Careful w (.send k D)) {feed : List FeedRow}
    (hfeed : (s.device !k).cloudsyncChanges = .ok feed) (hD : Selects (s.read k) feed D)
    {rows : List (List Value)} (hrows : D.mapM FeedRow.values = some rows) :
    ∃ blob, Reachable (step w) Initial (Careful w) { s with
      wire := ⟨⟨k, !k, s.read k, D.filterMap (s.device !k).changeOfRow⟩, blob⟩ :: s.wire } := by
  rcases exists_send he hfeed hD hrows with ⟨blob, hsend⟩
  exact ⟨blob, h.next _ he hsend⟩

theorem reachable_take (hcls : ∀ i, (schema i).algo = .crdtCls)
    (hdflt : ∀ i col, (schema i).dflt col ≠ CLOUDSYNC_RLS_RESTRICTED_VALUE)
    (h : Reachable (step w) Initial (Careful w) s) (autocommit : Bool) {m : Message n}
    (hm : m ∈ s.wire) (he : s.Careful w (.take autocommit m)) :
    ∃ cursor : CheckCursor,
      cursor.dbversion.getD 0 = newest (s.read m.batch.reader) m.batch.changes ∧
        Reachable (step w) Initial (Careful w) { s with
          device := Function.update s.device m.batch.reader { s.device m.batch.reader with
            replica := (s.device m.batch.reader).replica.deliverEach autocommit m.batch.changes }
          cursor := Function.update s.cursor m.batch.reader cursor } := by
  rcases pullers_of_reachable hcls hdflt h with ⟨hw, hpullers⟩
  rcases exists_take hcls hdflt (Pullers.sound_of_reachable hcls hdflt hpullers) hw autocommit hm with
    ⟨cursor, hcursor, htake⟩
  exact ⟨cursor, hcursor, h.next _ he htake⟩

/-! ## A row that is sent and sent back -/

/-- Two machines like that of the concrete runs. -/
def plainWiring : Wiring where
  receiver _ := plainReceiver
  lz4 := literalLz4
  hash := 0
  limit := 1000000000
  lawful := literalLz4_lawful
  opens _ := plainReceiver_opens
  limit_eq _ := rfl
  limit_lt := by norm_num
  hash_lt := by norm_num

def taskRow : FeedRow := ⟨"tasks", [.integer 1], "v", .integer 10, 1, 1, [1], 1, 0⟩

theorem taskRow_plain : taskRow.Plain :=
  ⟨fun b hb => ne_of_mem_of_not_mem hb (by decide),
    fun b hb => ne_of_mem_of_not_mem hb (by decide), by decide⟩

theorem taskRow_fits : ∀ rows ∈ [taskRow].mapM FeedRow.values, Fits plainWiring.limit rows := by
  intro rows hrows
  cases hrows
  exact ⟨by decide, by decide⟩

/-- What a machine can do that runs the tasks: it starts empty, a database takes a step of
its own, sends, and takes the only message it has been sent. -/
structure RunsTasks (R : Exchange (fun _ : Fin 1 => singleColumn) → Prop) : Prop where
  start : ∀ s, s.Initial → R s
  own : ∀ (s : Exchange fun _ : Fin 1 => singleColumn) (k : Bool) (e) (r), R s →
    s.Careful plainWiring (.own k e) → (s.device k).replica.step e = some r →
      R { s with device := Function.update s.device k { s.device k with replica := r } }
  send : ∀ (s : Exchange fun _ : Fin 1 => singleColumn) (k : Bool) (D feed rows), R s →
    s.Careful plainWiring (.send k D) → (s.device !k).cloudsyncChanges = .ok feed →
      Selects (s.read k) feed D → D.mapM FeedRow.values = some rows →
        ∃ blob, R { s with
          wire := ⟨⟨k, !k, s.read k, D.filterMap (s.device !k).changeOfRow⟩, blob⟩ :: s.wire }
  take : ∀ (s : Exchange fun _ : Fin 1 => singleColumn) (m), R s → m ∈ s.wire →
    (∀ m' ∈ s.wire, m'.batch.reader = m.batch.reader → m' = m) →
      s.cursor m.batch.reader = ⟨none, none⟩ → s.Careful plainWiring (.take true m) →
        ∃ cursor : CheckCursor,
          cursor.dbversion.getD 0 = newest (s.read m.batch.reader) m.batch.changes ∧ R { s with
            device := Function.update s.device m.batch.reader { s.device m.batch.reader with
              replica := (s.device m.batch.reader).replica.deliverEach true m.batch.changes }
            cursor := Function.update s.cursor m.batch.reader cursor }

theorem RunsTasks.exists_told {R : Exchange (fun _ : Fin 1 => singleColumn) → Prop}
    (hR : RunsTasks R) :
    (∃ s m, R s ∧ s.wire = [m] ∧ m.batch.reader = false ∧ s.cursor false = ⟨none, none⟩) ∧
      ∃ s, R s ∧ (∀ k, s.read k = 1) ∧ ∀ k, (s.device k).cloudsyncChanges = .ok [taskRow] := by
  let insert : Replica.Event fun _ : Fin 1 => singleColumn :=
    .write 0 (.insert false [.integer 1] fun _ => .integer 10)
  let r₀ : Replica fun _ : Fin 1 => singleColumn := Replica.empty _ [1]
  let r₁ := (r₀.step insert).get (by decide)
  let r₂ := (r₁.step .commit).get (by decide)
  let blank : Replica fun _ : Fin 1 => singleColumn := Replica.empty _ [2]
  let told : Replica fun _ : Fin 1 => singleColumn :=
    blank.deliverEach true ([taskRow].filterMap (Catalog.ofTasks r₂).changeOfRow)
  let back : Replica fun _ : Fin 1 => singleColumn :=
    r₂.deliverEach true ([taskRow].filterMap (Catalog.ofTasks told).changeOfRow)
  have hback : (Catalog.ofTasks back).cloudsyncChanges = .ok [taskRow] := ok_of_toOption (by decide)
  have hsent : ∀ v, 1 ≤ v → [taskRow] ≠ [] ∧ (∀ f ∈ [taskRow], f.Plain ∧ f.dbVersion < 2 ^ 31 ∧
      f.dbVersion ≤ v) ∧ ∀ rows ∈ [taskRow].mapM FeedRow.values, Fits plainWiring.limit rows := by
    refine fun v hv => ⟨List.cons_ne_nil _ _, fun f hf => ?_, taskRow_fits⟩
    rw [List.mem_singleton.mp hf]
    exact ⟨taskRow_plain, by decide, hv⟩
  have h₀ : R ⟨fun k => Catalog.ofTasks (if k then r₀ else blank), fun _ => ⟨none, none⟩, []⟩ := by
    refine hR.start _ ⟨fun k => ?_, by decide, fun k u hu => absurd hu List.not_mem_nil, rfl, rfl⟩
    cases k
    · exact ⟨[2], rfl⟩
    · exact ⟨[1], rfl⟩
  have hstep₁ : r₀.step insert = some r₁ := rfl
  have hstep₂ : r₁.step .commit = some r₂ := rfl
  have h₁ := hR.own _ true _ _ h₀ (by decide : r₀.KeepsCursors insert) hstep₁
  have h₂ := hR.own _ true _ _ h₁ (by decide : r₁.KeepsCursors .commit) hstep₂
  have hwritten : (Catalog.ofTasks r₂).cloudsyncChanges = .ok [taskRow] := ok_of_toOption (by decide)
  have htold : (Catalog.ofTasks told).cloudsyncChanges = .ok [taskRow] := ok_of_toOption (by decide)
  rcases hR.send _ false _ _ _ h₂ (hsent _ (by decide : (1 : ℤ) ≤ r₂.checked.dbVersion)) hwritten
    (by decide : Selects 0 [taskRow] [taskRow]) rfl with ⟨blob, h₃⟩
  rcases hR.take _ _ h₃ (.head []) (fun m hm _ => List.mem_singleton.mp hm) rfl
    (by decide : Replica.HasRoom true blank ([taskRow].filterMap (Catalog.ofTasks r₂).changeOfRow))
    with ⟨cursor, hcursor, h₄⟩
  rcases hR.send _ true _ _ _ h₄ (hsent _ (by decide : (1 : ℤ) ≤ told.checked.dbVersion)) htold
    (by decide : Selects 0 [taskRow] [taskRow]) rfl with ⟨blob', h₅⟩
  have hlast : ∀ (m₁ m₂ m : Message 1), m₂.batch.reader = false → m ∈ [m₁, m₂] →
      m.batch.reader = true → m = m₁ := by
    intro m₁ m₂ m hm₂ hm hreader
    rcases List.mem_pair.mp hm with rfl | rfl
    · rfl
    · exact absurd (hreader.symm.trans hm₂) (by decide)
  rcases hR.take _ _ h₅ (.head _) (fun m => hlast _ _ m rfl) rfl
    (by decide : Replica.HasRoom true r₂ ([taskRow].filterMap (Catalog.ofTasks told).changeOfRow))
    with ⟨cursor', hcursor', h₆⟩
  refine ⟨⟨_, _, h₃, rfl, rfl, rfl⟩, _, h₆, fun k => ?_, fun k => ?_⟩
  · cases k
    · exact hcursor.trans (by decide :
        newest 0 ([taskRow].filterMap (Catalog.ofTasks r₂).changeOfRow) = 1)
    · exact hcursor'.trans (by decide :
        newest 0 ([taskRow].filterMap (Catalog.ofTasks told).changeOfRow) = 1)
  · cases k
    · exact htold
    · exact hback

theorem singleColumn_dflt (i : Fin 1) (col : Fin ((fun _ : Fin 1 => singleColumn) i).ncols) :
    ((fun _ : Fin 1 => singleColumn) i).dflt col ≠ CLOUDSYNC_RLS_RESTRICTED_VALUE :=
  (by decide : Value.null ≠ CLOUDSYNC_RLS_RESTRICTED_VALUE)

theorem runsTasks : RunsTasks (Reachable (step plainWiring) Initial (Careful plainWiring)) where
  start _ h := .start h
  own _ k _ _ h he hr := reachable_own h k he hr
  send _ k _ _ _ h he hfeed hD hrows := reachable_send h k he hfeed hD hrows
  take _ _ h hm _ _ he := reachable_take (fun _ => rfl) singleColumn_dflt h true hm he

/-! ## Where the stored cursors stand -/

/-- At every moment of every run a row of one database's feed, up to the db version the
other one has stored, changes nothing when it is inserted there. -/
theorem insert_below_stored (hcls : ∀ i, (schema i).algo = .crdtCls)
    (hdflt : ∀ i col, (schema i).dflt col ≠ CLOUDSYNC_RLS_RESTRICTED_VALUE)
    (h : Reachable (step w) Initial (Careful w) s) (k : Bool) {feed : List FeedRow}
    (hfeed : (s.device !k).cloudsyncChanges = .ok feed) {f : FeedRow} (hf : f ∈ feed)
    (hle : f.dbVersion ≤ s.read k) (hplain : f.Plain) {argv : List Value}
    (hargv : f.values = some argv) (rowid : Value) :
    (s.device k).cloudsyncChangesvtabUpdate noFaults (.null :: rowid :: argv) =
        some (.ok (), s.device k) ∧
      ∀ faults, ((s.device k).cloudsyncChangesvtabUpdate faults (.null :: rowid :: argv)).map
        Prod.snd = some (s.device k) := by
  rcases pullers_of_reachable hcls hdflt h with ⟨hw, hpullers⟩
  have hs := Pullers.sound_of_reachable hcls hdflt hpullers
  rcases (s.device !k).cloudsyncChanges_row (hw.others !k) hfeed with ⟨changes, hchanges, rfl⟩
  rcases List.mem_map.mp hf with ⟨c, hc, rfl⟩
  have hsome := Catalog.named_of_feed (Replica.faithful_of_reached hcls hdflt (hs.reached !k)) hchanges
    c hc
  have hcursor : s.pullers.cursor k (!k) = s.read k := if_pos rfl
  have hignores : Store.cloudsyncMergeInsert noFaults (s.device k).replica c =
      (.ok (), (s.device k).replica) ∧
        ∀ faults, (Store.cloudsyncMergeInsert faults (s.device k).replica c).2 = (s.device k).replica :=
    hs.ignores hcls hdflt k hchanges hc (hcursor ▸ hle)
  have hupdate := Catalog.cloudsyncChangesvtabUpdate_row hplain hargv (hw.names k c.tbl) hsome
  refine ⟨?_, fun faults => ?_⟩
  · rw [hupdate noFaults rowid, hignores.1]
  · rw [hupdate faults rowid, hignores.2 faults]
    rfl

/-- The task, inserted by the database that was sent it. -/
theorem insert_below_stored_told : ∃ (s : Exchange fun _ : Fin 1 => singleColumn) (argv : List Value),
    s.read false = 1 ∧ taskRow.values = some argv ∧
      (s.device false).cloudsyncChangesvtabUpdate noFaults (.null :: .null :: argv) =
        some (.ok (), s.device false) := by
  rcases runsTasks.exists_told with ⟨-, s, hs, hread, hfeed⟩
  have hle : taskRow.dbVersion ≤ s.read false := by
    rw [hread]
    decide
  exact ⟨s, _, hread false, rfl, (insert_below_stored (fun _ => rfl) singleColumn_dflt
    hs false (hfeed true) (.head []) hle taskRow_plain rfl .null).1⟩

theorem agree_of_read (hcls : ∀ i, (schema i).algo = .crdtCls)
    (hdflt : ∀ i col, (schema i).dflt col ≠ CLOUDSYNC_RLS_RESTRICTED_VALUE) (hs : s.pullers.Sound)
    (hw : s.Wired w) {feed : Bool → List FeedRow}
    (hfeed : ∀ k, (s.device k).cloudsyncChanges = .ok (feed k))
    (hread : ∀ k, ∀ f ∈ feed k, f.dbVersion ≤ s.read !k) :
    (s.device false).replica.Agree (s.device true).replica := by
  have hchanges : ∀ k, ∃ changes, (s.pullers.node k).cloudsyncChanges = .ok changes ∧
      ∀ c ∈ changes, c.dbVersion ≤ s.read !k := by
    intro k
    rcases (s.device k).cloudsyncChanges_row (hw.others k) (hfeed k) with ⟨changes, hok, hmap⟩
    refine ⟨changes, hok, fun c hc => hread k ((s.device k).row c) ?_⟩
    rw [hmap]
    exact List.mem_map_of_mem hc
  rcases hchanges false with ⟨changes, hok, hle⟩
  rcases hchanges true with ⟨changes', hok', hle'⟩
  exact hs.agree hcls hdflt hok hok' hle hle'

end Exchange
end
end SqliteSync.Store
