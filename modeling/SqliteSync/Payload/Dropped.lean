import SqliteSync.Payload.Growth
import SqliteSync.Payload.RoundTrip

/-!
# Rows lost on the way into a payload

A step that gets no memory frees the aggregate and returns; the next one starts
a payload of its own, and the final function reports what is left of the rows
as if it were all of them.
-/
namespace SqliteSync.Payload
open Codec Library

def SQLITE_MAX_ALLOCATION_SIZE : ℕ := 2147483391

/-- SQLite's allocator grants no more. -/
def Allocator.Limited (m : Allocator) : Prop := ∀ n, m.ok n = true → n ≤ SQLITE_MAX_ALLOCATION_SIZE

/-- The aggregate over rows each of which meets the allocator in another mood. -/
def encodeRun (steps : List (Allocator × List Value)) (m : Allocator) (lz4 : Lz4) (e : Endian)
    (limit schemaHash : ℕ) : Option EncodeResult := do
  let payload ← steps.foldlM encodeStep NetworkPayload.zero
  cloudsyncPayloadEncodeFinal m lz4 e limit schemaHash payload

/-- A receiver opens `bytes` as the rows, all of them and in this order. -/
def Delivers (r : Receiver) (rows : List (List Value)) (bytes : List UInt8) : Prop :=
  ∃ header, openPayload r bytes = .ok (header, encodedRows rows) ∧ header.nrows = rows.length ∧
    ∀ row ∈ rows, row.length = header.ncols

/-- The aggregate reports an error, or its result has every row. NULL is the
result for no rows. -/
inductive DropsNothing (r : Receiver) (rows : List (List Value)) : Option EncodeResult → Prop
  | null (h : rows = []) : DropsNothing r rows (some .null)
  | nomem : DropsNothing r rows (some .nomem)
  | toobig : DropsNothing r rows (some .toobig)
  | blob {bytes : List UInt8} (h : Delivers r rows bytes) : DropsNothing r rows (some (.blob bytes))

/-- A row that starts a payload leaves room for the header in the first allocation. -/
def StartFits (payload : NetworkPayload) (row : List Value) : Prop :=
  payload.nrows = 0 → headerSize + pkEncodeSize row 0 ≤ CLOUDSYNC_PAYLOAD_MINBUF_SIZE

/-- Every step of a run has a row to write, gets the memory it asks for and
leaves room for the header. -/
def AllGranted : NetworkPayload → List (Allocator × List Value) → Prop
  | _, [] => True
  | payload, step :: steps =>
    step.2 ≠ [] ∧ ¬ Refused step.1 payload (pkEncodeSize step.2 0) ∧ StartFits payload step.2 ∧
      ∀ next, encodeStep payload step = some next → AllGranted next steps

/-- What is sent of the rows' bytes: the announced expanded size and the data. -/
def packed (lz4 : Lz4) (src : List UInt8) : ℕ × List UInt8 :=
  let zbuffer := lz4.compress src (lz4CompressBound src.length)
  if zbuffer.length = 0 ∨ src.length < zbuffer.length then (0, src) else (src.length, zbuffer)

/-- The final function gets no memory, or SQLite takes no blob of this size. -/
def FinalFails (m : Allocator) (lz4 : Lz4) (limit : ℕ) (payload : NetworkPayload) : Prop :=
  m.ok (lz4CompressBound (toInt32 ((payload.bused : ℤ) - headerSize)) + headerSize) = false ∨
    headerSize ≤ payload.bused ∧ limit < headerSize + (packed lz4
      ((payload.buffer.drop headerSize).take (payload.bused - headerSize))).2.length

/-! ## One step -/

/-- The aggregate holds the rows `kept` of `argc` values each, within the memory
SQLite grants. -/
structure Buffers (payload : NetworkPayload) (argc : ℕ) (kept : List (List Value)) : Prop where
  zero : kept = [] → payload = NetworkPayload.zero
  filled : kept ≠ [] → Filled payload argc kept
  small : payload.balloc < 2 ^ 31

theorem buffers_zero (argc : ℕ) : Buffers NetworkPayload.zero argc [] :=
  ⟨fun _ => rfl, fun h => absurd rfl h, by decide⟩

theorem Buffers.nrows {payload : NetworkPayload} {argc : ℕ} {kept : List (List Value)}
    (h : Buffers payload argc kept) : payload.nrows = 0 ↔ kept = [] := by
  by_cases hkept : kept = []
  · rw [h.zero hkept]
    exact ⟨fun _ => hkept, fun _ => rfl⟩
  · rw [(h.filled hkept).nrows, List.length_eq_zero_iff]

theorem Buffers.check {payload : NetworkPayload} {argc : ℕ} {kept : List (List Value)}
    (h : Buffers payload argc kept) {m : Allocator} (hm : m.Limited) {row : List Value}
    (hne : row ≠ []) (hwidth : row.length = argc) (hargc : argc < 2 ^ 16)
    (hgranted : ¬ Refused m payload (pkEncodeSize row 0)) :
    ∃ q, cloudsyncBufferCheck m (payload.entered row) (pkEncodeSize row 0) = (true, q) ∧
      Filled q argc kept ∧ q.balloc < 2 ^ 31 ∧
      (q.bused + pkEncodeSize row 0 ≤ q.balloc ↔ StartFits payload row) := by
  have hpos := pkEncodeSize_pos hne
  have hheader : 0 < headerSize := by decide
  rw [← refused_entered m payload row] at hgranted
  by_cases hkept : kept = []
  · have hzero := h.zero hkept
    subst hkept
    subst hzero
    have hentered : NetworkPayload.zero.entered row = ⟨[], 0, 0, argc⟩ := by
      rw [NetworkPayload.entered, if_pos (show NetworkPayload.zero.nrows = 0 from rfl), hwidth,
        Nat.mod_eq_of_lt hargc]
      rfl
    rw [hentered] at hgranted ⊢
    rcases cloudsyncBufferCheck_cases m ⟨[], 0, 0, argc⟩ (pkEncodeSize row 0) with
      ⟨hgrow, hok, -⟩ | ⟨-, hok, hcheck⟩ | ⟨hle, -⟩
    · exact absurd ⟨hgrow, hok⟩ hgranted
    · have hsize := hm _ hok
      refine ⟨_, hcheck, filled_nil rfl rfl ?_, ?_, ?_⟩
      · simp only [NetworkPayload.balloc, List.nil_append, List.length_map, List.length_range]
        exact le_trans (by decide : headerSize ≤ CLOUDSYNC_PAYLOAD_MINBUF_SIZE) (le_max_right _ _)
      · simp only [NetworkPayload.balloc, List.nil_append, List.length_map, List.length_range,
          List.length_nil, Nat.zero_add, SQLITE_MAX_ALLOCATION_SIZE] at hsize ⊢
        omega
      · simp only [NetworkPayload.balloc, List.nil_append, List.length_map, List.length_range,
          if_true, StartFits, NetworkPayload.zero, true_imp_iff]
        omega
    · simp only [NetworkPayload.balloc, List.length_nil] at hle
      omega
  · have hrows : payload.nrows ≠ 0 := h.nrows.not.mpr hkept
    have hfilled := h.filled hkept
    have hentered : payload.entered row = payload := if_neg hrows
    have hstart : StartFits payload row := fun hnone => absurd hnone hrows
    rw [hentered] at hgranted ⊢
    rcases cloudsyncBufferCheck_cases m payload (pkEncodeSize row 0) with
      ⟨hgrow, hok, -⟩ | ⟨-, hok, hcheck⟩ | ⟨hle, hcheck⟩
    · exact absurd ⟨hgrow, hok⟩ hgranted
    · have hsize := hm _ hok
      have hfits := hfilled.fits
      rw [if_neg hrows] at hcheck
      refine ⟨_, hcheck, hfilled.append _, ?_, ?_⟩
      · simp only [NetworkPayload.balloc, List.length_append, List.length_map, List.length_range,
          SQLITE_MAX_ALLOCATION_SIZE] at hsize ⊢
        omega
      · refine iff_of_true ?_ hstart
        simp only [NetworkPayload.balloc, List.length_append, List.length_map, List.length_range]
          at hfits ⊢
        omega
    · exact ⟨payload, hcheck, hfilled, h.small, iff_of_true hle hstart⟩

/-- A step loses all rows, keeps them and adds its own, or writes outside the buffer. -/
theorem Buffers.encodeStep_cases {payload : NetworkPayload} {argc : ℕ} {kept : List (List Value)}
    (h : Buffers payload argc kept) {step : Allocator × List Value} (hm : step.1.Limited)
    (hne : step.2 ≠ []) (hwidth : step.2.length = argc) (hargc : argc < 2 ^ 16) :
    Refused step.1 payload (pkEncodeSize step.2 0) ∧
        encodeStep payload step = some NetworkPayload.zero ∨
      ¬ Refused step.1 payload (pkEncodeSize step.2 0) ∧
        (StartFits payload step.2 ∧ (∃ next, encodeStep payload step = some next ∧
            Buffers next argc (kept ++ [step.2])) ∨
          ¬ StartFits payload step.2 ∧ encodeStep payload step = none) := by
  by_cases hrefused : Refused step.1 payload (pkEncodeSize step.2 0)
  · exact .inl ⟨hrefused, encodeStep_of_refused hrefused⟩
  · right
    refine ⟨hrefused, ?_⟩
    rcases h.check hm hne hwidth hargc hrefused with ⟨q, hcheck, hfilled, hsmall, hroom⟩
    rcases encodeStep_of_granted hrefused with ⟨q', hcheck', hstep⟩
    rw [hcheck, Prod.mk.injEq] at hcheck'
    rcases hcheck' with ⟨-, rfl⟩
    rw [pkEncodeSize_zero] at hstep hroom
    by_cases hstart : StartFits payload step.2
    · left
      have hle := hroom.mpr hstart
      rcases hfilled.write step.2 hle with ⟨b, hwrite, hb⟩
      rcases writeAt_of_le hle with ⟨b', hwrite', hlength, -⟩
      rw [hwrite, Option.some.injEq] at hwrite'
      subst hwrite'
      rw [hwrite] at hstep
      refine ⟨hstart, _, hstep, fun hnil => absurd hnil (by simp), fun _ => hb, ?_⟩
      rw [NetworkPayload.balloc, hlength]
      exact hsmall
    · right
      have hoverflow := hroom.not.mpr hstart
      rw [NetworkPayload.balloc] at hoverflow
      refine ⟨hstart, ?_⟩
      rw [hstep, writeAt, if_neg hoverflow]
      rfl

/-! ## A run of steps -/

/-- The rows that are left of a run are its last ones, and they are all of them when
no step was refused. -/
theorem Buffers.run {argc : ℕ} (hargc : argc < 2 ^ 16) {steps : List (Allocator × List Value)}
    (hsteps : ∀ step ∈ steps, step.1.Limited ∧ step.2 ≠ [] ∧ step.2.length = argc)
    {payload next : NetworkPayload} {done : List (List Value)} (h : Buffers payload argc done)
    (hrun : steps.foldlM encodeStep payload = some next) :
    ∃ kept, kept <:+ done ++ steps.map Prod.snd ∧ Buffers next argc kept ∧
      (AllGranted payload steps ↔ kept = done ++ steps.map Prod.snd) := by
  induction steps generalizing payload done with
  | nil =>
    cases hrun
    exact ⟨done, by simp, h, by simp [AllGranted]⟩
  | cons step steps ih =>
    have hrest : ∀ s ∈ steps, s.1.Limited ∧ s.2 ≠ [] ∧ s.2.length = argc :=
      fun s hs => hsteps s (List.mem_cons_of_mem _ hs)
    rcases hsteps step List.mem_cons_self with ⟨hm, hne, hwidth⟩
    rw [List.foldlM_cons] at hrun
    rcases h.encodeStep_cases hm hne hwidth hargc with
      ⟨hrefused, hstep⟩ | ⟨hgranted, ⟨hstart, next', hstep, hb⟩ | ⟨-, hstep⟩⟩
    · rw [hstep] at hrun
      rcases ih hrest (buffers_zero argc) hrun with ⟨kept, hsuffix, hkept, -⟩
      refine ⟨kept, ?_, hkept, ?_⟩
      · rw [List.nil_append] at hsuffix
        rw [List.map_cons, List.append_cons]
        exact hsuffix.trans (List.suffix_append _ _)
      · have hlength := hsuffix.length_le
        constructor
        · intro hall
          exact absurd hrefused hall.2.1
        · rintro rfl
          simp only [List.length_append, List.map_cons, List.length_cons, List.nil_append,
            List.length_map] at hlength
          omega
    · rw [hstep] at hrun
      rcases ih hrest hb hrun with ⟨kept, hsuffix, hkept, hall⟩
      rw [List.append_assoc, List.singleton_append] at hsuffix hall
      refine ⟨kept, hsuffix, hkept, ?_⟩
      rw [List.map_cons, ← hall, AllGranted]
      constructor
      · rintro ⟨-, -, -, hafter⟩
        exact hafter next' hstep
      · intro hafter
        refine ⟨hne, hgranted, hstart, fun t ht => ?_⟩
        rw [hstep, Option.some.injEq] at ht
        exact ht ▸ hafter
    · rw [hstep] at hrun
      cases hrun

/-- A run in which no step is refused comes to its end. -/
theorem AllGranted.run {argc : ℕ} (hargc : argc < 2 ^ 16) {steps : List (Allocator × List Value)}
    (hsteps : ∀ step ∈ steps, step.1.Limited ∧ step.2.length = argc) {payload : NetworkPayload}
    {done : List (List Value)} (h : Buffers payload argc done) (hall : AllGranted payload steps) :
    ∃ next, steps.foldlM encodeStep payload = some next := by
  induction steps generalizing payload done with
  | nil => exact ⟨payload, rfl⟩
  | cons step steps ih =>
    rcases hall with ⟨hne, hgranted, hstart, hrest⟩
    rcases hsteps step List.mem_cons_self with ⟨hm, hwidth⟩
    rcases h.encodeStep_cases hm hne hwidth hargc with
      ⟨hrefused, -⟩ | ⟨-, ⟨-, next, hstep, hb⟩ | ⟨hoverflow, -⟩⟩
    · exact absurd hrefused hgranted
    · rcases ih (fun s hs => hsteps s (List.mem_cons_of_mem _ hs)) hb (hrest next hstep) with
        ⟨last, hlast⟩
      refine ⟨last, ?_⟩
      rw [List.foldlM_cons, hstep]
      exact hlast
    · exact absurd hstart hoverflow

/-! ## The result -/

theorem Filled.stored {payload : NetworkPayload} {ncols : ℕ} {rows : List (List Value)}
    (h : Filled payload ncols rows) :
    (payload.buffer.drop headerSize).take (payload.bused - headerSize) = encodedRows rows := by
  rw [h.bused, Nat.add_sub_cancel_left]
  exact h.rows

theorem cloudsyncPayloadEncodeFinal_filled {payload : NetworkPayload} {ncols : ℕ}
    {rows : List (List Value)} (h : Filled payload ncols rows) (hrows : rows ≠ [])
    (hsmall : payload.balloc < 2 ^ 31) (m : Allocator) (lz4 : Lz4) (e : Endian)
    (limit schemaHash : ℕ) :
    cloudsyncPayloadEncodeFinal m lz4 e limit schemaHash payload =
      if m.ok (lz4CompressBound (toInt32 ((payload.bused : ℤ) - headerSize)) + headerSize) = false
      then some .nomem
      else some (resultBlob limit ((cloudsyncNetworkHeaderInit e (packed lz4 (encodedRows rows)).1
        ncols (rows.length % 2 ^ 32) schemaHash).store e ++ (packed lz4 (encodedRows rows)).2)) := by
  have hfits := h.fits
  rw [h.bused] at hfits
  have hreal : toInt32 ((payload.bused : ℤ) - headerSize) = (encodedRows rows).length := by
    rw [h.bused, Nat.cast_add, add_sub_cancel_left]
    exact toInt32_of_lt (by omega) (by omega)
  have hzero : ¬ payload.nrows = 0 := by
    rw [h.nrows]
    exact List.length_eq_zero_iff.not.mpr hrows
  have hinside : ¬ (((encodedRows rows).length : ℤ) < 0 ∨
      payload.balloc < headerSize + (encodedRows rows).length) := by omega
  rw [cloudsyncPayloadEncodeFinal, if_neg hzero]
  simp only [hreal, Bool.not_eq_true, Int.toNat_natCast, hinside, if_false, h.rows, h.nrows, h.ncols]
  split_ifs with hok hraw
  · rfl
  · have hpacked : packed lz4 (encodedRows rows) = (0, encodedRows rows) :=
      if_pos (hraw.imp_right Nat.cast_lt.mp)
    rw [hpacked]
  · have hpacked : packed lz4 (encodedRows rows) = ((encodedRows rows).length,
        lz4.compress (encodedRows rows) (lz4CompressBound (encodedRows rows).length)) :=
      if_neg fun h => hraw (h.imp_right Nat.cast_lt.mpr)
    rw [hpacked]

theorem packed_sent (lz4 : Lz4) {rows : List (List Value)}
    (hsmall : (encodedRows rows).length < 2 ^ 31) :
    Sent lz4 rows (packed lz4 (encodedRows rows)).1 (packed lz4 (encodedRows rows)).2 := by
  rw [packed]
  split_ifs with hraw
  · exact ⟨by norm_num, fun _ => rfl, fun h => absurd rfl h⟩
  · rw [not_or] at hraw
    have hne : lz4.compress (encodedRows rows) (lz4CompressBound (encodedRows rows).length) ≠ [] :=
      List.length_eq_zero_iff.not.mp hraw.1
    have hpos := Nat.pos_of_ne_zero hraw.1
    exact ⟨hsmall, fun h => by omega, fun _ => ⟨hne, rfl, _, rfl⟩⟩

/-- The final function reports an error, or sends what the aggregate holds. -/
theorem Buffers.final {payload : NetworkPayload} {argc : ℕ} {kept : List (List Value)}
    (h : Buffers payload argc kept) (hkept : kept ≠ []) (hpos : 0 < argc)
    (hwidth : ∀ row ∈ kept, row.length = argc) (m : Allocator) (lz4 : Lz4) (e : Endian)
    (limit schemaHash : ℕ) :
    FinalFails m lz4 limit payload ∧
        (cloudsyncPayloadEncodeFinal m lz4 e limit schemaHash payload = some .nomem ∨
          cloudsyncPayloadEncodeFinal m lz4 e limit schemaHash payload = some .toobig) ∨
      ¬ FinalFails m lz4 limit payload ∧ ∃ expandedSize data, Sent lz4 kept expandedSize data ∧
        cloudsyncPayloadEncodeFinal m lz4 e limit schemaHash payload = some (.blob
          ((cloudsyncNetworkHeaderInit e expandedSize argc kept.length schemaHash).store e ++
            data)) := by
  have hfilled := h.filled hkept
  have hsmall := h.small
  have hfits := hfilled.fits
  rw [hfilled.bused] at hfits
  have hlen := length_le_encodedRows hpos kept hwidth
  have hmod : kept.length % 2 ^ 32 = kept.length := Nat.mod_eq_of_lt (by omega)
  have hheader : headerSize ≤ payload.bused := by
    rw [hfilled.bused]
    exact Nat.le_add_right _ _
  rw [cloudsyncPayloadEncodeFinal_filled hfilled hkept hsmall, FinalFails, hfilled.stored, hmod]
  by_cases hok : m.ok (lz4CompressBound (toInt32 ((payload.bused : ℤ) - headerSize)) + headerSize) =
      false
  · rw [if_pos hok]
    exact .inl ⟨.inl hok, .inl rfl⟩
  · rw [if_neg hok, resultBlob, List.length_append, store_length_header]
    by_cases hbig : limit < headerSize + (packed lz4 (encodedRows kept)).2.length
    · rw [if_pos hbig]
      exact .inl ⟨.inr ⟨hheader, hbig⟩, .inr rfl⟩
    · rw [if_neg hbig]
      exact .inr ⟨by simp [hok, hbig], _, _, packed_sent lz4 (by omega), rfl⟩

theorem Delivers.encodedRows_eq {r : Receiver} {rows rows' : List (List Value)} {bytes : List UInt8}
    {header : NetworkHeader} (h : Delivers r rows bytes)
    (h' : openPayload r bytes = .ok (header, encodedRows rows')) :
    encodedRows rows = encodedRows rows' := by
  rcases h with ⟨header', hopen, -⟩
  rw [hopen, Except.ok.injEq, Prod.mk.injEq] at h'
  exact h'.2

/-- Rows of at least one value each are not the bytes of fewer of them. -/
theorem eq_of_suffix_of_encodedRows {kept rows : List (List Value)} (h : kept <:+ rows)
    (hne : ∀ row ∈ rows, row ≠ []) (heq : encodedRows rows = encodedRows kept) : kept = rows := by
  rcases h with ⟨lost, rfl⟩
  have happend : encodedRows (lost ++ kept) = encodedRows lost ++ encodedRows kept :=
    List.flatMap_append
  rw [happend, List.append_left_eq_self] at heq
  cases lost with
  | nil => rfl
  | cons row lost =>
    rw [encodedRows, List.flatMap_cons, List.append_eq_nil_iff] at heq
    have hpos := pkEncodeSize_pos (hne row (by simp))
    rw [pkEncodeSize_zero, heq.1] at hpos
    exact absurd hpos (lt_irrefl _)

theorem foldlM_encodeStep_nil {steps : List (Allocator × List Value)}
    (hwidth : ∀ step ∈ steps, step.2 = []) (k : ℕ) :
    steps.foldlM encodeStep ⟨[], 0, k, 0⟩ = some ⟨[], 0, k + steps.length, 0⟩ := by
  induction steps generalizing k with
  | nil => rfl
  | cons step steps ih =>
    have hrow : step.2 = [] := hwidth step List.mem_cons_self
    have hsize : pkEncodeSize step.2 0 = 0 := by
      rw [hrow]
      rfl
    have hentered : NetworkPayload.entered ⟨[], 0, k, 0⟩ step.2 = ⟨[], 0, k, 0⟩ := by
      rw [hrow, NetworkPayload.entered]
      split_ifs <;> rfl
    have hgranted : ¬ Refused step.1 ⟨[], 0, k, 0⟩ (pkEncodeSize step.2 0) := by
      rw [hsize]
      exact fun h => absurd h.1 (lt_irrefl _)
    rcases encodeStep_of_granted hgranted with ⟨q, hcheck, hstep⟩
    rw [hentered, hsize, cloudsyncBufferCheck_fits _ (by simp [NetworkPayload.balloc]),
      Prod.mk.injEq] at hcheck
    rcases hcheck with ⟨-, rfl⟩
    rw [hsize, hrow] at hstep
    rw [List.foldlM_cons, hstep, List.length_cons, Nat.add_comm steps.length 1, ← Nat.add_assoc]
    exact ih (fun s hs => hwidth s (List.mem_cons_of_mem _ hs)) (k + 1)

theorem dropsNothing_null_iff {r : Receiver} {rows : List (List Value)} :
    DropsNothing r rows (some .null) ↔ rows = [] := by
  constructor
  · intro h
    cases h
    assumption
  · exact .null

theorem dropsNothing_blob_iff {r : Receiver} {rows : List (List Value)} {bytes : List UInt8} :
    DropsNothing r rows (some (.blob bytes)) ↔ Delivers r rows bytes := by
  constructor
  · intro h
    cases h
    assumption
  · exact .blob

theorem not_dropsNothing_none {r : Receiver} {rows : List (List Value)} :
    ¬ DropsNothing r rows none := by
  intro h
  cases h

theorem dropsNothing_nil_iff {steps : List (Allocator × List Value)}
    (hwidth : ∀ step ∈ steps, step.2 = []) (m : Allocator) (lz4 : Lz4) (e : Endian)
    (limit schemaHash : ℕ) (r : Receiver) :
    DropsNothing r (steps.map Prod.snd) (encodeRun steps m lz4 e limit schemaHash) ↔
      AllGranted NetworkPayload.zero steps ∨ ∃ payload,
        steps.foldlM encodeStep NetworkPayload.zero = some payload ∧ payload.nrows ≠ 0 ∧
          FinalFails m lz4 limit payload := by
  have hrun : steps.foldlM encodeStep NetworkPayload.zero = some ⟨[], 0, 0 + steps.length, 0⟩ :=
    foldlM_encodeStep_nil hwidth 0
  rw [Nat.zero_add] at hrun
  rw [encodeRun, hrun]
  cases steps with
  | nil => exact iff_of_true (.null rfl) (.inl trivial)
  | cons step steps =>
    have hnotall : ¬ AllGranted NetworkPayload.zero (step :: steps) :=
      fun h => h.1 (hwidth step List.mem_cons_self)
    have hreal : toInt32 (((0 : ℕ) : ℤ) - (headerSize : ℕ)) = -32 := by decide
    have hbound : lz4CompressBound (-32) = 0 := by decide
    have hheader : ¬ headerSize ≤ 0 := by decide
    simp only [Option.bind_eq_bind, Option.bind_some, cloudsyncPayloadEncodeFinal, hreal, hbound,
      hnotall, false_or, Option.some.injEq, exists_eq_left', FinalFails, hheader, false_and, or_false,
      List.length_cons, Nat.add_one_ne_zero, if_false, ne_eq, not_false_eq_true, true_and]
    cases hok : m.ok (0 + headerSize) with
    | false => simp [DropsNothing.nomem]
    | true => simp [not_dropsNothing_none]

/-- Rows with values all arrive, or the final function reports what it could not do. -/
theorem dropsNothing_cons_iff {steps : List (Allocator × List Value)} {argc : ℕ} (hpos : 0 < argc)
    (hargc : argc < 2 ^ 16) (hwidth : ∀ step ∈ steps, step.2.length = argc)
    (hm : ∀ step ∈ steps, step.1.Limited) (m : Allocator) {lz4 : Lz4} (hlz : lz4.Lawful)
    (e : Endian) (limit : ℕ) {hash : ℕ} (hhash : hash < 2 ^ 64) {r : Receiver}
    (hr : r.Opens lz4 hash) :
    DropsNothing r (steps.map Prod.snd) (encodeRun steps m lz4 e limit hash) ↔
      AllGranted NetworkPayload.zero steps ∨ ∃ payload,
        steps.foldlM encodeStep NetworkPayload.zero = some payload ∧ payload.nrows ≠ 0 ∧
          FinalFails m lz4 limit payload := by
  have hne : ∀ step ∈ steps, step.2 ≠ [] := by
    intro step hstep hnil
    have := hwidth step hstep
    rw [hnil, List.length_nil] at this
    omega
  cases hrun : steps.foldlM encodeStep NetworkPayload.zero with
  | none =>
    rw [encodeRun, hrun]
    constructor
    · exact fun h => absurd h not_dropsNothing_none
    · rintro (hall | ⟨payload, hpayload, -⟩)
      · rcases hall.run hargc (fun s hs => ⟨hm s hs, hwidth s hs⟩) (buffers_zero argc) with
          ⟨next, hnext⟩
        rw [hrun] at hnext
        cases hnext
      · cases hpayload
  | some payload =>
    rcases (buffers_zero argc).run hargc (fun s hs => ⟨hm s hs, hne s hs, hwidth s hs⟩) hrun with
      ⟨kept, hsuffix, hbuffers, hall⟩
    rw [List.nil_append] at hsuffix hall
    have hrows : ∀ row ∈ steps.map Prod.snd, row ≠ [] ∧ row.length = argc := by
      intro row hrow
      rcases List.mem_map.mp hrow with ⟨step, hstep, rfl⟩
      exact ⟨hne step hstep, hwidth step hstep⟩
    have hresult : encodeRun steps m lz4 e limit hash =
        cloudsyncPayloadEncodeFinal m lz4 e limit hash payload := by
      rw [encodeRun, hrun]
      rfl
    rw [hresult, hall]
    simp only [Option.some.injEq, exists_eq_left']
    by_cases hkept : kept = []
    · have hzero : payload.nrows = 0 := hbuffers.nrows.mpr hkept
      rw [cloudsyncPayloadEncodeFinal, if_pos hzero, hkept]
      simp only [dropsNothing_null_iff, hzero, ne_eq, not_true_eq_false, false_and, or_false, eq_comm]
    · have hnrows : payload.nrows ≠ 0 := hbuffers.nrows.not.mpr hkept
      have hkeptWidth : ∀ row ∈ kept, row.length = argc :=
        fun row hrow => (hrows row (hsuffix.mem hrow)).2
      rcases hbuffers.final hkept hpos hkeptWidth m lz4 e limit hash with
        ⟨hfails, hnomem | htoobig⟩ | ⟨hfine, x, data, hsent, hblob⟩
      · rw [hnomem]
        exact iff_of_true .nomem (.inr ⟨hnrows, hfails⟩)
      · rw [htoobig]
        exact iff_of_true .toobig (.inr ⟨hnrows, hfails⟩)
      · have hfits := (hbuffers.filled hkept).fits
        rw [(hbuffers.filled hkept).bused] at hfits
        have hsmall := hbuffers.small
        have hlen := length_le_encodedRows hpos kept hkeptWidth
        have hopen := openPayload_sent hlz hr e ⟨hpos, hargc⟩ hhash (by omega) (by omega) hsent
        rw [hblob]
        simp only [dropsNothing_blob_iff, hfine, and_false, or_false]
        constructor
        · intro hdelivers
          exact eq_of_suffix_of_encodedRows hsuffix (fun row hrow => (hrows row hrow).1)
            (hdelivers.encodedRows_eq hopen)
        · intro heq
          rw [← heq]
          exact ⟨_, hopen, rfl, hkeptWidth⟩

/-- A run of the aggregate reports an error or delivers every row in order exactly
when every step got the memory it asked for and left room for the header, or
rows remain and the final function fails itself. -/
theorem dropsNothing_iff (steps : List (Allocator × List Value)) (argc : ℕ) (hargc : argc < 2 ^ 16)
    (hwidth : ∀ step ∈ steps, step.2.length = argc) (hm : ∀ step ∈ steps, step.1.Limited)
    (m : Allocator) (lz4 : Lz4) (hlz : lz4.Lawful) (e : Endian) (limit : ℕ) (hash : UInt64)
    (r : Receiver) (hr : r.Opens lz4 hash.toNat) :
    DropsNothing r (steps.map Prod.snd) (encodeRun steps m lz4 e limit hash.toNat) ↔
      AllGranted NetworkPayload.zero steps ∨ ∃ payload,
        steps.foldlM encodeStep NetworkPayload.zero = some payload ∧ payload.nrows ≠ 0 ∧
          FinalFails m lz4 limit payload := by
  rcases Nat.eq_zero_or_pos argc with rfl | hpos
  · exact dropsNothing_nil_iff (fun s hs => List.length_eq_zero_iff.mp (hwidth s hs)) m lz4 e limit
      hash.toNat r
  · exact dropsNothing_cons_iff hpos hargc hwidth hm m hlz e limit hash.toNat_lt hr

/-- SQLite's allocator with memory for every request it may grant. -/
def roomy : Allocator := ⟨fun n => decide (n ≤ SQLITE_MAX_ALLOCATION_SIZE), fun _ => 0⟩

theorem roomy_limited : roomy.Limited := fun _ h => of_decide_eq_true h

theorem roomy_refuses {n : ℕ} (h : roomy.ok n = false) : SQLITE_MAX_ALLOCATION_SIZE < n :=
  not_le.mp (of_decide_eq_false h)

theorem cloudsyncBufferCheck_balloc_le {m : Allocator} {payload q : NetworkPayload} {needed : ℕ}
    (h : cloudsyncBufferCheck m payload needed = (true, q)) :
    q.balloc ≤ payload.balloc + max needed CLOUDSYNC_PAYLOAD_MINBUF_SIZE := by
  rcases cloudsyncBufferCheck_cases m payload needed with ⟨-, -, hq⟩ | ⟨-, -, hq⟩ | ⟨-, hq⟩
  · rw [h] at hq
    cases hq
  · rw [(Prod.mk.inj (h.symm.trans hq)).2, NetworkPayload.balloc, List.length_append,
      List.length_map, List.length_range]
    exact le_rfl
  · rw [(Prod.mk.inj (h.symm.trans hq)).2]
    exact Nat.le_add_right _ _

def smallRows : List (Allocator × List Value) :=
  [(roomy, [.integer 300, .text ⟨[0x68, 0x69], by decide⟩]), (roomy, [.integer (-1), .null])]

theorem allGranted_smallRows : AllGranted NetworkPayload.zero smallRows := by
  refine ⟨List.cons_ne_nil _ _, ?_, fun _ => by decide, fun next hnext =>
    ⟨List.cons_ne_nil _ _, ?_, ?_, fun _ _ => trivial⟩⟩
  · rintro ⟨-, hrefused⟩
    exact absurd hrefused (by decide)
  · have hballoc : next.balloc ≤ CLOUDSYNC_PAYLOAD_MINBUF_SIZE := by
      rcases encodeStep_cases hnext with ⟨-, rfl⟩ | ⟨-, q, hcheck, -, -, -, hballoc⟩
      · exact Nat.zero_le _
      · have hlength := cloudsyncBufferCheck_balloc_le hcheck
        exact hballoc.le.trans (hlength.trans (by decide))
    have hsize : pkEncodeSize [.integer (-1), .null] 0 = 3 := by decide
    rintro ⟨-, hrefused⟩
    have hlimit := roomy_refuses hrefused
    rw [hsize, SQLITE_MAX_ALLOCATION_SIZE] at hlimit
    simp only [CLOUDSYNC_PAYLOAD_MINBUF_SIZE] at hballoc hlimit
    omega
  · intro hrows
    rcases encodeStep_cases hnext with ⟨hrefused, -⟩ | ⟨-, q, -, -, hnrows, -⟩
    · exact absurd hrefused.2 (by decide)
    · rw [hnrows] at hrows
      exact absurd hrows (Nat.succ_ne_zero _)

theorem dropsNothing_smallRows : DropsNothing plainReceiver (smallRows.map Prod.snd)
    (encodeRun smallRows roomy literalLz4 .big 100 (0 : UInt64).toNat) :=
  (dropsNothing_iff smallRows 2 (by norm_num) (by simp [smallRows])
    (by simp [smallRows, roomy_limited]) roomy literalLz4 literalLz4_lawful .big 100 0 plainReceiver
      plainReceiver_opens).mpr (.inl allGranted_smallRows)

theorem allGranted_null : AllGranted NetworkPayload.zero [(roomy, [.null])] := by
  refine ⟨List.cons_ne_nil _ _, ?_, fun _ => by decide, fun _ _ => trivial⟩
  rintro ⟨-, hrefused⟩
  exact absurd hrefused (by decide)

/-- The allocator in a bad moment. -/
def full : Allocator := ⟨fun _ => false, fun _ => 0⟩

theorem full_limited : full.Limited := fun _ h => absurd h Bool.false_ne_true

/-- Two rows, the first of which finds no memory: the second alone is sent as the
whole payload. -/
theorem not_dropsNothing_refused : ¬ DropsNothing plainReceiver [[.integer 1], [.null]]
    (encodeRun [(full, [.integer 1]), (roomy, [.null])] roomy literalLz4 .big 100 0) := by
  have hrefused : Refused full NetworkPayload.zero (pkEncodeSize [.integer 1] 0) :=
    ⟨by decide, rfl⟩
  have hlost : encodeStep NetworkPayload.zero (full, [.integer 1]) = some NetworkPayload.zero :=
    encodeStep_of_refused hrefused
  have hiff := dropsNothing_cons_iff one_pos (by norm_num)
    (show ∀ step ∈ [(full, [Value.integer 1]), (roomy, [.null])], step.2.length = 1 by simp)
    (by simp [full_limited, roomy_limited]) roomy literalLz4_lawful .big 100
    (show 0 < 2 ^ 64 by norm_num) plainReceiver_opens
  refine hiff.not.mpr ?_
  rintro (hall | ⟨payload, hrun, -, hfails⟩)
  · exact hall.2.1 hrefused
  · rw [List.foldlM_cons, hlost, Option.bind_eq_bind, Option.bind_some] at hrun
    rcases (buffers_zero 1).run (by norm_num) (by simp [roomy_limited]) hrun with
      ⟨kept, -, hbuffers, hkept⟩
    rw [hkept.mp allGranted_null] at hbuffers
    have hfilled := hbuffers.filled (by simp)
    have hreal : toInt32 ((payload.bused : ℤ) - headerSize) = 1 := by
      rw [hfilled.bused]
      decide
    rw [FinalFails, hfilled.stored, hreal] at hfails
    rcases hfails with hnomem | ⟨-, hlimit⟩
    · exact absurd hnomem (by decide)
    · exact absurd hlimit (by decide)

end SqliteSync.Payload
