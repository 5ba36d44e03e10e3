import SqliteSync.Codec.Encode
import SqliteSync.Payload.Header

/-!
# `cloudsync_payload_encode`: rows into one blob

The aggregate's step appends a row to a growing buffer whose first bytes are
kept for the header; the final function compresses the rows when that pays and
puts the header in front. The buffer is the bytes allocated, so a write outside
it has no result.
-/
namespace SqliteSync.Payload
open Codec Library

def CLOUDSYNC_PAYLOAD_MINBUF_SIZE : ℕ := 512 * 1024

/-- The allocator: which requests it grants, and what fresh memory holds. -/
structure Allocator where
  ok : ℕ → Bool
  junk : ℕ → UInt8

/-- LZ4. `compress src capacity` are the bytes written, none on failure;
`decompress src capacity` are the bytes written, or the negative return. -/
structure Lz4 where
  compress : List UInt8 → ℕ → List UInt8
  decompress : List UInt8 → ℤ → Except ℤ (List UInt8)

/-- What is documented of LZ4: decompression inverts compression, and writes no
more than the capacity it is given. -/
structure Lz4.Lawful (lz4 : Lz4) : Prop where
  decompress_compress (src : List UInt8) (capacity : ℕ) :
    lz4.compress src capacity ≠ [] → src.length < 2 ^ 31 →
      lz4.decompress (lz4.compress src capacity) src.length = .ok src
  decompress_length (src out : List UInt8) (capacity : ℤ) :
    lz4.decompress src capacity = .ok out → (out.length : ℤ) ≤ capacity

/-- LZ4 on inputs too short for a match: one token, then the literals. -/
def literalLz4 : Lz4 where
  compress src capacity :=
    if src.length ≤ 12 ∧ src.length < capacity then UInt8.ofNat (16 * src.length) :: src else []
  decompress src capacity :=
    match src with
    | token :: literals =>
      if token.toNat = 16 * literals.length ∧ (literals.length : ℤ) ≤ capacity then .ok literals
      else .error (-1)
    | [] => .error (-1)

theorem literalLz4_lawful : literalLz4.Lawful where
  decompress_compress src capacity h _ := by
    simp only [literalLz4] at h ⊢
    split_ifs at h ⊢ with hs
    · have ht : 16 * src.length < 256 := by omega
      simp [ht]
    · exact absurd rfl h
  decompress_length src out capacity h := by
    simp only [literalLz4] at h
    split at h
    · split_ifs at h with hl
      cases h
      exact hl.2
    · cases h

def lz4CompressBound (inputSize : ℤ) : ℕ :=
  if inputSize < 0 ∨ 0x7E000000 < inputSize then 0
  else inputSize.toNat + inputSize.toNat / 255 + 16

/-- `cloudsync_network_payload`; `balloc` is the length of `buffer`. -/
structure NetworkPayload where
  buffer : List UInt8
  bused : ℕ
  nrows : ℕ
  ncols : ℕ
deriving DecidableEq

def NetworkPayload.balloc (payload : NetworkPayload) : ℕ := payload.buffer.length

/-- The payload of a fresh aggregate context, and the one `cloudsync_buffer_free` leaves. -/
def NetworkPayload.zero : NetworkPayload := ⟨[], 0, 0, 0⟩

def cloudsyncBufferCheck (m : Allocator) (payload : NetworkPayload) (needed : ℕ) :
    Bool × NetworkPayload :=
  if payload.bused + needed > payload.balloc then
    let needed := if needed < CLOUDSYNC_PAYLOAD_MINBUF_SIZE then CLOUDSYNC_PAYLOAD_MINBUF_SIZE
      else needed
    let balloc := payload.balloc + needed
    if m.ok balloc then
      (true, { payload with
        buffer := payload.buffer ++ (List.range needed).map m.junk
        bused := if payload.nrows = 0 then headerSize else payload.bused })
    else (false, NetworkPayload.zero)
  else (true, payload)

/-- Bytes written at a position; `none` outside the allocation. -/
def writeAt (buffer : List UInt8) (pos : ℕ) (bytes : List UInt8) : Option (List UInt8) :=
  if pos + bytes.length ≤ buffer.length then
    some (buffer.take pos ++ bytes ++ buffer.drop (pos + bytes.length))
  else none

/-- `cloudsync_payload_encode_step`; `none` is a write outside the buffer. -/
def cloudsyncPayloadEncodeStep (m : Allocator) (payload : NetworkPayload) (argv : List Value) :
    Option NetworkPayload :=
  let payload := if payload.nrows = 0 then { payload with ncols := argv.length % 2 ^ 16 } else payload
  let breq := pkEncodeSize argv 0
  match cloudsyncBufferCheck m payload breq with
  | (false, payload) => some payload
  | (true, payload) => do
    let buffer ← writeAt payload.buffer payload.bused (pkEncode argv false)
    some { payload with
      buffer := buffer
      bused := payload.bused + breq
      nrows := payload.nrows + 1 }

/-- The result `cloudsync_payload_encode` gives SQLite. -/
inductive EncodeResult where
  | null
  | nomem
  | toobig
  | blob (bytes : List UInt8)
deriving DecidableEq

/-- `sqlite3_result_blob` under `SQLITE_LIMIT_LENGTH`. -/
def resultBlob (limit : ℕ) (bytes : List UInt8) : EncodeResult :=
  if limit < bytes.length then .toobig else .blob bytes

/-- `cloudsync_payload_encode_final`, on a machine of order `e`; `none` is a read
outside the buffer. The header goes over the bytes kept for it in whichever
buffer is sent. -/
def cloudsyncPayloadEncodeFinal (m : Allocator) (lz4 : Lz4) (e : Endian) (limit schemaHash : ℕ)
    (payload : NetworkPayload) : Option EncodeResult :=
  if payload.nrows = 0 then some .null
  else
    let realBufferSize := toInt32 ((payload.bused : ℤ) - headerSize)
    let zbound := lz4CompressBound realBufferSize
    if ¬ m.ok (zbound + headerSize) then some .nomem
    else if realBufferSize < 0 ∨ payload.balloc < headerSize + realBufferSize.toNat then none
    else
      let srcBuffer := (payload.buffer.drop headerSize).take realBufferSize.toNat
      let zbuffer := lz4.compress srcBuffer zbound
      let useUncompressedBuffer := zbuffer.length = 0 ∨ realBufferSize < zbuffer.length
      let header := cloudsyncNetworkHeaderInit e
        (if useUncompressedBuffer then 0 else realBufferSize.toNat) payload.ncols
        (payload.nrows % 2 ^ 32) schemaHash
      let sent := if useUncompressedBuffer then srcBuffer else zbuffer
      some (resultBlob limit (header.store e ++ sent))

/-- The aggregate over a list of rows. -/
def cloudsyncPayloadEncode (m : Allocator) (lz4 : Lz4) (e : Endian) (limit schemaHash : ℕ)
    (rows : List (List Value)) : Option EncodeResult := do
  let payload ← rows.foldlM (cloudsyncPayloadEncodeStep m) NetworkPayload.zero
  cloudsyncPayloadEncodeFinal m lz4 e limit schemaHash payload

/-! ## The buffer after each step -/

/-- The rows' bytes, one row after the other. -/
def encodedRows (rows : List (List Value)) : List UInt8 := rows.flatMap pkEncodeValues

theorem encodedRows_append_singleton (rows : List (List Value)) (row : List Value) :
    encodedRows (rows ++ [row]) = encodedRows rows ++ pkEncodeValues row := by
  simp [encodedRows]

/-- The buffer holds `rows` behind the bytes kept for the header. -/
structure Filled (payload : NetworkPayload) (ncols : ℕ) (rows : List (List Value)) : Prop where
  nrows : payload.nrows = rows.length
  ncols : payload.ncols = ncols
  bused : payload.bused = headerSize + (encodedRows rows).length
  fits : payload.bused ≤ payload.balloc
  rows : (payload.buffer.drop headerSize).take (encodedRows rows).length = encodedRows rows

theorem writeAt_of_le {buffer bytes : List UInt8} {pos : ℕ}
    (h : pos + bytes.length ≤ buffer.length) :
    ∃ b, writeAt buffer pos bytes = some b ∧ b.length = buffer.length ∧
      b.take (pos + bytes.length) = buffer.take pos ++ bytes := by
  refine ⟨_, if_pos h, ?_, ?_⟩
  · simp only [List.length_append, List.length_take, List.length_drop]
    omega
  · have hl : (buffer.take pos ++ bytes).length = pos + bytes.length := by
      rw [List.length_append, List.length_take]
      omega
    rw [← hl, List.take_left']
    rfl

theorem drop_take_of_take {b buffer bytes : List UInt8} {k n : ℕ} (hk : k + n ≤ buffer.length)
    (hb : b.take (k + n + bytes.length) = buffer.take (k + n) ++ bytes) :
    (b.drop k).take (n + bytes.length) = (buffer.drop k).take n ++ bytes := by
  rw [List.take_drop, ← Nat.add_assoc, hb, List.take_drop, List.drop_append_of_le_length]
  rw [List.length_take]
  omega

theorem cloudsyncBufferCheck_fits (m : Allocator) {payload : NetworkPayload} {needed : ℕ}
    (h : payload.bused + needed ≤ payload.balloc) :
    cloudsyncBufferCheck m payload needed = (true, payload) :=
  if_neg (not_lt.mpr h)

/-- A request for memory is refused, granted behind what is there, or not needed. -/
theorem cloudsyncBufferCheck_cases (m : Allocator) (payload : NetworkPayload) (needed : ℕ) :
    (payload.balloc < payload.bused + needed ∧
        m.ok (payload.balloc + max needed CLOUDSYNC_PAYLOAD_MINBUF_SIZE) = false ∧
        cloudsyncBufferCheck m payload needed = (false, NetworkPayload.zero)) ∨
      (payload.balloc < payload.bused + needed ∧
        m.ok (payload.balloc + max needed CLOUDSYNC_PAYLOAD_MINBUF_SIZE) = true ∧
        cloudsyncBufferCheck m payload needed = (true, { payload with
          buffer := payload.buffer ++
            (List.range (max needed CLOUDSYNC_PAYLOAD_MINBUF_SIZE)).map m.junk
          bused := if payload.nrows = 0 then headerSize else payload.bused })) ∨
      (payload.bused + needed ≤ payload.balloc ∧
        cloudsyncBufferCheck m payload needed = (true, payload)) := by
  have hmax : (if needed < CLOUDSYNC_PAYLOAD_MINBUF_SIZE then CLOUDSYNC_PAYLOAD_MINBUF_SIZE
      else needed) = max needed CLOUDSYNC_PAYLOAD_MINBUF_SIZE := by
    split_ifs <;> omega
  by_cases hgrow : payload.balloc < payload.bused + needed
  · cases hok : m.ok (payload.balloc + max needed CLOUDSYNC_PAYLOAD_MINBUF_SIZE) with
    | false =>
      left
      refine ⟨hgrow, rfl, ?_⟩
      rw [cloudsyncBufferCheck, if_pos hgrow, hmax]
      exact if_neg (by simp [hok])
    | true =>
      right
      left
      refine ⟨hgrow, rfl, ?_⟩
      rw [cloudsyncBufferCheck, if_pos hgrow, hmax]
      exact if_pos hok
  · exact .inr (.inr ⟨not_lt.mp hgrow, if_neg hgrow⟩)

theorem cloudsyncBufferCheck_grows {m : Allocator} (hm : ∀ n, m.ok n = true)
    (payload : NetworkPayload) (needed : ℕ) (h : payload.balloc < payload.bused + needed) :
    cloudsyncBufferCheck m payload needed = (true, { payload with
      buffer := payload.buffer ++ (List.range (max needed CLOUDSYNC_PAYLOAD_MINBUF_SIZE)).map m.junk
      bused := if payload.nrows = 0 then headerSize else payload.bused }) := by
  rcases cloudsyncBufferCheck_cases m payload needed with
    ⟨-, hrefused, -⟩ | ⟨-, -, hgranted⟩ | ⟨hroom, -⟩
  · rw [hm] at hrefused
    cases hrefused
  · exact hgranted
  · exact absurd h (not_lt.mpr hroom)

theorem Filled.write {payload : NetworkPayload} {ncols : ℕ} {rows : List (List Value)}
    (hp : Filled payload ncols rows) (row : List Value)
    (h : payload.bused + (pkEncodeValues row).length ≤ payload.balloc) :
    ∃ b, writeAt payload.buffer payload.bused (pkEncodeValues row) = some b ∧
      Filled ⟨b, payload.bused + (pkEncodeValues row).length, payload.nrows + 1, payload.ncols⟩
        ncols (rows ++ [row]) := by
  rcases writeAt_of_le h with ⟨b, hw, hlen, hb⟩
  refine ⟨b, hw, ?_, hp.ncols, ?_, ?_, ?_⟩
  · simp [hp.nrows]
  · rw [encodedRows_append_singleton, List.length_append, ← Nat.add_assoc, ← hp.bused]
  · rw [NetworkPayload.balloc, hlen]
    exact h
  · have hfit := hp.fits
    rw [NetworkPayload.balloc, hp.bused] at hfit
    rw [hp.bused] at hb
    rw [encodedRows_append_singleton, List.length_append, drop_take_of_take hfit hb, hp.rows]

/-- An empty buffer that the header bytes are kept in is filled with no rows. -/
theorem filled_nil {payload : NetworkPayload} (hn : payload.nrows = 0)
    (hb : payload.bused = headerSize) (hf : headerSize ≤ payload.balloc) :
    Filled payload payload.ncols [] where
  nrows := hn
  ncols := rfl
  bused := by simp [hb, encodedRows]
  fits := by rwa [hb]
  rows := by simp [encodedRows]

theorem Filled.append {payload : NetworkPayload} {ncols : ℕ} {rows : List (List Value)}
    (hp : Filled payload ncols rows) (fresh : List UInt8) :
    Filled { payload with buffer := payload.buffer ++ fresh } ncols rows where
  nrows := hp.nrows
  ncols := hp.ncols
  bused := hp.bused
  fits := le_trans hp.fits (by simp [NetworkPayload.balloc])
  rows := by
    have hfit := hp.fits
    rw [NetworkPayload.balloc, hp.bused] at hfit
    rw [List.drop_append_of_le_length (by omega), List.take_append_of_le_length, hp.rows]
    rw [List.length_drop]
    omega

theorem pkEncodeSize_zero (row : List Value) : pkEncodeSize row 0 = (pkEncodeValues row).length := by
  rw [pkEncodeSize_eq, Nat.zero_add]

theorem cloudsyncPayloadEncodeStep_of_check {m : Allocator} {payload q : NetworkPayload}
    {ncols : ℕ} {rows : List (List Value)} (row : List Value)
    (hc : cloudsyncBufferCheck m
      (if payload.nrows = 0 then { payload with ncols := row.length % 2 ^ 16 } else payload)
      (pkEncodeValues row).length = (true, q))
    (hq : Filled q ncols rows) (hroom : q.bused + (pkEncodeValues row).length ≤ q.balloc) :
    ∃ p, cloudsyncPayloadEncodeStep m payload row = some p ∧ Filled p ncols (rows ++ [row]) := by
  rcases hq.write row hroom with ⟨b, hw, hb⟩
  refine ⟨_, ?_, hb⟩
  have henc : pkEncode row false = pkEncodeValues row := rfl
  rw [cloudsyncPayloadEncodeStep, pkEncodeSize_zero, hc, henc]
  simp only [hw, Option.bind_eq_bind, Option.bind_some]

theorem cloudsyncPayloadEncodeStep_first {m : Allocator} (hm : ∀ n, m.ok n = true)
    (row : List Value) (hpos : row ≠ []) (hlen : row.length < 2 ^ 16)
    (h : headerSize + (pkEncodeValues row).length ≤ CLOUDSYNC_PAYLOAD_MINBUF_SIZE) :
    ∃ p, cloudsyncPayloadEncodeStep m NetworkPayload.zero row = some p ∧
      Filled p row.length [row] := by
  have hrow : 0 < (pkEncodeValues row).length := by
    have h1 := length_le_pkEncodeValues row
    have h2 := List.length_pos_iff.mpr hpos
    omega
  let fresh := (List.range (max (pkEncodeValues row).length CLOUDSYNC_PAYLOAD_MINBUF_SIZE)).map
    m.junk
  have hfresh : headerSize + (pkEncodeValues row).length ≤ fresh.length := by
    rw [List.length_map, List.length_range]
    omega
  have hfilled : Filled ⟨fresh, headerSize, 0, row.length⟩ row.length [] :=
    filled_nil rfl rfl (le_trans (Nat.le_add_right _ _) hfresh)
  refine cloudsyncPayloadEncodeStep_of_check row ?_ hfilled hfresh
  rw [if_pos (show NetworkPayload.zero.nrows = 0 from rfl), Nat.mod_eq_of_lt hlen]
  exact cloudsyncBufferCheck_grows hm ⟨[], 0, 0, row.length⟩ _
    (by simpa [NetworkPayload.balloc] using hrow)

theorem cloudsyncPayloadEncodeStep_next {m : Allocator} (hm : ∀ n, m.ok n = true)
    {payload : NetworkPayload} {ncols : ℕ} {rows : List (List Value)}
    (hp : Filled payload ncols rows) (hrows : rows ≠ []) (row : List Value) :
    ∃ p, cloudsyncPayloadEncodeStep m payload row = some p ∧ Filled p ncols (rows ++ [row]) := by
  have hn : payload.nrows ≠ 0 := by
    rw [hp.nrows]
    exact List.length_eq_zero_iff.not.mpr hrows
  by_cases h : payload.bused + (pkEncodeValues row).length ≤ payload.balloc
  · refine cloudsyncPayloadEncodeStep_of_check row ?_ hp h
    rw [if_neg hn]
    exact cloudsyncBufferCheck_fits m h
  · have hgrow := cloudsyncBufferCheck_grows hm payload (pkEncodeValues row).length (by omega)
    rw [if_neg hn] at hgrow
    refine cloudsyncPayloadEncodeStep_of_check row ?_ (hp.append ((List.range (max
      (pkEncodeValues row).length CLOUDSYNC_PAYLOAD_MINBUF_SIZE)).map m.junk)) ?_
    · rw [if_neg hn]
      exact hgrow
    · have hfit := hp.fits
      simp only [NetworkPayload.balloc, List.length_append, List.length_map, List.length_range]
        at hfit ⊢
      omega

theorem foldlM_cloudsyncPayloadEncodeStep {m : Allocator} (hm : ∀ n, m.ok n = true)
    (rows : List (List Value)) {payload : NetworkPayload} {ncols : ℕ} {done : List (List Value)}
    (hp : Filled payload ncols done) (hdone : done ≠ []) :
    ∃ p, rows.foldlM (cloudsyncPayloadEncodeStep m) payload = some p ∧
      Filled p ncols (done ++ rows) := by
  induction rows generalizing payload done with
  | nil => exact ⟨payload, rfl, by simpa using hp⟩
  | cons row rows ih =>
    rcases cloudsyncPayloadEncodeStep_next hm hp hdone row with ⟨q, hq, hfill⟩
    rcases ih hfill (by simp) with ⟨p, hrun, hp'⟩
    refine ⟨p, ?_, by simpa using hp'⟩
    rw [List.foldlM_cons, hq]
    exact hrun

/-- What is sent: the rows' bytes as they are, announced by an expanded size of
zero, or compressed, announced by their length. -/
structure Sent (lz4 : Lz4) (rows : List (List Value)) (expandedSize : ℕ) (data : List UInt8) :
    Prop where
  small : expandedSize < 2 ^ 31
  raw : expandedSize = 0 → data = encodedRows rows
  packed : expandedSize ≠ 0 → data ≠ [] ∧ expandedSize = (encodedRows rows).length ∧
    ∃ capacity, data = lz4.compress (encodedRows rows) capacity

theorem length_le_encodedRows {ncols : ℕ} (hn : 0 < ncols) (rows : List (List Value))
    (hwidth : ∀ row ∈ rows, row.length = ncols) : rows.length ≤ (encodedRows rows).length := by
  induction rows with
  | nil => simp
  | cons row rows ih =>
    have h1 := length_le_pkEncodeValues row
    have h2 := hwidth row List.mem_cons_self
    have h3 := ih fun r hr => hwidth r (List.mem_cons_of_mem _ hr)
    rw [encodedRows, List.flatMap_cons, List.length_append, List.length_cons]
    rw [encodedRows] at h3
    omega

theorem cloudsyncPayloadEncodeFinal_eq {m : Allocator} (hm : ∀ n, m.ok n = true) (lz4 : Lz4)
    (e : Endian) (limit schemaHash : ℕ) {payload : NetworkPayload} {ncols : ℕ}
    {rows : List (List Value)} (hp : Filled payload ncols rows) (hrows : rows ≠ [])
    (hlen : rows.length ≤ (encodedRows rows).length) (hlimit : limit < 2 ^ 31)
    (htotal : headerSize + (encodedRows rows).length ≤ limit) :
    ∃ expandedSize data, Sent lz4 rows expandedSize data ∧
      cloudsyncPayloadEncodeFinal m lz4 e limit schemaHash payload = some (.blob
        ((cloudsyncNetworkHeaderInit e expandedSize ncols rows.length schemaHash).store e ++ data)) := by
  have hpos := List.length_pos_iff.mpr hrows
  have hreal : toInt32 ((payload.bused : ℤ) - headerSize) = (encodedRows rows).length := by
    rw [hp.bused, Nat.cast_add, add_sub_cancel_left]
    exact toInt32_of_lt (by omega) (by omega)
  have hfits : ¬ ((encodedRows rows).length : ℤ) < 0 ∧
      ¬ payload.balloc < headerSize + (encodedRows rows).length := by
    have := hp.fits
    rw [hp.bused] at this
    omega
  have hzero : ¬ payload.nrows = 0 := by
    rw [hp.nrows]
    omega
  have hmod : rows.length % 2 ^ 32 = rows.length := Nat.mod_eq_of_lt (by omega)
  rw [cloudsyncPayloadEncodeFinal, if_neg hzero]
  simp only [hreal, hm, not_true_eq_false, if_false, Int.toNat_natCast, hfits.1, hfits.2, or_self,
    hp.rows, hp.nrows, hp.ncols, hmod]
  have hblob (h : NetworkHeader) (data : List UInt8)
      (hd : data.length ≤ (encodedRows rows).length) :
      resultBlob limit (h.store e ++ data) = .blob (h.store e ++ data) := by
    rw [resultBlob, if_neg]
    rw [List.length_append, store_length_header]
    omega
  by_cases hu : (lz4.compress (encodedRows rows) (lz4CompressBound (encodedRows rows).length)).length
      = 0 ∨ ((encodedRows rows).length : ℤ) < (lz4.compress (encodedRows rows)
        (lz4CompressBound (encodedRows rows).length)).length
  · refine ⟨0, encodedRows rows, ⟨by norm_num, fun _ => rfl, fun h => absurd rfl h⟩, ?_⟩
    simp only [hu, if_true, hblob _ _ le_rfl]
  · have hz : lz4.compress (encodedRows rows) (lz4CompressBound (encodedRows rows).length) ≠ [] :=
      fun h => hu (.inl (by rw [h]; rfl))
    refine ⟨(encodedRows rows).length, _, ⟨by omega, fun h => by omega,
      fun _ => ⟨hz, rfl, _, rfl⟩⟩, ?_⟩
    simp only [hu, if_false]
    rw [hblob _ _ (by omega)]

/-- The blob of a non-empty list of rows of one width: the header, then the rows
raw or compressed. -/
theorem cloudsyncPayloadEncode_eq (m : Allocator) (hm : ∀ n, m.ok n = true) (lz4 : Lz4) (e : Endian)
    (limit schemaHash ncols : ℕ) (rows : List (List Value)) (hrows : rows ≠ [])
    (hn : 0 < ncols ∧ ncols < 2 ^ 16) (hwidth : ∀ row ∈ rows, row.length = ncols)
    (hfirst : ∀ row ∈ rows.head?, headerSize + (pkEncodeValues row).length ≤
      CLOUDSYNC_PAYLOAD_MINBUF_SIZE)
    (hlimit : limit < 2 ^ 31) (htotal : headerSize + (encodedRows rows).length ≤ limit) :
    ∃ expandedSize data, Sent lz4 rows expandedSize data ∧
      cloudsyncPayloadEncode m lz4 e limit schemaHash rows = some (.blob
        ((cloudsyncNetworkHeaderInit e expandedSize ncols rows.length schemaHash).store e ++ data)) := by
  have hlen := length_le_encodedRows hn.1 rows hwidth
  cases rows with
  | nil => exact absurd rfl hrows
  | cons row rest =>
    have hw := hwidth row List.mem_cons_self
    have hne : row ≠ [] := List.length_pos_iff.mp (by omega)
    rcases cloudsyncPayloadEncodeStep_first hm row hne (by omega) (hfirst row rfl) with
      ⟨q, hq, hfill⟩
    rcases foldlM_cloudsyncPayloadEncodeStep hm rest hfill (by simp) with ⟨p, hrun, hp⟩
    rw [hw] at hp
    rcases cloudsyncPayloadEncodeFinal_eq hm lz4 e limit schemaHash hp (by simp) hlen hlimit htotal
      with ⟨x, data, hsent, hfinal⟩
    refine ⟨x, data, hsent, ?_⟩
    rw [cloudsyncPayloadEncode, List.foldlM_cons, hq]
    simp only [Option.bind_eq_bind, Option.bind_some, hrun]
    exact hfinal

theorem length_le_of_resultBlob {limit : ℕ} {bytes blob : List UInt8}
    (h : resultBlob limit bytes = .blob blob) : blob.length ≤ limit := by
  rw [resultBlob] at h
  split_ifs at h with hlimit
  cases h
  exact not_lt.mp hlimit

/-- A blob that is sent is no longer than the longest there can be. -/
theorem length_le_of_cloudsyncPayloadEncode {m : Allocator} {lz4 : Lz4} {e : Endian}
    {limit schemaHash : ℕ} {rows : List (List Value)} {blob : List UInt8}
    (h : cloudsyncPayloadEncode m lz4 e limit schemaHash rows = some (.blob blob)) :
    blob.length ≤ limit := by
  rw [cloudsyncPayloadEncode, Option.bind_eq_bind, Option.bind_eq_some_iff] at h
  rcases h with ⟨payload, -, h⟩
  rw [cloudsyncPayloadEncodeFinal] at h
  split at h
  · cases h
  · dsimp only at h
    split at h
    · cases h
    · rw [Option.ite_none_left_eq_some, Option.some_inj] at h
      exact length_le_of_resultBlob h.2

end SqliteSync.Payload
