import SqliteSync.Library.Run
import SqliteSync.Payload.Encode

/-!
# Room for the bytes of a row

The sizes `pk_encode` and the payload buffer are made for are estimates of
`pk_encode_size`. They are exact, so a key never leaves its buffer; a payload
does when its first row leaves no room for the header in the first allocation.
-/
namespace SqliteSync.Payload
open Codec Library

/-! ## Keys -/

/-- The buffer a caller of `pk_encode` brings, with the size it states. -/
structure KeyBuffer where
  bytes : List UInt8
  size : ℕ
  fits : size ≤ bytes.length

/-- The loop of `pk_encode` from the position `bseek`; `none` is a write outside
the buffer. -/
def pkEncodeLoop (buffer : List UInt8) (bseek : ℕ) : List Value → Option (List UInt8)
  | [] => some buffer
  | v :: vs => (writeAt buffer bseek (pkEncodeValue v)).bind fun buffer =>
    pkEncodeLoop buffer (bseek + (pkEncodeValue v).length) vs

/-- `pk_encode` of a primary key: the buffer it returns, if there is memory for
one, and the size it states. -/
def pkEncodePrikeyBuffer (m : Allocator) (argv : List Value) (b : Option KeyBuffer) :
    Option (Option (List UInt8) × ℕ) :=
  let blen := pkEncodeSize argv 1
  let fresh := if m.ok blen then some ((List.range blen).map m.junk) else none
  let buffer :=
    match b with
    | some b => if blen > b.size then fresh else some b.bytes
    | none => fresh
  match buffer with
  | none => some (none, (b.map KeyBuffer.size).getD 0)
  | some buffer => do
    let buffer ← writeAt buffer 0 (pkEncodeU8 argv.length)
    let buffer ← pkEncodeLoop buffer 1 argv
    some (some buffer, blen)

/-- The loop writes the values one after the other when the buffer holds them. -/
theorem pkEncodeLoop_eq (argv : List Value) {buffer : List UInt8} {bseek : ℕ}
    (h : bseek + (pkEncodeValues argv).length ≤ buffer.length) :
    ∃ b, pkEncodeLoop buffer bseek argv = some b ∧ b.length = buffer.length ∧
      b.take (bseek + (pkEncodeValues argv).length) =
        buffer.take bseek ++ pkEncodeValues argv := by
  induction argv generalizing buffer bseek with
  | nil => exact ⟨buffer, rfl, rfl, by simp [pkEncodeValues]⟩
  | cons v vs ih =>
    rw [pkEncodeValues, List.length_append] at h
    have hfirst : bseek + (pkEncodeValue v).length ≤ buffer.length := by omega
    rcases writeAt_of_le hfirst with ⟨b, hwrite, hlength, htake⟩
    have hrest : bseek + (pkEncodeValue v).length + (pkEncodeValues vs).length ≤ b.length := by
      omega
    rcases ih hrest with ⟨b', hloop, hlength', htake'⟩
    refine ⟨b', ?_, hlength'.trans hlength, ?_⟩
    · rw [pkEncodeLoop, hwrite]
      exact hloop
    · rw [pkEncodeValues, List.length_append, ← Nat.add_assoc, htake', htake, List.append_assoc]

/-- A buffer of the estimated size holds the key, and nothing is written past it. -/
theorem pkEncodePrikey_written (argv : List Value) {buffer : List UInt8}
    (h : pkEncodeSize argv 1 ≤ buffer.length) :
    ∃ b, ((writeAt buffer 0 (pkEncodeU8 argv.length)).bind fun b => pkEncodeLoop b 1 argv) =
        some b ∧ b.length = buffer.length ∧ b.take (pkEncodeSize argv 1) = pkEncode argv true := by
  rw [pkEncodeSize_eq] at h ⊢
  have hcount : 0 + (pkEncodeU8 argv.length).length ≤ buffer.length := by
    rw [pkEncodeU8_length]
    omega
  rcases writeAt_of_le hcount with ⟨b, hwrite, hlength, htake⟩
  have hvalues : 1 + (pkEncodeValues argv).length ≤ b.length := by omega
  rcases pkEncodeLoop_eq argv hvalues with ⟨b', hloop, hlength', htake'⟩
  refine ⟨b', ?_, hlength'.trans hlength, ?_⟩
  · rw [hwrite]
    exact hloop
  · rw [pkEncodeU8_length, Nat.zero_add, List.take_zero, List.nil_append] at htake
    rw [htake', htake]
    rfl

/-- A key is written within its buffer, or there is no memory for one. -/
theorem pkEncodePrikeyBuffer_cases (m : Allocator) (argv : List Value) (b : Option KeyBuffer) :
    (∃ size, pkEncodePrikeyBuffer m argv b = some (none, size)) ∨
      ∃ buffer, pkEncodePrikeyBuffer m argv b = some (some buffer, pkEncodeSize argv 1) ∧
        buffer.take (pkEncodeSize argv 1) = pkEncode argv true := by
  have hwritten : ∀ buffer : List UInt8, pkEncodeSize argv 1 ≤ buffer.length →
      ∃ b, (do
        let buffer ← writeAt buffer 0 (pkEncodeU8 argv.length)
        let buffer ← pkEncodeLoop buffer 1 argv
        some (some buffer, pkEncodeSize argv 1)) = some (some b, pkEncodeSize argv 1) ∧
          b.take (pkEncodeSize argv 1) = pkEncode argv true := by
    intro buffer hfits
    rcases pkEncodePrikey_written argv hfits with ⟨b, hb, -, htake⟩
    rcases Option.bind_eq_some_iff.mp hb with ⟨b₁, hwrite, hloop⟩
    refine ⟨b, ?_, htake⟩
    simp only [Option.bind_eq_bind, hwrite, hloop, Option.bind_some]
  have hfresh : pkEncodeSize argv 1 ≤ ((List.range (pkEncodeSize argv 1)).map m.junk).length := by
    rw [List.length_map, List.length_range]
  simp only [pkEncodePrikeyBuffer]
  cases b with
  | none =>
    by_cases hok : m.ok (pkEncodeSize argv 1) = true
    · right
      simp only [hok, if_true]
      exact hwritten _ hfresh
    · left
      simp only [hok, Bool.false_eq_true, if_false]
      exact ⟨_, rfl⟩
  | some b =>
    by_cases hsmall : pkEncodeSize argv 1 > b.size
    · by_cases hok : m.ok (pkEncodeSize argv 1) = true
      · right
        simp only [hsmall, hok, if_true]
        exact hwritten _ hfresh
      · left
        simp only [hsmall, hok, Bool.false_eq_true, if_true, if_false]
        exact ⟨_, rfl⟩
    · right
      simp only [hsmall, if_false]
      exact hwritten _ ((not_lt.mp hsmall).trans b.fits)

/-- The payload a step checks the room of. -/
def NetworkPayload.entered (payload : NetworkPayload) (argv : List Value) : NetworkPayload :=
  if payload.nrows = 0 then { payload with ncols := argv.length % 2 ^ 16 } else payload

theorem cloudsyncPayloadEncodeStep_advances {m : Allocator} {payload q : NetworkPayload}
    {argv : List Value}
    (hcheck : cloudsyncBufferCheck m (payload.entered argv) (pkEncodeSize argv 0) = (true, q))
    (hroom : q.bused + pkEncodeSize argv 0 ≤ q.balloc) :
    ∃ next, cloudsyncPayloadEncodeStep m payload argv = some next ∧
      next.bused = q.bused + (pkEncode argv false).length ∧
      (next.buffer.drop q.bused).take (pkEncode argv false).length = pkEncode argv false := by
  have hencode : pkEncode argv false = pkEncodeValues argv := rfl
  rw [pkEncodeSize_zero] at hcheck hroom
  rcases writeAt_of_le hroom with ⟨b, hwrite, -, htake⟩
  refine ⟨⟨b, q.bused + (pkEncodeValues argv).length, q.nrows + 1, q.ncols⟩, ?_, rfl, ?_⟩
  · rw [NetworkPayload.entered] at hcheck
    rw [cloudsyncPayloadEncodeStep, pkEncodeSize_zero, hcheck]
    simp only [hencode, hwrite, Option.bind_eq_bind, Option.bind_some]
  · have hfits : q.bused ≤ q.buffer.length := (Nat.le_add_right _ _).trans hroom
    rw [hencode, List.take_drop, htake, List.drop_left']
    rw [List.length_take, Nat.min_eq_left hfits]

/-- The estimate is what the loop writes, with a reserve of one for the count of a
key: an encoded key stays in its buffer, whether the caller brought one or
not, and a row that has room moves the payload on by its bytes. -/
theorem pkEncodeSize_exact (argv : List Value) :
    (∀ r, pkEncodeSize argv r = r + (pkEncode argv false).length) ∧
      pkEncodeSize argv 1 = (pkEncode argv true).length ∧
      (∀ (m : Allocator) (b : Option KeyBuffer),
        (∃ size, pkEncodePrikeyBuffer m argv b = some (none, size)) ∨
          ∃ buffer, pkEncodePrikeyBuffer m argv b = some (some buffer, pkEncodeSize argv 1) ∧
            buffer.take (pkEncodeSize argv 1) = pkEncode argv true) ∧
      ∀ (m : Allocator) (payload q : NetworkPayload),
        cloudsyncBufferCheck m (payload.entered argv) (pkEncodeSize argv 0) = (true, q) →
          q.bused + pkEncodeSize argv 0 ≤ q.balloc →
            ∃ next, cloudsyncPayloadEncodeStep m payload argv = some next ∧
              next.bused = q.bused + (pkEncode argv false).length ∧
              (next.buffer.drop q.bused).take (pkEncode argv false).length =
                pkEncode argv false := by
  refine ⟨fun r => pkEncodeSize_eq argv r, ?_, fun m b => pkEncodePrikeyBuffer_cases m argv b,
    fun m payload q hcheck hroom => cloudsyncPayloadEncodeStep_advances hcheck hroom⟩
  rw [pkEncodeSize_eq, pkEncode, if_pos rfl, List.length_append, pkEncodeU8_length]

def threeValues : List Value := [.integer 300, .text ⟨[0x61], by decide⟩, .null]

theorem pkEncodeSize_exact_three : ∃ next : NetworkPayload,
    cloudsyncPayloadEncodeStep ⟨fun _ => true, fun _ => 0⟩ ⟨List.replicate 50 0, 35, 1, 3⟩
        threeValues = some next ∧ next.bused = 42 ∧
      (next.buffer.drop 35).take 7 = pkEncode threeValues false := by
  rcases (pkEncodeSize_exact threeValues).2.2.2 ⟨fun _ => true, fun _ => 0⟩
    ⟨List.replicate 50 0, 35, 1, 3⟩ ⟨List.replicate 50 0, 35, 1, 3⟩ rfl (by decide) with
      ⟨next, hstep, hbused, hrow⟩
  exact ⟨next, hstep, hbused, hrow⟩

/-! ## Rows -/

/-- What a step asks of the check: room for the row, behind the header. -/
def HasRoom (m : Allocator) (payload : NetworkPayload) (breq : ℕ) : Prop :=
  ∀ q, cloudsyncBufferCheck m payload breq = (true, q) →
    q.bused + breq ≤ q.balloc ∧ headerSize ≤ q.bused

/-- A run of steps, each of which may find the allocator in another mood. -/
def encodeStep (payload : NetworkPayload) (e : Allocator × List Value) : Option NetworkPayload :=
  cloudsyncPayloadEncodeStep e.1 payload e.2

/-- A buffer is as the aggregate got it, or holds rows behind the header. -/
structure Reserved (payload : NetworkPayload) : Prop where
  empty : payload.nrows = 0 → payload.buffer = [] ∧ payload.bused = 0
  header : payload.nrows ≠ 0 → headerSize ≤ payload.bused
  fits : payload.bused ≤ payload.balloc

theorem reserved_zero : Reserved NetworkPayload.zero :=
  ⟨fun _ => ⟨rfl, rfl⟩, fun h => absurd rfl h, le_rfl⟩

theorem Reserved.entered {payload : NetworkPayload} (h : Reserved payload) (argv : List Value) :
    Reserved (payload.entered argv) := by
  rw [NetworkPayload.entered]
  split_ifs
  · exact ⟨h.empty, h.header, h.fits⟩
  · exact h

/-- The header is kept out of the first allocation, so a row that starts a
payload has to leave room for it there. -/
theorem Reserved.hasRoom_iff {payload : NetworkPayload} (h : Reserved payload) (m : Allocator)
    {breq : ℕ} (hbreq : 0 < breq) :
    HasRoom m payload breq ↔ (payload.nrows = 0 →
      m.ok (max breq CLOUDSYNC_PAYLOAD_MINBUF_SIZE) = true →
        headerSize + breq ≤ CLOUDSYNC_PAYLOAD_MINBUF_SIZE) := by
  have hheader : 0 < headerSize := by decide
  rw [HasRoom]
  by_cases hrows : payload.nrows = 0
  · rcases h.empty hrows with ⟨hbuffer, hbused⟩
    have hzero : payload.balloc = 0 := congrArg List.length hbuffer
    rcases cloudsyncBufferCheck_cases m payload breq with
      ⟨-, hok, hcheck⟩ | ⟨-, hok, hcheck⟩ | ⟨hle, -⟩
    · rw [hzero, Nat.zero_add] at hok
      simp [hcheck, hok]
    · rw [hzero, Nat.zero_add] at hok
      rw [hcheck]
      simp only [Prod.mk.injEq, true_and, forall_eq', hrows, if_true, hok, true_imp_iff,
        NetworkPayload.balloc, hbuffer, List.nil_append, List.length_map, List.length_range]
      omega
    · omega
  · have hbehind := h.header hrows
    have hfits := h.fits
    simp only [hrows, false_imp_iff, iff_true]
    intro q hq
    rcases cloudsyncBufferCheck_cases m payload breq with
      ⟨-, -, hcheck⟩ | ⟨-, -, hcheck⟩ | ⟨hle, hcheck⟩
    · rw [hcheck] at hq
      cases hq
    · rw [hcheck] at hq
      cases hq
      simp only [hrows, if_false, NetworkPayload.balloc, List.length_append, List.length_map,
        List.length_range] at hfits ⊢
      omega
    · rw [hcheck] at hq
      cases hq
      exact ⟨hle, hbehind⟩

theorem pkEncodeSize_pos {row : List Value} (h : row ≠ []) : 0 < pkEncodeSize row 0 := by
  rw [pkEncodeSize_zero]
  exact (List.length_pos_iff.mpr h).trans_le (length_le_pkEncodeValues row)

def Refused (m : Allocator) (payload : NetworkPayload) (breq : ℕ) : Prop :=
  payload.balloc < payload.bused + breq ∧
    m.ok (payload.balloc + max breq CLOUDSYNC_PAYLOAD_MINBUF_SIZE) = false

@[simp] theorem entered_nrows (payload : NetworkPayload) (argv : List Value) :
    (payload.entered argv).nrows = payload.nrows := by
  rw [NetworkPayload.entered]
  split_ifs <;> rfl

@[simp] theorem entered_buffer (payload : NetworkPayload) (argv : List Value) :
    (payload.entered argv).buffer = payload.buffer := by
  rw [NetworkPayload.entered]
  split_ifs <;> rfl

@[simp] theorem entered_bused (payload : NetworkPayload) (argv : List Value) :
    (payload.entered argv).bused = payload.bused := by
  rw [NetworkPayload.entered]
  split_ifs <;> rfl

theorem refused_entered (m : Allocator) (payload : NetworkPayload) (argv : List Value) (breq : ℕ) :
    Refused m (payload.entered argv) breq ↔ Refused m payload breq := by
  rw [Refused, NetworkPayload.balloc, entered_buffer, entered_bused]
  rfl

theorem encodeStep_of_refused {payload : NetworkPayload} {e : Allocator × List Value}
    (h : Refused e.1 payload (pkEncodeSize e.2 0)) :
    encodeStep payload e = some NetworkPayload.zero := by
  rw [← refused_entered e.1 payload e.2] at h
  rcases cloudsyncBufferCheck_cases e.1 (payload.entered e.2) (pkEncodeSize e.2 0) with
    ⟨-, -, hcheck⟩ | ⟨-, hok, -⟩ | ⟨hle, -⟩
  · rw [NetworkPayload.entered] at hcheck
    rw [encodeStep, cloudsyncPayloadEncodeStep, hcheck]
  · rw [h.2] at hok
    cases hok
  · exact absurd hle (not_le.mpr h.1)

/-- A step whose request is not refused writes its row after the check. -/
theorem encodeStep_of_granted {payload : NetworkPayload} {e : Allocator × List Value}
    (h : ¬ Refused e.1 payload (pkEncodeSize e.2 0)) : ∃ q,
      cloudsyncBufferCheck e.1 (payload.entered e.2) (pkEncodeSize e.2 0) = (true, q) ∧
      encodeStep payload e = (writeAt q.buffer q.bused (pkEncodeValues e.2)).map fun buffer =>
        ⟨buffer, q.bused + pkEncodeSize e.2 0, q.nrows + 1, q.ncols⟩ := by
  rw [← refused_entered e.1 payload e.2] at h
  have hstep : ∀ q, cloudsyncBufferCheck e.1 (payload.entered e.2) (pkEncodeSize e.2 0) =
      (true, q) → encodeStep payload e = (writeAt q.buffer q.bused (pkEncodeValues e.2)).map
        fun buffer => ⟨buffer, q.bused + pkEncodeSize e.2 0, q.nrows + 1, q.ncols⟩ := by
    intro q hcheck
    have hencode : pkEncode e.2 false = pkEncodeValues e.2 := rfl
    rw [NetworkPayload.entered] at hcheck
    rw [encodeStep, cloudsyncPayloadEncodeStep, hcheck, hencode]
    dsimp only
    cases hwrite : writeAt q.buffer q.bused (pkEncodeValues e.2) with
    | none => simp only [Option.bind_eq_bind, Option.bind_none, Option.map_none]
    | some b => simp only [Option.bind_eq_bind, Option.bind_some, Option.map_some]
  rcases cloudsyncBufferCheck_cases e.1 (payload.entered e.2) (pkEncodeSize e.2 0) with
    ⟨hgrow, hok, -⟩ | ⟨-, -, hcheck⟩ | ⟨-, hcheck⟩
  · exact absurd ⟨hgrow, hok⟩ h
  · exact ⟨_, hcheck, hstep _ hcheck⟩
  · exact ⟨_, hcheck, hstep _ hcheck⟩

/-- A step is refused and leaves an empty aggregate, or writes its row where the
check has found room. -/
theorem encodeStep_cases {payload next : NetworkPayload} {e : Allocator × List Value}
    (h : encodeStep payload e = some next) :
    Refused e.1 payload (pkEncodeSize e.2 0) ∧ next = NetworkPayload.zero ∨
      ¬ Refused e.1 payload (pkEncodeSize e.2 0) ∧ ∃ q,
        cloudsyncBufferCheck e.1 (payload.entered e.2) (pkEncodeSize e.2 0) = (true, q) ∧
        q.bused + pkEncodeSize e.2 0 ≤ q.balloc ∧ next.nrows = q.nrows + 1 ∧
        next.bused = q.bused + pkEncodeSize e.2 0 ∧ next.balloc = q.balloc := by
  by_cases hrefused : Refused e.1 payload (pkEncodeSize e.2 0)
  · left
    rw [encodeStep_of_refused hrefused, Option.some.injEq] at h
    exact ⟨hrefused, h.symm⟩
  · right
    rcases encodeStep_of_granted hrefused with ⟨q, hcheck, hstep⟩
    refine ⟨hrefused, q, hcheck, ?_⟩
    rw [hstep, Option.map_eq_some_iff] at h
    rcases h with ⟨b, hb, rfl⟩
    rw [writeAt, Option.ite_none_right_eq_some, Option.some.injEq] at hb
    rcases hb with ⟨hle, rfl⟩
    have hencode : (pkEncodeValues e.2).length = pkEncodeSize e.2 0 :=
      (pkEncodeSize_zero e.2).symm
    rw [hencode] at hle
    refine ⟨hle, rfl, rfl, ?_⟩
    simp only [NetworkPayload.balloc, List.length_append, List.length_take, List.length_drop,
      hencode]
    omega

theorem Reserved.encodeStep {payload next : NetworkPayload} (h : Reserved payload)
    {e : Allocator × List Value} (he : e.2 ≠ []) (hstep : encodeStep payload e = some next) :
    Reserved next := by
  have hbreq := pkEncodeSize_pos he
  have hentered := h.entered e.2
  rcases encodeStep_cases hstep with
    ⟨-, rfl⟩ | ⟨-, q, hcheck, hroom, hnrows, hbused, hballoc⟩
  · exact reserved_zero
  have hbehind : headerSize ≤ q.bused := by
    rcases cloudsyncBufferCheck_cases e.1 (payload.entered e.2) (pkEncodeSize e.2 0) with
      ⟨-, -, hq⟩ | ⟨-, -, hq⟩ | ⟨hle, hq⟩
    · rw [hcheck] at hq
      cases hq
    · rw [hcheck] at hq
      cases hq
      dsimp only
      split_ifs with hrows
      · exact le_rfl
      · exact hentered.header hrows
    · rw [hcheck] at hq
      cases hq
      apply hentered.header
      intro hrows
      rcases hentered.empty hrows with ⟨hbuffer, hzero⟩
      have hnothing : (payload.entered e.2).balloc = 0 := congrArg List.length hbuffer
      omega
  constructor
  · intro hrows
    rw [hnrows] at hrows
    exact absurd hrows (Nat.succ_ne_zero _)
  · intro _
    rw [hbused]
    exact hbehind.trans (Nat.le_add_right _ _)
  · rw [hbused, hballoc]
    exact hroom

/-- In every run of steps, whatever the allocator answers, the check leaves room for
the next row exactly when that row does not start a payload, or is small
enough to leave room for the header, or is refused its memory. -/
theorem hasRoom_iff_of_reachable {payload : NetworkPayload}
    (h : Reachable encodeStep (· = NetworkPayload.zero) (fun _ e => e.2 ≠ []) payload)
    (m : Allocator) (row : List Value) (hrow : row ≠ []) :
    HasRoom m (payload.entered row) (pkEncodeSize row 0) ↔ (payload.nrows = 0 →
      m.ok (max (pkEncodeSize row 0) CLOUDSYNC_PAYLOAD_MINBUF_SIZE) = true →
        pkEncodeSize row 0 ≤ 512 * 1024 - 32) := by
  have hreserved : Reserved payload := h.invariant
    (fun s hs => hs ▸ reserved_zero) (fun s e t hs he ht => hs.encodeStep he ht)
  rw [(hreserved.entered row).hasRoom_iff m (pkEncodeSize_pos hrow), entered_nrows, headerSize,
    CLOUDSYNC_PAYLOAD_MINBUF_SIZE]
  apply imp_congr_right
  intro _
  apply imp_congr_right
  intro _
  omega

/-- A small first row, and any row behind it, have room. -/
theorem hasRoom_second : ∃ next,
    encodeStep NetworkPayload.zero (⟨fun _ => true, fun _ => 0⟩, threeValues) = some next ∧
      HasRoom ⟨fun _ => true, fun _ => 0⟩ (NetworkPayload.zero.entered threeValues)
        (pkEncodeSize threeValues 0) ∧
      HasRoom ⟨fun _ => true, fun _ => 0⟩ (next.entered threeValues) (pkEncodeSize threeValues 0) := by
  have hne : threeValues ≠ [] := List.cons_ne_nil _ _
  have hfirst := (hasRoom_iff_of_reachable (.start rfl) ⟨fun _ => true, fun _ => 0⟩ threeValues
    hne).mpr fun _ _ => by decide
  rcases cloudsyncBufferCheck_cases ⟨fun _ => true, fun _ => 0⟩
    (NetworkPayload.zero.entered threeValues) (pkEncodeSize threeValues 0) with
      ⟨-, hok, -⟩ | ⟨-, -, hcheck⟩ | ⟨hle, -⟩
  · cases hok
  · rcases cloudsyncPayloadEncodeStep_advances hcheck (hfirst _ hcheck).1 with ⟨next, hstep, -⟩
    refine ⟨next, hstep, hfirst, ?_⟩
    exact (hasRoom_iff_of_reachable (.next (.start rfl) (_, threeValues) hne hstep) _ threeValues
      hne).mpr fun _ _ => by decide
  · exact absurd hle (by decide)

def wideBlob : Value := .blob ⟨List.replicate 524288 0, by rw [List.length_replicate]; norm_num⟩

theorem pkEncodeSize_blob {b : Bytes} {n : ℕ} (h : b.data.length = n) :
    pkEncodeSize [.blob b] 0 = 1 + n + pkEncodeNbytesNeeded (BitVec.ofNat 64 n) := by
  rw [pkEncodeSize, List.foldl_cons, List.foldl_nil, pkEncodeSizeValue, h, Nat.zero_add]

theorem pkEncodeSize_wideBlob : pkEncodeSize [wideBlob] 0 = 524292 := by
  have hnbytes : pkEncodeNbytesNeeded (BitVec.ofNat 64 524288) = 3 := by decide
  rw [wideBlob, pkEncodeSize_blob List.length_replicate, hnbytes]

/-- As the first row it gets exactly its size, from which the header is then taken. -/
theorem not_hasRoom_wideBlob : ¬ ∀ payload : NetworkPayload,
    Reachable encodeStep (· = NetworkPayload.zero) (fun _ e => e.2 ≠ []) payload →
      ∀ (m : Allocator) (row : List Value), row ≠ [] →
        HasRoom m (payload.entered row) (pkEncodeSize row 0) := by
  intro h
  have hroom := h NetworkPayload.zero (.start rfl) ⟨fun _ => true, fun _ => 0⟩ [wideBlob]
    (List.cons_ne_nil _ _)
  have hreserved := reserved_zero.entered [wideBlob]
  rw [pkEncodeSize_wideBlob, hreserved.hasRoom_iff _ (by norm_num)] at hroom
  exact absurd (hroom rfl rfl) (by decide)

end SqliteSync.Payload
