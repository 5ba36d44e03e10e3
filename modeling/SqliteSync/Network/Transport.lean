import SqliteSync.Causal.Transfer
import SqliteSync.Library.CString

/-!
# Bytes on their way

The server's answer arrives in pieces, which a callback appends to a buffer that grows as
needed; an upload is read from the blob in pieces. A request of which nothing is left to
receive is an answer with a body, one without, or an error whose text is the body of the
answer or the words of the library.
-/
namespace SqliteSync.Network
open Library Store Payload

def CLOUDSYNC_NETWORK_MINBUF_SIZE : ℕ := 512

/-! ## Receiving -/

/-- `network_buffer`; `balloc` is the length of the memory, and no memory is `NULL`. -/
structure NetworkBuffer where
  buffer : Option (List UInt8)
  bused : ℕ
  zeroTerm : Bool
deriving DecidableEq

namespace NetworkBuffer

def memory (data : NetworkBuffer) : List UInt8 := data.buffer.getD []

def balloc (data : NetworkBuffer) : ℕ := data.memory.length

/-- The buffer of a request that begins. -/
def empty (zeroTerm : Bool) : NetworkBuffer := ⟨none, 0, zeroTerm⟩

end NetworkBuffer

def networkBufferCheck (m : Allocator) (data : NetworkBuffer) (needed : ℕ) :
    Option NetworkBuffer :=
  if data.bused + needed > data.balloc then
    let needed := if needed < CLOUDSYNC_NETWORK_MINBUF_SIZE then CLOUDSYNC_NETWORK_MINBUF_SIZE
      else needed
    if m.ok (data.balloc + needed) then
      some { data with buffer := some (data.memory ++ (List.range needed).map m.junk) }
    else none
  else some data

/-- `network_receive_callback`; the outer `none` is a write outside the buffer, the inner
one a return of `-1`. -/
def networkReceiveCallback (m : Allocator) (data : NetworkBuffer) (ptr : List UInt8) :
    Option (Option NetworkBuffer) :=
  let ptrSize := if data.zeroTerm then ptr.length + 1 else ptr.length
  match networkBufferCheck m data ptrSize with
  | none => some none
  | some data => do
    let buffer ← writeAt data.memory data.bused ptr
    let bused := data.bused + ptr.length
    let buffer ← if data.zeroTerm then writeAt buffer bused [0] else some buffer
    some (some { data with buffer := data.buffer.map fun _ => buffer, bused := bused })

/-- The callback, piece by piece, until it returns `-1`. -/
def receiveAll (m : Allocator) : NetworkBuffer → List (List UInt8) → Option (Option NetworkBuffer)
  | data, [] => some (some data)
  | data, ptr :: rest =>
    match networkReceiveCallback m data ptr with
    | some (some data) => receiveAll m data rest
    | stopped => stopped

inductive ResultCode where
  | CLOUDSYNC_NETWORK_OK
  | CLOUDSYNC_NETWORK_ERROR
  | CLOUDSYNC_NETWORK_BUFFER
deriving DecidableEq

/-- `NETWORK_RESULT`; the buffer with all its memory. -/
structure NetworkResult where
  code : ResultCode
  buffer : Option (List UInt8)
  blen : ℕ
deriving DecidableEq

def CURLE_OK : ℕ := 0
def CURLE_WRITE_ERROR : ℕ := 23

/-- What the library makes of a request: whether it starts, the code for the URL, the pieces
of the body, the code in the end unless a piece was refused, the status of the answer, and
the text of an error. -/
structure Curl where
  easyInit : Bool
  setUrl : ℕ
  chunks : List (List UInt8)
  rc : ℕ
  responseCode : ℤ
  errbuf : CString
deriving DecidableEq

/-- The code of the transfer and the buffer it leaves, freed unless all went well. -/
def Curl.perform (m : Allocator) (zeroTerminated : Bool) (c : Curl) :
    Option (ℕ × Option NetworkBuffer) :=
  if c.setUrl ≠ CURLE_OK then some (c.setUrl, none)
  else
    (receiveAll m (.empty zeroTerminated) c.chunks).map fun received =>
      match received with
      | none => (CURLE_WRITE_ERROR, none)
      | some data => (c.rc, if c.rc = CURLE_OK then some data else none)

/-- `cloudsync_string_dup` of the error's text. -/
def Curl.errorCopy (m : Allocator) (c : Curl) : Option (List UInt8) :=
  if c.errbuf ≠ [] ∧ m.ok (c.errbuf.length + 1) = true then some (c.errbuf ++ [0]) else none

/-- `network_receive_buffer`; `none` is a write outside the buffer. -/
def networkReceiveBuffer (m : Allocator) (zeroTerminated : Bool) (c : Curl) :
    Option NetworkResult :=
  if c.easyInit then
    (c.perform m zeroTerminated).map fun (rc, data) =>
      let buffer := data.bind (·.buffer)
      let blen := (data.map (·.bused)).getD 0
      if rc = CURLE_OK ∧ c.responseCode < 400 then
        ⟨if buffer.isSome ∧ blen ≠ 0 then .CLOUDSYNC_NETWORK_BUFFER else .CLOUDSYNC_NETWORK_OK,
          buffer, blen⟩
      else
        ⟨.CLOUDSYNC_NETWORK_ERROR, buffer <|> c.errorCopy m, if buffer.isSome then blen else rc⟩
  else some ⟨.CLOUDSYNC_NETWORK_ERROR, none, 0⟩

/-! ## Uploading -/

structure NetworkReadData where
  data : List UInt8
  readPos : ℕ
deriving DecidableEq

/-- `network_read_callback` for `size * nitems` bytes: what it copies. -/
def networkReadCallback (rd : NetworkReadData) (maxRead : ℕ) : List UInt8 × NetworkReadData :=
  let bytesLeft := rd.data.length - rd.readPos
  let toCopy := if bytesLeft < maxRead then bytesLeft else maxRead
  ((rd.data.drop rd.readPos).take toCopy, { rd with readPos := rd.readPos + toCopy })

/-- What the library reads with requests of these sizes. -/
def readAll : NetworkReadData → List ℕ → List (List UInt8)
  | _, [] => []
  | rd, maxRead :: rest =>
    (networkReadCallback rd maxRead).1 :: readAll (networkReadCallback rd maxRead).2 rest

/-! ## What SQLite is told -/

/-- What a function of the network leaves as its result. -/
inductive SqlResult where
  | int (value : ℤ)
  | text (bytes : List UInt8)
  | error (text : CString)
  | applied (result : ApplyResult)

def textAt (memory : List UInt8) : Option CString :=
  if 0 ∈ memory then some (stringAt memory) else none

/-- `network_set_sqlite_result`; `none` is a read outside the buffer. -/
def networkSetSqliteResult (result : NetworkResult) : Option (ℤ × SqlResult) :=
  match result.code, result.buffer with
  | .CLOUDSYNC_NETWORK_OK, _ => some (0, .int 0)
  | .CLOUDSYNC_NETWORK_ERROR, none => some (-1, .error (ascii "Memory error."))
  | .CLOUDSYNC_NETWORK_ERROR, some memory => (textAt memory).map fun text => (-1, .error text)
  | .CLOUDSYNC_NETWORK_BUFFER, buffer =>
    some (toInt32 result.blen, .text ((buffer.getD []).take result.blen))

section
variable {n : ℕ} {schema : Fin n → TableContext}

/-- `network_download_changes` in an initialised context; `none` is an access outside what
was received, or a payload whose size no `int` holds. That there is a header is not
looked at. -/
def networkDownloadChanges (a : Applier) (m : Allocator) (r : Receiver) (cursor : CheckCursor)
    (y : Catalog schema) (c : Curl) : Option (ℤ × SqlResult × CheckCursor × Catalog schema) := do
  let result ← networkReceiveBuffer m false c
  if result.code = .CLOUDSYNC_NETWORK_BUFFER then
    let payload := (result.buffer.getD []).take result.blen
    if payload.length < headerSize ∨ 2 ^ 31 ≤ payload.length then none
    else
      (a.payloadApply r cursor y payload).map fun x => (x.1.rc, .applied x.1, x.1.cursor, x.2)
  else (networkSetSqliteResult result).map fun x => (x.1, x.2, cursor, y)

end

/-! ## However the body is cut -/

/-- The buffer holds what was received, with a NUL behind it where one is asked for, and
has at most `spare` bytes more. -/
structure Holds (m : Allocator) (spare : ℕ) (received : List UInt8) (data : NetworkBuffer) : Prop where
  bused : data.bused = received.length
  bytes : data.memory.take data.bused = received
  terminated : data.zeroTerm = true → data.buffer.isSome → data.memory[data.bused]? = some 0
  balloc : data.balloc ≤ data.bused + spare
  fresh : data.zeroTerm = false → ∀ b ∈ data.memory.drop data.bused, b ∈ Set.range m.junk
  allocated : data.zeroTerm = false → data.buffer.isSome → received ≠ []

namespace Holds
variable {m : Allocator} {spare : ℕ} {received : List UInt8} {data : NetworkBuffer}

theorem empty (zeroTerm : Bool) : Holds m spare [] (.empty zeroTerm) :=
  ⟨rfl, rfl, fun _ h => absurd h Bool.false_ne_true, Nat.zero_le _,
    fun _ _ h => absurd h List.not_mem_nil, fun _ h => absurd h Bool.false_ne_true⟩

theorem le_balloc (h : Holds m spare received data) : data.bused ≤ data.balloc := by
  have hlength := congrArg List.length h.bytes
  rw [List.length_take, ← h.bused] at hlength
  rw [NetworkBuffer.balloc]
  omega

end Holds

theorem networkBufferCheck_spec {m : Allocator} {data data' : NetworkBuffer} {needed : ℕ}
    (hle : data.bused ≤ data.balloc) (h : networkBufferCheck m data needed = some data') :
    data'.bused = data.bused ∧ data'.zeroTerm = data.zeroTerm ∧
      data'.bused + needed ≤ data'.balloc ∧
      (∃ fresh, data'.memory = data.memory ++ fresh ∧ ∀ b ∈ fresh, b ∈ Set.range m.junk) ∧
      (data' = data ∨ 0 < needed ∧
        data'.balloc ≤ data.bused + needed + max needed CLOUDSYNC_NETWORK_MINBUF_SIZE) := by
  rw [networkBufferCheck] at h
  by_cases hroom : data.bused + needed > data.balloc
  · rw [if_pos hroom, Option.ite_none_right_eq_some, Option.some.injEq] at h
    rcases h with ⟨-, rfl⟩
    have hgrown : needed ≤ (if needed < CLOUDSYNC_NETWORK_MINBUF_SIZE then
          CLOUDSYNC_NETWORK_MINBUF_SIZE else needed) ∧
        (if needed < CLOUDSYNC_NETWORK_MINBUF_SIZE then CLOUDSYNC_NETWORK_MINBUF_SIZE else needed) ≤
          max needed CLOUDSYNC_NETWORK_MINBUF_SIZE := by
      split_ifs <;> omega
    generalize (if needed < CLOUDSYNC_NETWORK_MINBUF_SIZE then CLOUDSYNC_NETWORK_MINBUF_SIZE
      else needed) = grown at hgrown ⊢
    have hballoc : (NetworkBuffer.mk (some (data.memory ++ (List.range grown).map m.junk)) data.bused
        data.zeroTerm).balloc = data.balloc + grown := by
      simp [NetworkBuffer.balloc, NetworkBuffer.memory]
    refine ⟨rfl, rfl, ?_, ⟨_, rfl, fun b hb => ?_⟩, .inr ⟨by omega, ?_⟩⟩
    · rw [hballoc]
      dsimp only
      omega
    · rcases List.mem_map.mp hb with ⟨k, -, rfl⟩
      exact ⟨k, rfl⟩
    · rw [hballoc]
      omega
  · rw [if_neg hroom, Option.some.injEq] at h
    subst h
    exact ⟨rfl, rfl, not_lt.mp hroom,
      ⟨[], (List.append_nil _).symm, fun _ h => absurd h List.not_mem_nil⟩, .inl rfl⟩

theorem networkBufferCheck_ne_none {m : Allocator} {data : NetworkBuffer} {needed : ℕ}
    (hm : ∀ k ≤ data.balloc + max needed CLOUDSYNC_NETWORK_MINBUF_SIZE, m.ok k = true) :
    networkBufferCheck m data needed ≠ none := by
  rw [networkBufferCheck]
  by_cases hroom : data.bused + needed > data.balloc
  · rw [if_pos hroom, if_pos]
    · exact Option.some_ne_none _
    · apply hm
      split_ifs <;> omega
  · rw [if_neg hroom]
    exact Option.some_ne_none _

theorem Holds.stored {m : Allocator} {spare : ℕ} {received b : List UInt8} {data : NetworkBuffer}
    (hlength : b.length = data.memory.length) (hbytes : b.take received.length = received)
    (hterm : data.zeroTerm = true → b[received.length]? = some 0)
    (hballoc : b.length ≤ received.length + spare)
    (hfresh : data.zeroTerm = false → ∀ x ∈ b.drop received.length, x ∈ Set.range m.junk)
    (halloc : data.zeroTerm = false → data.buffer.isSome → received ≠ []) :
    Holds m spare received
      { data with buffer := data.buffer.map fun _ => b, bused := received.length } := by
  have hmemory : NetworkBuffer.memory { data with
      buffer := data.buffer.map fun _ => b, bused := received.length } = b := by
    rw [NetworkBuffer.memory] at hlength ⊢
    cases hdata : data.buffer with
    | none =>
      rw [hdata] at hlength
      exact (List.length_eq_zero_iff.mp hlength).symm
    | some old => rfl
  refine ⟨rfl, by rw [hmemory, hbytes], fun hzero _ => ?_, ?_, fun hzero => ?_,
    fun hzero hsome => halloc hzero (by simpa using hsome)⟩
  · rw [hmemory]
    exact hterm hzero
  · rw [NetworkBuffer.balloc, hmemory]
    exact hballoc
  · rw [hmemory]
    exact hfresh hzero

theorem Holds.receive {m : Allocator} {spare : ℕ} {received : List UInt8} {data : NetworkBuffer}
    (h : Holds m spare received data) (ptr : List UInt8)
    (hspare : 2 * max (ptr.length + 1) CLOUDSYNC_NETWORK_MINBUF_SIZE ≤ spare) :
    ∃ r, networkReceiveCallback m data ptr = some r ∧
      (∀ data' ∈ r, Holds m spare (received ++ ptr) data' ∧ data'.zeroTerm = data.zeroTerm) ∧
      ((∀ k ≤ (received ++ ptr).length + 2 * spare, m.ok k = true) → r ≠ none) := by
  have hle := h.le_balloc
  have hbused := h.bused
  have hneeded : (if data.zeroTerm then ptr.length + 1 else ptr.length) ≤ ptr.length + 1 := by
    split_ifs <;> omega
  rw [networkReceiveCallback]
  dsimp only
  cases hcheck : networkBufferCheck m data (if data.zeroTerm then ptr.length + 1 else ptr.length) with
  | none =>
    refine ⟨none, rfl, fun data' hdata => absurd hdata (by simp), fun hm => ?_⟩
    refine absurd hcheck (networkBufferCheck_ne_none fun k hk => hm k ?_)
    have hballoc := h.balloc
    rw [List.length_append]
    omega
  | some grown =>
    rcases networkBufferCheck_spec hle hcheck with
      ⟨hused, hzero, hroom, ⟨fresh, hmemory, hjunk⟩, hgrown⟩
    have hlength : (received ++ ptr).length = grown.bused + ptr.length := by
      rw [List.length_append, hused, hbused]
    have hkept : grown.memory.take grown.bused = received := by
      rw [hmemory, hused, List.take_append_of_le_length hle, h.bytes]
    have hballoc : grown.memory.length ≤ (received ++ ptr).length + spare := by
      have hold := h.balloc
      change grown.balloc ≤ _
      rcases hgrown with rfl | ⟨-, hgrown⟩
      · omega
      · omega
    have hptr : grown.bused + ptr.length ≤ grown.memory.length := by
      have hroom : grown.bused + _ ≤ grown.memory.length := hroom
      split_ifs at hroom <;> omega
    rcases writeAt_of_le hptr with ⟨b, hb, hblength, hbtake⟩
    rw [hkept, ← hlength] at hbtake
    dsimp only
    rw [hb, Option.bind_eq_bind, Option.bind_some, ← hlength]
    by_cases hz : grown.zeroTerm = true
    · have hnul : (received ++ ptr).length + [(0 : UInt8)].length ≤ b.length := by
        have hroom : grown.bused + _ ≤ grown.memory.length := hroom
        rw [if_pos (hzero.symm.trans hz)] at hroom
        rw [hblength, hlength, List.length_singleton]
        exact hroom
      rcases writeAt_of_le hnul with ⟨b', hb', hb'length, hb'take⟩
      rw [if_pos hz, hb', Option.bind_some]
      rw [hbtake] at hb'take
      refine ⟨_, rfl, fun data' hdata => ?_, fun _ => Option.some_ne_none _⟩
      cases hdata
      refine ⟨.stored (hb'length.trans hblength) ?_ (fun _ => ?_) ?_ (fun h => ?_) fun h => ?_,
        hzero⟩
      · have htake := congrArg (List.take (received ++ ptr).length) hb'take
        rw [List.take_take, List.take_left, min_eq_left (Nat.le_add_right _ _)] at htake
        exact htake
      · have hget := congrArg (·[(received ++ ptr).length]?) hb'take
        simpa using hget
      · rw [hb'length, hblength]
        exact hballoc
      · exact absurd (hz.symm.trans h) (by decide)
      · exact absurd (hz.symm.trans h) (by decide)
    · rw [if_neg hz, Option.bind_some]
      refine ⟨_, rfl, fun data' hdata => ?_, fun _ => Option.some_ne_none _⟩
      cases hdata
      refine ⟨.stored hblength hbtake (fun h => absurd h hz) (hblength ▸ hballoc)
        (fun hfalse b' hb' => ?_) (fun hfalse hsome hnil => ?_), hzero⟩
      · -- behind the piece the memory is what it was
        rw [writeAt, if_pos hptr, Option.some_inj] at hb
        rw [← hb, hlength, List.drop_left' (by simp; omega), ← List.drop_drop, hused, hmemory,
          List.drop_append_of_le_length hle] at hb'
        rcases List.mem_append.mp (List.mem_of_mem_drop hb') with hold | hnew
        · exact h.fresh (hzero ▸ hfalse) b' hold
        · exact hjunk b' hnew
      · rcases List.append_eq_nil_iff.mp hnil with ⟨hreceived, rfl⟩
        rcases hgrown with rfl | ⟨hpos, -⟩
        · exact h.allocated hfalse hsome hreceived
        · rw [← hzero, if_neg hz] at hpos
          exact absurd hpos (lt_irrefl 0)

/-- However the body is cut, the buffer holds all of it, or a piece was refused. -/
theorem Holds.receiveAll {m : Allocator} {spare : ℕ} {received : List UInt8} {data : NetworkBuffer}
    (h : Holds m spare received data) (chunks : List (List UInt8))
    (hspare : ∀ ptr ∈ chunks, 2 * max (ptr.length + 1) CLOUDSYNC_NETWORK_MINBUF_SIZE ≤ spare) :
    ∃ r, receiveAll m data chunks = some r ∧
      (∀ data' ∈ r, Holds m spare (received ++ chunks.flatten) data' ∧
        data'.zeroTerm = data.zeroTerm) ∧
      ((∀ k ≤ (received ++ chunks.flatten).length + 2 * spare, m.ok k = true) → r ≠ none) := by
  induction chunks generalizing received data with
  | nil =>
    refine ⟨some data, rfl, fun data' hdata => ?_, fun _ => Option.some_ne_none _⟩
    cases hdata
    rw [List.flatten_nil, List.append_nil]
    exact ⟨h, rfl⟩
  | cons ptr chunks ih =>
    rcases h.receive ptr (hspare ptr List.mem_cons_self) with ⟨r, hr, hholds, hmemory⟩
    rw [Network.receiveAll, hr, List.flatten_cons, ← List.append_assoc]
    cases r with
    | none =>
      refine ⟨none, rfl, fun data' hdata => absurd hdata (by simp), fun hm => ?_⟩
      have hlength := (List.sublist_append_left (received ++ ptr) chunks.flatten).length_le
      exact absurd rfl (hmemory fun k hk => hm k (by omega))
    | some data' =>
      rcases hholds data' rfl with ⟨hdata, hzero⟩
      rcases ih hdata fun c hc => hspare c (.tail ptr hc) with ⟨r, hr, hrest, hmemory⟩
      exact ⟨r, hr, fun data hd => ⟨(hrest data hd).1, (hrest data hd).2.trans hzero⟩, hmemory⟩

/-- The body of the answer, once the transfer has ended well. -/
structure Curl.Complete (c : Curl) : Prop where
  easyInit : c.easyInit = true
  setUrl : c.setUrl = CURLE_OK
  rc : c.rc = CURLE_OK

instance (c : Curl) : Decidable c.Complete :=
  decidable_of_iff (c.easyInit = true ∧ c.setUrl = CURLE_OK ∧ c.rc = CURLE_OK)
    ⟨fun h => ⟨h.1, h.2.1, h.2.2⟩, fun h => ⟨h.easyInit, h.setUrl, h.rc⟩⟩

def Curl.body (c : Curl) : List UInt8 := c.chunks.flatten

/-- Room for a body of this length however it is cut. -/
def Curl.room (c : Curl) : ℕ :=
  c.body.length + 4 * max (c.body.length + 1) CLOUDSYNC_NETWORK_MINBUF_SIZE

/-- Nothing is written outside the buffer, and what a complete transfer leaves in it is the
body, unless a piece was refused for want of memory. -/
theorem Curl.perform_eq (c : Curl) (m : Allocator) (zeroTerminated : Bool) :
    ∃ rc data, c.perform m zeroTerminated = some (rc, data) ∧
      (rc ≠ CURLE_OK → data = none) ∧
      (rc = CURLE_OK → c.setUrl = CURLE_OK ∧ c.rc = CURLE_OK ∧
        ∃ b, data = some b ∧ Holds m (2 * max (c.body.length + 1) CLOUDSYNC_NETWORK_MINBUF_SIZE) c.body b ∧
          b.zeroTerm = zeroTerminated) ∧
      ((∀ k ≤ c.room, m.ok k = true) → c.setUrl = CURLE_OK → c.rc = CURLE_OK → rc = CURLE_OK) := by
  rw [perform]
  by_cases hurl : c.setUrl = CURLE_OK
  · rw [if_neg (not_not.mpr hurl)]
    have hspare : ∀ ptr ∈ c.chunks, 2 * max (ptr.length + 1) CLOUDSYNC_NETWORK_MINBUF_SIZE ≤
        2 * max (c.body.length + 1) CLOUDSYNC_NETWORK_MINBUF_SIZE := by
      intro ptr hptr
      have hlength : ptr.length ≤ c.body.length := (List.sublist_flatten_of_mem hptr).length_le
      omega
    rcases (Holds.empty zeroTerminated).receiveAll (m := m) c.chunks hspare with
      ⟨r, hr, hholds, hmemory⟩
    rw [hr, Option.map_some]
    cases r with
    | none =>
      refine ⟨CURLE_WRITE_ERROR, none, rfl, fun _ => rfl, fun h => absurd h (by decide),
        fun hm => absurd rfl (hmemory fun k hk => hm k (hk.trans ?_))⟩
      rw [List.nil_append, room, body]
      omega
    | some b =>
      refine ⟨c.rc, _, rfl, fun hrc => if_neg hrc, fun hrc => ⟨hurl, hrc, b, if_pos hrc, ?_⟩,
        fun _ _ hrc => hrc⟩
      exact hholds b rfl
  · rw [if_pos hurl]
    exact ⟨c.setUrl, none, rfl, fun _ => rfl, fun h => absurd h hurl, fun _ h => absurd h hurl⟩

/-- What a request ends with: an answer, whose body is in the buffer, or a failure without
one. -/
theorem networkReceiveBuffer_cases (c : Curl) (m : Allocator) (zeroTerminated : Bool) :
    ∃ result, networkReceiveBuffer m zeroTerminated c = some result ∧
      ((c.Complete ∧ ∃ b,
          Holds m (2 * max (c.body.length + 1) CLOUDSYNC_NETWORK_MINBUF_SIZE) c.body b ∧
          b.zeroTerm = zeroTerminated ∧
          result = if c.responseCode < 400 then
            ⟨if b.buffer.isSome ∧ b.bused ≠ 0 then .CLOUDSYNC_NETWORK_BUFFER else .CLOUDSYNC_NETWORK_OK,
              b.buffer, b.bused⟩
          else ⟨.CLOUDSYNC_NETWORK_ERROR, b.buffer <|> c.errorCopy m,
            if b.buffer.isSome then b.bused else CURLE_OK⟩) ∨
        (result.code = .CLOUDSYNC_NETWORK_ERROR ∧
          (result.buffer = none ∨ result.buffer = c.errorCopy m) ∧
          (c.Complete → ∃ k ≤ c.room, m.ok k = false))) := by
  rw [networkReceiveBuffer]
  by_cases hinit : c.easyInit = true
  · rw [if_pos hinit]
    rcases c.perform_eq m zeroTerminated with ⟨rc, data, hperform, hfail, hdone, hmemory⟩
    rw [hperform, Option.map_some]
    refine ⟨_, rfl, ?_⟩
    by_cases hrc : rc = CURLE_OK
    · rcases hdone hrc with ⟨hurl, hcode, b, rfl, hholds, hzero⟩
      refine .inl ⟨⟨hinit, hurl, hcode⟩, b, hholds, hzero, ?_⟩
      subst hrc
      by_cases hstatus : c.responseCode < 400
      · simp [hstatus]
      · simp [hstatus]
    · rw [hfail hrc]
      refine .inr ⟨?_, .inr ?_, fun hcomplete => ?_⟩
      · simp [hrc]
      · simp [hrc]
      · by_contra hall
        refine hrc (hmemory (fun k hk => ?_) hcomplete.setUrl hcomplete.rc)
        by_contra hok
        exact hall ⟨k, hk, (Bool.not_eq_true _).mp hok⟩
  · rw [if_neg hinit]
    exact ⟨_, rfl, .inr ⟨rfl, .inl rfl, fun h => absurd h.easyInit hinit⟩⟩

theorem Holds.buffer {m : Allocator} {spare : ℕ} {received : List UInt8} {b : NetworkBuffer}
    (h : Holds m spare received b) : (b.buffer.isSome ∧ b.bused ≠ 0 ↔ received ≠ []) ∧
      (b.buffer.getD []).take b.bused = received := by
  refine ⟨⟨?_, fun hne => ⟨?_, ?_⟩⟩, h.bytes⟩
  · rintro ⟨-, hused⟩ rfl
    exact hused h.bused
  · by_contra hnone
    have hbytes := h.bytes
    rw [NetworkBuffer.memory, Option.not_isSome_iff_eq_none.mp hnone, Option.getD_none,
      List.take_nil] at hbytes
    exact hne hbytes.symm
  · rw [h.bused]
    exact fun hzero => hne (List.length_eq_zero_iff.mp hzero)

theorem networkSetSqliteResult_ne_applied {result : NetworkResult} {rc : ℤ} {x : ApplyResult} :
    networkSetSqliteResult result ≠ some (rc, .applied x) := by
  rw [networkSetSqliteResult]
  split
  · simp
  · simp
  · cases textAt _ <;> simp
  · simp

/-- An answer has a body exactly where the transfer was complete and left one. -/
theorem networkReceiveBuffer_body (c : Curl) (m : Allocator) (zeroTerminated : Bool) :
    ∃ result, networkReceiveBuffer m zeroTerminated c = some result ∧
      (result.code = .CLOUDSYNC_NETWORK_BUFFER → c.Complete ∧ c.responseCode < 400 ∧ c.body ≠ [] ∧
        (result.buffer.getD []).take result.blen = c.body) ∧
      ((∀ k ≤ c.room, m.ok k = true) → c.Complete → c.responseCode < 400 → c.body ≠ [] →
        result.code = .CLOUDSYNC_NETWORK_BUFFER) := by
  rcases networkReceiveBuffer_cases c m zeroTerminated with
    ⟨result, hresult, ⟨hcomplete, b, hholds, -, rfl⟩ | ⟨hcode, -, hmemory⟩⟩
  · refine ⟨_, hresult, fun hcode => ?_, fun _ _ hstatus hne => ?_⟩
    · by_cases hstatus : c.responseCode < 400
      · rw [if_pos hstatus] at hcode ⊢
        refine ⟨hcomplete, hstatus, hholds.buffer.1.mp ?_, hholds.buffer.2⟩
        by_contra hempty
        rw [if_neg hempty] at hcode
        cases hcode
      · rw [if_neg hstatus] at hcode
        cases hcode
    · rw [if_pos hstatus]
      exact if_pos (hholds.buffer.1.mpr hne)
  · refine ⟨result, hresult, fun h => ?_, fun hm hcomplete => ?_⟩
    · rw [hcode] at h
      cases h
    · rcases hmemory hcomplete with ⟨k, hk, hnone⟩
      rw [hm k hk] at hnone
      cases hnone

section
variable {n : ℕ} {schema : Fin n → TableContext}

theorem networkDownloadChanges_eq (a : Applier) {m : Allocator} (r : Receiver)
    (cursor : CheckCursor) (y : Catalog schema) {c : Curl} (hcomplete : c.Complete)
    (hstatus : c.responseCode < 400) (hsize : headerSize ≤ c.body.length)
    (hint : c.body.length < 2 ^ 31) (hm : ∀ k ≤ c.room, m.ok k = true) :
    networkDownloadChanges a m r cursor y c =
      (a.payloadApply r cursor y c.body).map fun x => (x.1.rc, .applied x.1, x.1.cursor, x.2) := by
  rcases networkReceiveBuffer_body c m false with ⟨result, hresult, hbody, hall⟩
  have hne : c.body ≠ [] := by
    intro hnil
    rw [hnil] at hsize
    exact absurd hsize (by decide)
  have hcode := hall hm hcomplete hstatus hne
  rw [networkDownloadChanges, hresult, Option.bind_eq_bind, Option.bind_some, if_pos hcode,
    (hbody hcode).2.2.2]
  exact if_neg (not_or.mpr ⟨hsize.not_gt, hint.not_ge⟩)

/-- A download is applied exactly when it was complete, and then all of the body is: as much
as if it had been given in one piece, however it was cut, whatever the buffer went through.
What fails on the way is not applied in part. -/
theorem networkDownloadChanges_applied_iff (a : Applier) {m : Allocator} (r : Receiver)
    (cursor : CheckCursor) (y : Catalog schema) (c : Curl) (hint : c.body.length < 2 ^ 31)
    (hm : ∀ k ≤ c.room, m.ok k = true) (rc : ℤ) (x : ApplyResult) (cursor' : CheckCursor)
    (y' : Catalog schema) :
    networkDownloadChanges a m r cursor y c = some (rc, .applied x, cursor', y') ↔
      c.Complete ∧ c.responseCode < 400 ∧ headerSize ≤ c.body.length ∧
        a.payloadApply r cursor y c.body = some (x, y') ∧ rc = x.rc ∧ cursor' = x.cursor := by
  constructor
  · intro h
    rcases networkReceiveBuffer_body c m false with ⟨result, hresult, hbody, -⟩
    rw [networkDownloadChanges, hresult, Option.bind_eq_bind, Option.bind_some] at h
    by_cases hcode : result.code = .CLOUDSYNC_NETWORK_BUFFER
    · rcases hbody hcode with ⟨hcomplete, hstatus, -, hbytes⟩
      rw [if_pos hcode, hbytes, Option.ite_none_left_eq_some, Option.map_eq_some_iff] at h
      rcases h with ⟨hsize, ⟨x, y'⟩, happly, heq⟩
      cases heq
      exact ⟨hcomplete, hstatus, not_lt.mp (not_or.mp hsize).1, happly, rfl, rfl⟩
    · rw [if_neg hcode, Option.map_eq_some_iff] at h
      rcases h with ⟨⟨rc, result⟩, hresult, heq⟩
      cases heq
      exact absurd hresult networkSetSqliteResult_ne_applied
  · rintro ⟨hcomplete, hstatus, hsize, happly, rfl, rfl⟩
    rw [networkDownloadChanges_eq a r cursor y hcomplete hstatus hsize hint hm, happly]
    rfl

def noRows : List UInt8 :=
  [0x43, 0x4C, 0x53, 0x59, 1, 0, 8, 12, 0, 0, 0, 0, 0, 9, 0, 0, 0, 0, 0, 0, 0, 0, 0, 0, 0, 0,
    0, 0, 0, 0, 0, 0]

/-- A payload of no rows, received in three pieces. -/
theorem networkDownloadChanges_applied_noRows : ∃ x,
    networkDownloadChanges (.sound true) ⟨fun _ => true, fun _ => 1⟩ plainReceiver ⟨none, none⟩
      (Catalog.ofTasks (Replica.empty _ [1])) ⟨true, 0, [noRows.take 5, [], noRows.drop 5], 0, 200, []⟩ =
        some (0, .applied x, x.cursor, Catalog.ofTasks (Replica.empty _ [1])) :=
  ⟨⟨0, none, ⟨some 0, none⟩, []⟩, (networkDownloadChanges_applied_iff (.sound true) plainReceiver
    ⟨none, none⟩ _ _ (by decide) (fun _ _ => rfl) _ _ _ _).mpr
      ⟨⟨rfl, rfl, rfl⟩, by decide, by decide, rfl, rfl, rfl⟩⟩

/-- Requests of any sizes read the blob from where they are, in order and nothing else. -/
theorem readAll_flatten (rd : NetworkReadData) (requests : List ℕ) :
    (readAll rd requests).flatten = (rd.data.drop rd.readPos).take requests.sum := by
  induction requests generalizing rd with
  | nil => rfl
  | cons maxRead rest ih =>
    have hlength : (rd.data.drop rd.readPos).length = rd.data.length - rd.readPos := List.length_drop
    rw [readAll, List.flatten_cons, ih, networkReadCallback, List.sum_cons]
    dsimp only
    rw [← List.drop_drop, ← hlength]
    split_ifs with hleft
    · rw [List.take_length, List.drop_length, List.take_nil, List.append_nil,
        List.take_of_length_le (by omega)]
    · exact (List.take_add).symm

/-- What one database uploads, read by the library in pieces of any sizes, and another one
downloads, cut in any way, is applied as if it had never been in pieces. -/
theorem networkDownloadChanges_readAll (a : Applier) {m : Allocator} (r : Receiver)
    (cursor : CheckCursor) (y : Catalog schema) {blob : List UInt8} {requests : List ℕ}
    (hread : blob.length ≤ requests.sum) (hsize : headerSize ≤ blob.length)
    (hint : blob.length < 2 ^ 31) {c : Curl}
    (hbody : c.body = (readAll ⟨blob, 0⟩ requests).flatten) (hcomplete : c.Complete)
    (hstatus : c.responseCode < 400) (hm : ∀ k ≤ c.room, m.ok k = true) :
    networkDownloadChanges a m r cursor y c =
      (a.payloadApply r cursor y blob).map fun x => (x.1.rc, .applied x.1, x.1.cursor, x.2) := by
  rw [readAll_flatten, List.drop_zero, List.take_of_length_le hread] at hbody
  rw [networkDownloadChanges_eq a r cursor y hcomplete hstatus (hbody ▸ hsize) (hbody ▸ hint) hm,
    hbody]

/-- A payload of no rows, read in three pieces and received in two. -/
theorem networkDownloadChanges_readAll_noRows :
    networkDownloadChanges (.sound true) ⟨fun _ => true, fun _ => 1⟩ plainReceiver ⟨none, none⟩
        (Catalog.ofTasks (Replica.empty _ [1])) ⟨true, 0, [noRows.take 7, noRows.drop 7], 0, 200, []⟩ =
      ((Applier.sound true).payloadApply plainReceiver ⟨none, none⟩
        (Catalog.ofTasks (Replica.empty _ [1])) noRows).map fun x =>
          (x.1.rc, .applied x.1, x.1.cursor, x.2) :=
  networkDownloadChanges_readAll (.sound true) plainReceiver ⟨none, none⟩ _
    (by decide : noRows.length ≤ [10, 10, 20].sum) (by decide) (by decide) rfl ⟨rfl, rfl, rfl⟩
    (by decide) fun _ _ => rfl

theorem networkSetSqliteResult_ne_none_iff {result : NetworkResult}
    (hcode : result.code = .CLOUDSYNC_NETWORK_ERROR) :
    networkSetSqliteResult result ≠ none ↔ ∀ memory ∈ result.buffer, 0 ∈ memory := by
  rw [networkSetSqliteResult, hcode]
  cases result.buffer with
  | none => simp
  | some memory => simp [textAt]

theorem nul_mem_errorCopy {c : Curl} {m : Allocator} : ∀ memory ∈ c.errorCopy m, 0 ∈ memory := by
  intro memory hmemory
  rw [Option.mem_def, Curl.errorCopy, Option.ite_none_right_eq_some, Option.some_inj] at hmemory
  rw [← hmemory.2]
  simp

/-- The text of an error is always within its memory where a NUL was asked for. -/
theorem networkSetSqliteResult_ne_none {m : Allocator} {c : Curl} {result : NetworkResult}
    (h : networkReceiveBuffer m true c = some result) : networkSetSqliteResult result ≠ none := by
  rcases networkReceiveBuffer_cases c m true with
    ⟨result', hresult, ⟨-, b, hholds, hzero, rfl⟩ | ⟨hcode, hbuffer, -⟩⟩
  · rw [hresult, Option.some_inj] at h
    subst h
    by_cases hstatus : c.responseCode < 400
    · rw [if_pos hstatus, networkSetSqliteResult]
      split_ifs <;> simp
    · rw [if_neg hstatus, networkSetSqliteResult_ne_none_iff rfl]
      intro memory hmemory
      cases hb : b.buffer with
      | none =>
        rw [hb] at hmemory
        exact nul_mem_errorCopy memory hmemory
      | some old =>
        rw [hb] at hmemory
        cases hmemory
        have hnul := hholds.terminated hzero (by rw [hb]; rfl)
        rw [NetworkBuffer.memory, hb, Option.getD_some] at hnul
        exact List.mem_of_getElem? hnul
  · rw [hresult, Option.some_inj] at h
    subst h
    rw [networkSetSqliteResult_ne_none_iff hcode]
    intro memory hmemory
    rcases hbuffer with hnone | hcopy
    · rw [hnone] at hmemory
      cases hmemory
    · exact nul_mem_errorCopy memory (hcopy ▸ hmemory)

/-- Where fresh memory has no NUL, a NUL in the buffer is one of the body. -/
theorem Holds.nul_mem_iff {m : Allocator} (hjunk : ∀ k, m.junk k ≠ 0) {spare : ℕ}
    {received : List UInt8} {b : NetworkBuffer} (h : Holds m spare received b)
    (hzero : b.zeroTerm = false) : 0 ∈ b.memory ↔ 0 ∈ received := by
  have hsplit := List.take_append_drop b.bused b.memory
  rw [h.bytes] at hsplit
  rw [← hsplit, List.mem_append]
  refine or_iff_left fun hnul => ?_
  rcases h.fresh hzero 0 hnul with ⟨k, hk⟩
  exact hjunk k hk

/-- Where fresh memory has no NUL, a download touches nothing but what it received exactly
when an answer that is no error is a payload that can be applied, and the body of one that
is an error ends its own text. -/
theorem networkDownloadChanges_safe_iff (a : Applier) {m : Allocator} (hjunk : ∀ k, m.junk k ≠ 0)
    (r : Receiver) (cursor : CheckCursor) (y : Catalog schema) (c : Curl)
    (hint : c.body.length < 2 ^ 31) (hm : ∀ k ≤ c.room, m.ok k = true) :
    networkDownloadChanges a m r cursor y c ≠ none ↔
      ¬ c.Complete ∨ c.body = [] ∨ if c.responseCode < 400 then
        headerSize ≤ c.body.length ∧ a.payloadApply r cursor y c.body ≠ none
      else 0 ∈ c.body := by
  rcases networkReceiveBuffer_cases c m false with
    ⟨result, hresult, ⟨hcomplete, b, hholds, hzero, rfl⟩ | ⟨hcode, hbuffer, hmemory⟩⟩
  · rw [networkDownloadChanges, hresult, Option.bind_eq_bind, Option.bind_some]
    by_cases hstatus : c.responseCode < 400
    · rw [if_pos hstatus, if_pos hstatus]
      by_cases hnil : c.body = []
      · have hempty := mt hholds.buffer.1.mp (not_not.mpr hnil)
        rw [if_neg hempty]
        simp [networkSetSqliteResult, hnil]
      · rw [if_pos (hholds.buffer.1.mpr hnil), if_pos rfl, hholds.buffer.2]
        dsimp only
        by_cases hsize : c.body.length < headerSize
        · rw [if_pos (.inl hsize)]
          simp [hcomplete, hnil, hsize]
        · rw [if_neg (not_or.mpr ⟨hsize, hint.not_ge⟩)]
          simp [hcomplete, hnil, not_lt.mp hsize]
    · rw [if_neg hstatus, if_neg hstatus, if_neg (by simp), ne_eq, Option.map_eq_none_iff, ← ne_eq,
        networkSetSqliteResult_ne_none_iff rfl]
      cases hb : b.buffer with
      | none =>
        have hnil : c.body = [] := by
          by_contra hne
          have hsome := (hholds.buffer.1.mpr hne).1
          rw [hb] at hsome
          cases hsome
        simp only [hnil, true_or, or_true, iff_true]
        exact nul_mem_errorCopy
      | some memory =>
        have hne := hholds.allocated hzero (by rw [hb]; rfl)
        have hnul := hholds.nul_mem_iff hjunk hzero
        rw [NetworkBuffer.memory, hb, Option.getD_some] at hnul
        simp [hcomplete, hne, hnul]
  · have hincomplete : ¬ c.Complete := by
      intro hcomplete
      rcases hmemory hcomplete with ⟨k, hk, hnone⟩
      rw [hm k hk] at hnone
      cases hnone
    rw [networkDownloadChanges, hresult, Option.bind_eq_bind, Option.bind_some,
      if_neg (by rw [hcode]; decide), ne_eq, Option.map_eq_none_iff, ← ne_eq,
      networkSetSqliteResult_ne_none_iff hcode]
    refine iff_of_true (fun memory hmemory => ?_) (.inl hincomplete)
    rcases hbuffer with hnone | hcopy
    · rw [hnone] at hmemory
      cases hmemory
    · exact nul_mem_errorCopy memory (hcopy ▸ hmemory)

/-- The page of a server that does not find what was asked for. -/
theorem networkDownloadChanges_safe_page :
    networkDownloadChanges (.sound true) ⟨fun _ => true, fun _ => 1⟩ plainReceiver ⟨none, none⟩
      (Catalog.ofTasks (Replica.empty _ [1])) ⟨true, 0, [ascii "not found"], 0, 404, []⟩ = none :=
  not_not.mp ((networkDownloadChanges_safe_iff (.sound true)
    (fun _ => (by decide : (1 : UInt8) ≠ 0)) plainReceiver ⟨none, none⟩ _ _ (by decide)
      fun _ _ => rfl).not.mpr (by decide))

end
end SqliteSync.Network
