import SqliteSync.Library.Machine
import SqliteSync.Codec.Encode

/-!
# `pk_decode`: bytes back to callback calls

The buffer is the list of the bytes allocated. Reading outside it has no
defined result, so every read is an `Option` and `none` is a read past the end.
The source never compares its position with `blen`; neither does the model.
-/
namespace SqliteSync.Codec
open Library

/-- The arguments of one callback call. `pval` is a position in the buffer. -/
structure CbArgs where
  index : ℕ
  type : ℕ
  ival : ℤ
  dval : BitVec 64
  pval : Option ℕ
deriving DecidableEq

/-- A callback returns whether it accepted the value, and its new `xdata`. -/
abbrev Callback (σ : Type) := σ → CbArgs → Bool × σ

def pkDecodeU8 (buffer : List UInt8) (bseek : ℕ) : Option (ℕ × ℕ) :=
  buffer[bseek]?.map fun b => (b.toNat, bseek + 1)

/-- `pk_decode_int64`: `value = (value << 8) | byte`, `nbytes` times. -/
def pkDecodeInt64 (buffer : List UInt8) : ℕ → BitVec 64 → ℕ → Option (BitVec 64 × ℕ)
  | 0, value, bseek => some (value, bseek)
  | nbytes + 1, value, bseek => do
    let (b, bseek) ← pkDecodeU8 buffer bseek
    pkDecodeInt64 buffer nbytes (value <<< 8 ||| BitVec.ofNat 64 b) bseek

/-- `pk_decode_data`: the new position; `blen` is an `int32_t` added to a `size_t`. -/
def pkDecodeData (bseek : ℕ) (length : BitVec 64) : ℕ :=
  (bseek + ((length.setWidth 32).signExtend 64).toNat) % 2 ^ 64

/-- The `switch` of `pk_decode`: the callback's arguments and the position after the value. -/
def pkDecodeSwitch (buffer : List UInt8) (i type nbytes bseek : ℕ) : Option (CbArgs × ℕ) :=
  match type with
  | 6 => some (⟨i, 1, (BitVec.intMin 64).toInt, 0, none⟩, bseek)
  | 0 => do
    let (value, bseek) ← pkDecodeInt64 buffer nbytes 0 bseek
    some (⟨i, 1, (-value).toInt, 0, none⟩, bseek)
  | 1 => do
    let (value, bseek) ← pkDecodeInt64 buffer nbytes 0 bseek
    some (⟨i, 1, value.toInt, 0, none⟩, bseek)
  | 7 => do
    let (value, bseek) ← pkDecodeInt64 buffer 8 0 bseek
    some (⟨i, 2, 0, Double.neg value, none⟩, bseek)
  | 2 => do
    let (value, bseek) ← pkDecodeInt64 buffer 8 0 bseek
    some (⟨i, 2, 0, value, none⟩, bseek)
  | 5 => some (⟨i, 5, 0, 0, none⟩, bseek)
  | type => do  -- TEXT and BLOB
    let (length, bseek) ← pkDecodeInt64 buffer nbytes 0 bseek
    some (⟨i, type, length.toInt, 0, some bseek⟩, pkDecodeData bseek length)

/-- The body of the loop of `pk_decode` up to the callback call. -/
def pkDecodeValue (buffer : List UInt8) (i bseek : ℕ) : Option (CbArgs × ℕ) := do
  let (type_byte, bseek) ← pkDecodeU8 buffer bseek
  pkDecodeSwitch buffer i (type_byte &&& 0x07) ((type_byte >>> 3) &&& 0x1F) bseek

/-- How a decoding loop ended: all items decoded, with the final position, or
stopped by the callback, after which the caller's position is not written. -/
inductive DecodeEnd where
  | done (bseek : ℕ)
  | refused
deriving DecidableEq

/-- The loop of `pk_decode` over the remaining `count` items, from item `i`. -/
def pkDecodeItems {σ : Type} (buffer : List UInt8) (cb : Callback σ) :
    ℕ → ℕ → ℕ → σ → Option (DecodeEnd × σ)
  | 0, _, bseek, xdata => some (.done bseek, xdata)
  | count + 1, i, bseek, xdata => do
    let (args, bseek) ← pkDecodeValue buffer i bseek
    match cb xdata args with
    | (false, xdata) => some (.refused, xdata)
    | (true, xdata) => pkDecodeItems buffer cb count (i + 1) bseek xdata

/-- What `pk_decode` returns: the return code, `*seek` afterwards, the callback's data. -/
structure DecodeResult (σ : Type) where
  rc : ℤ
  seek : ℕ
  xdata : σ

/-- `pk_decode`; a `count` of `-1` is read from the buffer. -/
def pkDecode {σ : Type} (buffer : List UInt8) (count : ℤ) (seek : ℕ) (cb : Callback σ)
    (xdata : σ) : Option (DecodeResult σ) := do
  let (count, bseek) ←
    if count = -1 then (pkDecodeU8 buffer seek).map fun (n, bseek) => ((n : ℤ), bseek)
    else some (count, seek)
  match ← pkDecodeItems buffer cb (sizeT count) 0 bseek xdata with
  | (.refused, xdata) => some ⟨-1, seek, xdata⟩
  | (.done bseek, xdata) => some ⟨count, bseek, xdata⟩

def pkDecodePrikey {σ : Type} (buffer : List UInt8) (cb : Callback σ) (xdata : σ) :
    Option (DecodeResult σ) := do
  let (count, bseek) ← pkDecodeU8 buffer 0
  pkDecode buffer count bseek cb xdata

/-- The `ival` bytes at a position, where the buffer holds that many. -/
def cbBytes (buffer : List UInt8) (ival : ℤ) (p : ℕ) : Option Bytes :=
  if h : 0 ≤ ival ∧ p + ival.toNat ≤ buffer.length ∧ ival.toNat < 2 ^ 31 then
    some ⟨(buffer.drop p).take ival.toNat, by
      rw [List.length_take]
      omega⟩
  else none

/-- The SQLite value a callback call presents; `none` for a slice outside the
buffer, a NaN or an over-long slice, which are no values. -/
def CbArgs.value (buffer : List UInt8) (a : CbArgs) : Option Value :=
  match a.type, a.pval with
  | 1, _ => some (.integer (BitVec.ofInt 64 a.ival))
  | 2, _ => if h : a.dval.toNat % 2 ^ 63 ≤ 0x7FF0000000000000 then some (.float ⟨a.dval, h⟩) else none
  | 3, some p => (cbBytes buffer a.ival p).map .text
  | 4, some p => (cbBytes buffer a.ival p).map .blob
  | 5, _ => some .null
  | _, _ => none

end SqliteSync.Codec
