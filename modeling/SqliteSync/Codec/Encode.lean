import SqliteSync.Value

/-!
# `pk_encode`: values as bytes

Each value is one tag byte, whose low three bits are the type and whose high
five bits count the number bytes after it, followed by those bytes and, for
TEXT and BLOB, by the content. Numbers are big-endian and sign-folded.
-/
namespace SqliteSync.Codec

/- The codes SQLite leaves free in the three type bits. -/
def SQLITE_NEGATIVE_INTEGER : ℕ := 0
def SQLITE_MAX_NEGATIVE_INTEGER : ℕ := 6
def SQLITE_NEGATIVE_FLOAT : ℕ := 7

def pkEncodeNbytesNeeded (value : BitVec 64) : ℕ :=
  if value.toInt ≤ 0x7F then 1
  else if value.toInt ≤ 0x7FFF then 2
  else if value.toInt ≤ 0x7FFFFF then 3
  else if value.toInt ≤ 0x7FFFFFFF then 4
  else if value.toInt ≤ 0x7FFFFFFFFF then 5
  else if value.toInt ≤ 0x7FFFFFFFFFFF then 6
  else if value.toInt ≤ 0x7FFFFFFFFFFFFF then 7
  else 8

/-- `pk_encode_u8`, as the byte written. -/
def pkEncodeU8 (value : ℕ) : List UInt8 := [UInt8.ofNat value]

/-- `pk_encode_int64`, as the bytes written: the low `nbytes` bytes, highest first. -/
def pkEncodeInt64 (value : BitVec 64) (nbytes : ℕ) : List UInt8 :=
  (List.range nbytes).map fun i =>
    UInt8.ofBitVec ((value.sshiftRight (8 * (nbytes - 1 - i))).setWidth 8)

/-- The tag byte `(nbytes << 3) | type`. -/
def typeByte (nbytes type : ℕ) : ℕ := nbytes <<< 3 ||| type

/-- One round of the loop of `pk_encode`: the bytes written for one value. -/
def pkEncodeValue (v : Value) : List UInt8 :=
  match v with
  | .integer value =>
    if value = BitVec.intMin 64 then pkEncodeU8 SQLITE_MAX_NEGATIVE_INTEGER
    else
      let (value, type) :=
        if value.toInt < 0 then (-value, SQLITE_NEGATIVE_INTEGER) else (value, sqlite3ValueType v)
      let nbytes := pkEncodeNbytesNeeded value
      pkEncodeU8 (typeByte nbytes type) ++ pkEncodeInt64 value nbytes
  | .float d =>
    let (value, type) :=
      if Double.isNegative d.bits then (Double.neg d.bits, SQLITE_NEGATIVE_FLOAT)
      else (d.bits, sqlite3ValueType v)
    pkEncodeU8 type ++ pkEncodeInt64 value 8
  | .text s => encodeBytes s
  | .blob b => encodeBytes b
  | .null => pkEncodeU8 (sqlite3ValueType v)
where
  /-- TEXT and BLOB share the branch: tag, length, content. -/
  encodeBytes (b : Bytes) : List UInt8 :=
    let len := BitVec.ofNat 64 b.data.length
    let nbytes := pkEncodeNbytesNeeded len
    pkEncodeU8 (typeByte nbytes (sqlite3ValueType v)) ++ pkEncodeInt64 len nbytes ++ b.data

/-- The loop of `pk_encode`. -/
def pkEncodeValues : List Value → List UInt8
  | [] => []
  | v :: vs => pkEncodeValue v ++ pkEncodeValues vs

/-- `pk_encode`, as the bytes written from the start of the buffer. -/
def pkEncode (argv : List Value) (isPrikey : Bool) : List UInt8 :=
  if isPrikey then pkEncodeU8 argv.length ++ pkEncodeValues argv else pkEncodeValues argv

def pkEncodePrikey (argv : List Value) : List UInt8 := pkEncode argv true

/-- One round of the loop of `pk_encode_size`. -/
def pkEncodeSizeValue : Value → ℕ
  | .integer val =>
    if val = BitVec.intMin 64 then 1
    else 1 + pkEncodeNbytesNeeded (if val.toInt < 0 then -val else val)
  | .float _ => 1 + 8
  | .text s => 1 + s.data.length + pkEncodeNbytesNeeded (BitVec.ofNat 64 s.data.length)
  | .blob b => 1 + b.data.length + pkEncodeNbytesNeeded (BitVec.ofNat 64 b.data.length)
  | .null => 1

def pkEncodeSize (argv : List Value) (reserved : ℕ) : ℕ :=
  argv.foldl (fun required v => required + pkEncodeSizeValue v) reserved

/-! ## The estimate is the number of bytes written -/

@[simp] theorem pkEncodeU8_length (n : ℕ) : (pkEncodeU8 n).length = 1 := rfl

@[simp] theorem pkEncodeInt64_length (v : BitVec 64) (n : ℕ) : (pkEncodeInt64 v n).length = n := by
  simp [pkEncodeInt64]

theorem pkEncodeNbytesNeeded_le (v : BitVec 64) : pkEncodeNbytesNeeded v ≤ 8 := by
  unfold pkEncodeNbytesNeeded
  split_ifs <;> omega

theorem pkEncodeValue_length (v : Value) : (pkEncodeValue v).length = pkEncodeSizeValue v := by
  cases v with
  | integer value =>
    by_cases hm : value = BitVec.intMin 64
    · simp [pkEncodeValue, pkEncodeSizeValue, hm]
    · by_cases hn : value.toInt < 0 <;>
        simp [pkEncodeValue, pkEncodeSizeValue, hm, hn]
  | float d => by_cases hn : Double.isNegative d.bits <;> simp [pkEncodeValue, pkEncodeSizeValue, hn]
  | text s =>
    simp only [pkEncodeValue, pkEncodeValue.encodeBytes, List.length_append, pkEncodeU8_length,
      pkEncodeInt64_length, pkEncodeSizeValue]
    omega
  | blob b =>
    simp only [pkEncodeValue, pkEncodeValue.encodeBytes, List.length_append, pkEncodeU8_length,
      pkEncodeInt64_length, pkEncodeSizeValue]
    omega
  | null => rfl

theorem pkEncodeSizeValue_pos (v : Value) : 0 < pkEncodeSizeValue v := by
  cases v <;> simp only [pkEncodeSizeValue] <;> first | omega | (split_ifs <;> omega)

/-- The size estimate is the reserve plus the bytes the encoding loop writes. -/
theorem pkEncodeSize_eq (argv : List Value) (r : ℕ) :
    pkEncodeSize argv r = r + (pkEncodeValues argv).length := by
  induction argv generalizing r with
  | nil => rfl
  | cons v vs ih =>
    rw [pkEncodeSize, List.foldl_cons]
    change pkEncodeSize vs (r + pkEncodeSizeValue v) = _
    rw [ih, pkEncodeValues, List.length_append, pkEncodeValue_length, Nat.add_assoc]

theorem length_le_pkEncodeValues (argv : List Value) :
    argv.length ≤ (pkEncodeValues argv).length := by
  induction argv with
  | nil => simp
  | cons v vs ih =>
    have := pkEncodeSizeValue_pos v
    rw [pkEncodeValues, List.length_append, pkEncodeValue_length, List.length_cons]
    omega

end SqliteSync.Codec
