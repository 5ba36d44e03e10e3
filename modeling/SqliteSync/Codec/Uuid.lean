import SqliteSync.Library.CString
import SqliteSync.Library.Lexicographic
import SqliteSync.Value

/-!
# UUIDs in order

A UUID starts with the milliseconds of its making, the highest byte first, and goes on at
random but for the bits of its version and its variant. Its texts are in the order of its
bytes.
-/
namespace SqliteSync.Codec
open Library

abbrev UUID_LEN : ℕ := 16
def UUID_STR_MAXLEN : ℕ := 37

structure Uuid where
  bytes : List UInt8
  length : bytes.length = UUID_LEN

namespace Uuid

def byte (u : Uuid) (i : Fin UUID_LEN) : UInt8 := u.bytes.get (i.cast u.length.symm)

@[ext] theorem ext {u v : Uuid} (h : u.bytes = v.bytes) : u = v := by
  cases u
  cases v
  cases h
  rfl

def timestamp (u : Uuid) : UInt64 :=
  (u.byte 0).toUInt64 <<< 40 ||| (u.byte 1).toUInt64 <<< 32 ||| (u.byte 2).toUInt64 <<< 24 |||
    (u.byte 3).toUInt64 <<< 16 ||| (u.byte 4).toUInt64 <<< 8 ||| (u.byte 5).toUInt64

end Uuid

/-- The time of a `timespec` in milliseconds. -/
def milliseconds (tvSec tvNsec : ℕ) : UInt64 :=
  UInt64.ofNat tvSec * 1000 + UInt64.ofNat (tvNsec / 1000000)

/-- `cloudsync_uuid_v7`, by the random bytes and the time; `none` is a return of `-1`. -/
def cloudsyncUuidV7 (entropy : Option Uuid) (ts : Option (ℕ × ℕ)) : Option Uuid := do
  let value ← entropy
  let (tvSec, tvNsec) ← ts
  let timestamp := milliseconds tvSec tvNsec
  some ⟨[((timestamp >>> 40) &&& 0xFF).toUInt8, ((timestamp >>> 32) &&& 0xFF).toUInt8,
      ((timestamp >>> 24) &&& 0xFF).toUInt8, ((timestamp >>> 16) &&& 0xFF).toUInt8,
      ((timestamp >>> 8) &&& 0xFF).toUInt8, (timestamp &&& 0xFF).toUInt8,
      (value.byte 6 &&& 0x0F) ||| 0x70, value.byte 7, (value.byte 8 &&& 0x3F) ||| 0x80] ++
        value.bytes.drop 9, by simp [value.length, UUID_LEN]⟩

/-- A digit of `%x`. -/
def hexDigit (d : ℕ) : UInt8 := UInt8.ofNat (if d < 10 then 48 + d else 87 + d)

/-- `%02x`. -/
def hexByte (b : UInt8) : CString := [hexDigit (b.toNat / 16), hexDigit (b.toNat % 16)]

def cloudsyncUuidV7Stringify (uuid : Uuid) (dashFormat : Bool) : CString :=
  let group (first last : ℕ) := ((uuid.bytes.drop first).take (last - first)).flatMap hexByte
  (if dashFormat then
    group 0 4 ++ ascii "-" ++ group 4 6 ++ ascii "-" ++ group 6 8 ++ ascii "-" ++ group 8 10 ++
      ascii "-" ++ group 10 16
  else group 0 16).take (UUID_STR_MAXLEN - 1)

/-- `cloudsync_uuid_v7_string`; `cloudsync_uuid` gives it with dashes, and SQL's NULL for `none`. -/
def cloudsyncUuidV7String (entropy : Option Uuid) (ts : Option (ℕ × ℕ)) (dashFormat : Bool) :
    Option CString :=
  (cloudsyncUuidV7 entropy ts).map (cloudsyncUuidV7Stringify · dashFormat)

def cloudsyncUuidV7Compare (value1 value2 : Uuid) : ℤ :=
  let t1 := value1.timestamp
  let t2 := value2.timestamp
  if t1 = t2 then memcmp UUID_LEN value1.bytes value2.bytes else if t1 > t2 then 1 else -1

/-! ## The order of the bytes -/

theorem map_toNat_lt_iff (s t : List UInt8) : s.map UInt8.toNat < t.map UInt8.toNat ↔ s < t := by
  induction s generalizing t with
  | nil => cases t <;> simp
  | cons a s ih =>
    cases t with
    | nil => simp
    | cons b t =>
      rw [List.map_cons, List.map_cons, List.cons_lt_cons_iff, List.cons_lt_cons_iff, ih,
        UInt8.lt_iff_toNat_lt, UInt8.toNat_inj]

theorem memcmp_neg_iff {s t : List UInt8} (h : s.length = t.length) :
    memcmp s.length s t < 0 ↔ s < t := by
  induction s generalizing t with
  | nil =>
    rw [List.length_nil] at h
    rw [List.length_eq_zero_iff.mp h.symm]
    simp [memcmp]
  | cons a s ih =>
    cases t with
    | nil => cases h
    | cons b t =>
      rw [List.length_cons, memcmp, List.cons_lt_cons_iff, UInt8.lt_iff_toNat_lt]
      by_cases hab : a = b
      · rw [if_neg (not_not.mpr hab), ih (Nat.succ.inj h)]
        simp [hab]
      · rw [if_pos hab]
        simp [hab]

theorem memcmp_eq_zero_iff {s t : List UInt8} (h : s.length = t.length) :
    memcmp s.length s t = 0 ↔ s = t := by
  induction s generalizing t with
  | nil =>
    rw [List.length_nil] at h
    rw [List.length_eq_zero_iff.mp h.symm]
    simp [memcmp]
  | cons a s ih =>
    cases t with
    | nil => cases h
    | cons b t =>
      rw [List.length_cons, memcmp, List.cons.injEq]
      by_cases hab : a = b
      · rw [if_neg (not_not.mpr hab), ih (Nat.succ.inj h)]
        simp [hab]
      · have hne := uint8_toNat_ne hab
        rw [if_pos hab]
        exact iff_of_false (by omega) fun heq => hab heq.1

/-! ## The timestamp in the first bytes -/

theorem shiftLeft_or {a b k : ℕ} (hb : b < 2 ^ k) : a <<< k ||| b = a * 2 ^ k + b := by
  rw [← Nat.shiftLeft_add_eq_or_of_lt hb, Nat.shiftLeft_eq]

theorem place_lt (a : UInt8) {b k : ℕ} (hb : b < 2 ^ k) : a.toNat * 2 ^ k + b < 2 ^ (k + 8) := by
  have ha := a.toNat_lt
  have hmul : (a.toNat + 1) * 2 ^ k ≤ 2 ^ 8 * 2 ^ k := Nat.mul_le_mul_right _ ha
  rw [add_mul, one_mul, ← pow_add, add_comm 8 k] at hmul
  omega

theorem toNat_shiftLeft {k : ℕ} (hk : k ≤ 40) (b : UInt8) :
    (b.toUInt64 <<< UInt64.ofNat k).toNat = b.toNat <<< k := by
  have hb := b.toNat_lt
  have hmod : k % 2 ^ 64 % 64 = k := by omega
  rw [UInt64.toNat_shiftLeft, UInt8.toNat_toUInt64, UInt64.toNat_ofNat', hmod, Nat.shiftLeft_eq]
  apply Nat.mod_eq_of_lt
  have hpow : 2 ^ k ≤ 2 ^ 40 := Nat.pow_le_pow_right (by norm_num) hk
  calc b.toNat * 2 ^ k ≤ 255 * 2 ^ 40 := Nat.mul_le_mul (by omega) hpow
    _ < 2 ^ 64 := by norm_num

theorem toNat_shifts (a b c d e f : UInt8) :
    (a.toUInt64 <<< 40 ||| b.toUInt64 <<< 32 ||| c.toUInt64 <<< 24 ||| d.toUInt64 <<< 16 |||
      e.toUInt64 <<< 8 ||| f.toUInt64).toNat =
        ofBigEndian 256 [a.toNat, b.toNat, c.toNat, d.toNat, e.toNat, f.toNat] := by
  have h40 : (a.toUInt64 <<< 40).toNat = a.toNat <<< 40 := toNat_shiftLeft (by norm_num) a
  have h32 : (b.toUInt64 <<< 32).toNat = b.toNat <<< 32 := toNat_shiftLeft (by norm_num) b
  have h24 : (c.toUInt64 <<< 24).toNat = c.toNat <<< 24 := toNat_shiftLeft (by norm_num) c
  have h16 : (d.toUInt64 <<< 16).toNat = d.toNat <<< 16 := toNat_shiftLeft (by norm_num) d
  have h8 : (e.toUInt64 <<< 8).toNat = e.toNat <<< 8 := toNat_shiftLeft (by norm_num) e
  rw [UInt64.toNat_or, UInt64.toNat_or, UInt64.toNat_or, UInt64.toNat_or, UInt64.toNat_or,
    UInt8.toNat_toUInt64, h40, h32, h24, h16, h8, Nat.or_assoc, Nat.or_assoc, Nat.or_assoc,
    Nat.or_assoc]
  have he := place_lt e f.toNat_lt
  have hd := place_lt d he
  have hc := place_lt c hd
  have hb := place_lt b hc
  rw [shiftLeft_or f.toNat_lt, shiftLeft_or he, shiftLeft_or hd, shiftLeft_or hc, shiftLeft_or hb]
  simp only [ofBigEndian_cons, List.length_cons, List.length_nil]
  simp [ofBigEndian]

namespace Uuid

theorem take_six (u : Uuid) :
    u.bytes.take 6 = [u.byte 0, u.byte 1, u.byte 2, u.byte 3, u.byte 4, u.byte 5] := by
  have hlength := u.length
  apply List.ext_getElem
  · simp [hlength, UUID_LEN]
  · intro i h₁ h₂
    have hi : i < 6 := by simpa using h₂
    interval_cases i <;> simp [byte, UUID_LEN]

theorem timestamp_toNat (u : Uuid) :
    u.timestamp.toNat = ofBigEndian 256 ((u.bytes.take 6).map UInt8.toNat) := by
  rw [timestamp, toNat_shifts, take_six]
  rfl

variable (u v : Uuid)

theorem length_map_take : ((u.bytes.take 6).map UInt8.toNat).length = 6 := by
  simp [u.length, UUID_LEN]

theorem byte_lt : ∀ d ∈ (u.bytes.take 6).map UInt8.toNat, d < 256 := by
  intro d hd
  rcases List.mem_map.mp hd with ⟨b, -, rfl⟩
  exact b.toNat_lt

theorem timestamp_lt_iff : u.timestamp < v.timestamp ↔ u.bytes.take 6 < v.bytes.take 6 := by
  rw [UInt64.lt_iff_toNat_lt, timestamp_toNat, timestamp_toNat, ofBigEndian_lt_iff (by norm_num)
    u.byte_lt v.byte_lt (u.length_map_take.trans v.length_map_take.symm), map_toNat_lt_iff]

theorem timestamp_eq_iff : u.timestamp = v.timestamp ↔ u.bytes.take 6 = v.bytes.take 6 := by
  rw [← UInt64.toNat_inj, timestamp_toNat, timestamp_toNat, ofBigEndian_inj_iff (by norm_num)
    u.byte_lt v.byte_lt (u.length_map_take.trans v.length_map_take.symm)]
  exact (List.map_injective_iff.mpr fun a b h => UInt8.toNat_inj.mp h).eq_iff

theorem bytes_lt_iff (k : ℕ) : u.bytes < v.bytes ↔ u.bytes.take k < v.bytes.take k ∨
    u.bytes.take k = v.bytes.take k ∧ u.bytes.drop k < v.bytes.drop k := by
  rw [← append_lt_append_iff (by simp [u.length, v.length]), List.take_append_drop,
    List.take_append_drop]

end Uuid

theorem cloudsyncUuidV7Compare_neg_iff (u v : Uuid) :
    cloudsyncUuidV7Compare u v < 0 ↔ u.bytes < v.bytes := by
  rw [cloudsyncUuidV7Compare]
  by_cases heq : u.timestamp = v.timestamp
  · rw [if_pos heq, ← u.length, memcmp_neg_iff (u.length.trans v.length.symm)]
  · have hne := mt UInt64.toNat_inj.mp heq
    rw [if_neg heq, u.bytes_lt_iff v 6, ← u.timestamp_eq_iff, ← u.timestamp_lt_iff]
    simp only [heq, false_and, or_false, gt_iff_lt, UInt64.lt_iff_toNat_lt]
    split_ifs with hgt
    · exact iff_of_false (by norm_num) (by omega)
    · exact iff_of_true (by norm_num) (by omega)

theorem cloudsyncUuidV7Compare_eq_zero_iff (u v : Uuid) :
    cloudsyncUuidV7Compare u v = 0 ↔ u = v := by
  rw [cloudsyncUuidV7Compare]
  by_cases heq : u.timestamp = v.timestamp
  · rw [if_pos heq, ← u.length, memcmp_eq_zero_iff (u.length.trans v.length.symm)]
    exact ⟨Uuid.ext, fun h => congrArg Uuid.bytes h⟩
  · rw [if_neg heq]
    refine iff_of_false ?_ fun h => heq (congrArg Uuid.timestamp h)
    split_ifs <;> norm_num

/-! ## The texts are in the order of the bytes -/

theorem hexDigit_toNat {d : ℕ} (hd : d < 16) :
    (hexDigit d).toNat = if d < 10 then 48 + d else 87 + d := by
  rw [hexDigit, UInt8.toNat_ofNat']
  apply Nat.mod_eq_of_lt
  split_ifs <;> omega

theorem hexDigit_lt_iff {d e : ℕ} (hd : d < 16) (he : e < 16) :
    hexDigit d < hexDigit e ↔ d < e := by
  rw [UInt8.lt_iff_toNat_lt, hexDigit_toNat hd, hexDigit_toNat he]
  split_ifs <;> omega

theorem hexDigit_inj_iff {d e : ℕ} (hd : d < 16) (he : e < 16) :
    hexDigit d = hexDigit e ↔ d = e := by
  rw [← UInt8.toNat_inj, hexDigit_toNat hd, hexDigit_toNat he]
  split_ifs <;> omega

theorem hexByte_lt_iff (a b : UInt8) : hexByte a < hexByte b ↔ a < b := by
  have ha := a.toNat_lt
  have hb := b.toNat_lt
  rw [hexByte, hexByte, List.cons_lt_cons_iff, List.cons_lt_cons_iff,
    hexDigit_lt_iff (by omega) (by omega), hexDigit_inj_iff (by omega) (by omega),
    hexDigit_lt_iff (by omega) (by omega), UInt8.lt_iff_toNat_lt]
  simp only [List.not_lt_nil, and_false, or_false]
  omega

theorem hexByte_injective : Function.Injective hexByte := by
  intro a b h
  have ha := a.toNat_lt
  have hb := b.toNat_lt
  rw [hexByte, hexByte, List.cons.injEq, List.cons.injEq, hexDigit_inj_iff (by omega) (by omega),
    hexDigit_inj_iff (by omega) (by omega)] at h
  apply UInt8.toNat_inj.mp
  omega

theorem length_hexByte (b : UInt8) : (hexByte b).length = 2 := rfl

theorem length_flatMap_hexByte (bytes : List UInt8) :
    (bytes.flatMap hexByte).length = 2 * bytes.length := by
  induction bytes with
  | nil => rfl
  | cons b bytes ih =>
    rw [List.flatMap_cons, List.length_append, length_hexByte, ih, List.length_cons]
    ring

def dashed : List ℕ → List UInt8 → CString
  | [], bytes => bytes.flatMap hexByte
  | size :: sizes, bytes => (bytes.take size).flatMap hexByte ++ 45 :: dashed sizes (bytes.drop size)

section
variable {s t : List UInt8}

theorem length_take_eq (h : s.length = t.length) (size : ℕ) :
    (s.take size).length = (t.take size).length := by
  rw [List.length_take, List.length_take, h]

theorem length_words_eq (h : s.length = t.length) (size : ℕ) :
    ((s.take size).flatMap hexByte).length = ((t.take size).flatMap hexByte).length := by
  rw [length_flatMap_hexByte, length_flatMap_hexByte, length_take_eq h]

theorem length_drop_eq (h : s.length = t.length) (size : ℕ) :
    (s.drop size).length = (t.drop size).length := by
  rw [List.length_drop, List.length_drop, h]

theorem dashed_lt_iff (sizes : List ℕ) (h : s.length = t.length) :
    dashed sizes s < dashed sizes t ↔ s < t := by
  induction sizes generalizing s t with
  | nil => exact flatMap_lt_flatMap_iff length_hexByte hexByte_lt_iff hexByte_injective h
  | cons size sizes ih =>
    have hsplit : s.take size ++ s.drop size < t.take size ++ t.drop size ↔ _ :=
      append_lt_append_iff (length_take_eq h size)
    rw [List.take_append_drop, List.take_append_drop] at hsplit
    rw [dashed, dashed, append_lt_append_iff (length_words_eq h size), List.cons_lt_cons_iff,
      ih (length_drop_eq h size), hsplit,
      flatMap_lt_flatMap_iff length_hexByte hexByte_lt_iff hexByte_injective (length_take_eq h size),
      flatMap_inj_iff length_hexByte hexByte_injective (length_take_eq h size)]
    simp

theorem dashed_inj_iff (sizes : List ℕ) (h : s.length = t.length) :
    dashed sizes s = dashed sizes t ↔ s = t := by
  induction sizes generalizing s t with
  | nil => exact flatMap_inj_iff length_hexByte hexByte_injective h
  | cons size sizes ih =>
    constructor
    · intro heq
      rcases List.append_inj heq (length_words_eq h size) with ⟨htake, hdrop⟩
      rw [flatMap_inj_iff length_hexByte hexByte_injective (length_take_eq h size)] at htake
      rw [List.cons.injEq, ih (length_drop_eq h size)] at hdrop
      rw [← List.take_append_drop size s, htake, hdrop.2, List.take_append_drop]
    · rintro rfl
      rfl

end

theorem cloudsyncUuidV7Stringify_dashed (u : Uuid) (dashFormat : Bool) :
    cloudsyncUuidV7Stringify u dashFormat =
      dashed (if dashFormat then [4, 2, 2, 2] else []) u.bytes := by
  have hlength : u.bytes.length = 16 := u.length
  have hlast : (u.bytes.drop 10).take 6 = u.bytes.drop 10 := by
    rw [List.take_of_length_le]
    rw [List.length_drop, hlength]
  rw [cloudsyncUuidV7Stringify, List.take_of_length_le]
  · cases dashFormat with
    | false =>
      change (u.bytes.take 16).flatMap hexByte = u.bytes.flatMap hexByte
      rw [List.take_of_length_le hlength.le]
    | true => simp [dashed, ascii, hlast]
  · cases dashFormat with
    | false =>
      change ((u.bytes.take 16).flatMap hexByte).length ≤ 36
      rw [length_flatMap_hexByte, List.take_of_length_le hlength.le, hlength]
      norm_num
    | true =>
      simp only [if_true, List.length_append, length_flatMap_hexByte, List.length_take,
        List.length_drop, hlength]
      decide

/-- Two UUIDs compare as their texts do, with dashes or without, and are the same where
their texts are. -/
theorem cloudsyncUuidV7Stringify_order (u v : Uuid) (dashFormat : Bool) :
    (cloudsyncUuidV7Stringify u dashFormat < cloudsyncUuidV7Stringify v dashFormat ↔
        cloudsyncUuidV7Compare u v < 0) ∧
      (cloudsyncUuidV7Stringify u dashFormat = cloudsyncUuidV7Stringify v dashFormat ↔
        cloudsyncUuidV7Compare u v = 0) ∧
      (cloudsyncUuidV7Compare u v = 0 ↔ u = v) := by
  have hlength := u.length.trans v.length.symm
  rw [cloudsyncUuidV7Stringify_dashed, cloudsyncUuidV7Stringify_dashed, dashed_lt_iff _ hlength,
    dashed_inj_iff _ hlength, cloudsyncUuidV7Compare_neg_iff, cloudsyncUuidV7Compare_eq_zero_iff]
  exact ⟨Iff.rfl, ⟨Uuid.ext, fun h => congrArg Uuid.bytes h⟩, Iff.rfl⟩

/-! ## UUIDs that are made one after the other -/

theorem toNat_low (x : UInt64) : (x &&& 0xFF).toUInt8.toNat = x.toNat % 256 := by
  have hand : x.toNat &&& 255 = x.toNat % 256 := Nat.and_two_pow_sub_one_eq_mod x.toNat 8
  rw [UInt64.toNat_toUInt8, UInt64.toNat_and]
  change (x.toNat &&& 255) % 256 = _
  rw [hand, Nat.mod_mod]

theorem toNat_octet {k : ℕ} (hk : k < 64) (x : UInt64) :
    ((x >>> UInt64.ofNat k) &&& 0xFF).toUInt8.toNat = x.toNat / 2 ^ k % 256 := by
  have hmod : k % 2 ^ 64 % 64 = k := by omega
  rw [toNat_low, UInt64.toNat_shiftRight, UInt64.toNat_ofNat', hmod, Nat.shiftRight_eq_div_pow]

theorem toNat_mark {b mark : UInt8} {m k : ℕ} (hb : b.toNat < 2 ^ k) (hmark : mark.toNat = m <<< k) :
    (b ||| mark).toNat = m * 2 ^ k + b.toNat := by
  rw [UInt8.toNat_or, hmark, Nat.or_comm, shiftLeft_or hb]

theorem mark_lt_iff {a b mark : UInt8} {m k : ℕ} (ha : a.toNat < 2 ^ k) (hb : b.toNat < 2 ^ k)
    (hmark : mark.toNat = m <<< k) : a ||| mark < b ||| mark ↔ a < b := by
  rw [UInt8.lt_iff_toNat_lt, toNat_mark ha hmark, toNat_mark hb hmark, UInt8.lt_iff_toNat_lt]
  omega

theorem mark_inj_iff {a b mark : UInt8} {m k : ℕ} (ha : a.toNat < 2 ^ k) (hb : b.toNat < 2 ^ k)
    (hmark : mark.toNat = m <<< k) : a ||| mark = b ||| mark ↔ a = b := by
  rw [← UInt8.toNat_inj, toNat_mark ha hmark, toNat_mark hb hmark, ← UInt8.toNat_inj]
  omega

theorem toNat_version (b : UInt8) : (b &&& 0x0F).toNat < 2 ^ 4 := by
  rw [UInt8.toNat_and]
  exact Nat.and_lt_two_pow _ (by decide)

theorem toNat_variant (b : UInt8) : (b &&& 0x3F).toNat < 2 ^ 6 := by
  rw [UInt8.toNat_and]
  exact Nat.and_lt_two_pow _ (by decide)

/-- What is kept of the random bytes. -/
def Uuid.kept (u : Uuid) : List UInt8 :=
  (u.byte 6 &&& 0x0F) :: u.byte 7 :: (u.byte 8 &&& 0x3F) :: u.bytes.drop 9

theorem timestamp_of_cloudsyncUuidV7 {r u : Uuid} {tvSec tvNsec : ℕ}
    (h : cloudsyncUuidV7 (some r) (some (tvSec, tvNsec)) = some u) :
    u.timestamp.toNat = (milliseconds tvSec tvNsec).toNat % 2 ^ 48 := by
  rw [Uuid.timestamp_toNat]
  cases h
  simp only [List.cons_append, List.take_succ_cons, List.take_zero, List.map_cons, List.map_nil]
  generalize milliseconds tvSec tvNsec = ms
  have h40 : ((ms >>> 40) &&& 0xFF).toUInt8.toNat = _ := toNat_octet (by norm_num) ms
  have h32 : ((ms >>> 32) &&& 0xFF).toUInt8.toNat = _ := toNat_octet (by norm_num) ms
  have h24 : ((ms >>> 24) &&& 0xFF).toUInt8.toNat = _ := toNat_octet (by norm_num) ms
  have h16 : ((ms >>> 16) &&& 0xFF).toUInt8.toNat = _ := toNat_octet (by norm_num) ms
  have h8 : ((ms >>> 8) &&& 0xFF).toUInt8.toNat = _ := toNat_octet (by norm_num) ms
  rw [h40, h32, h24, h16, h8, toNat_low]
  simp only [ofBigEndian_cons, List.length_cons, List.length_nil]
  simp only [ofBigEndian, List.reverse_nil, Nat.ofDigits_nil]
  omega

theorem drop_of_cloudsyncUuidV7 {r u : Uuid} {ts : ℕ × ℕ}
    (h : cloudsyncUuidV7 (some r) (some ts) = some u) :
    u.bytes.drop 6 = ((r.byte 6 &&& 0x0F) ||| 0x70) :: r.byte 7 :: ((r.byte 8 &&& 0x3F) ||| 0x80) ::
      r.bytes.drop 9 := by
  cases h
  rfl

/-- Texts of UUIDs are in the order of the milliseconds they were made in, as far as six
bytes hold them, and those of one millisecond in that of what is kept of their random
bytes. -/
theorem cloudsyncUuidV7String_order {r r' : Uuid} {tvSec tvNsec tvSec' tvNsec' : ℕ}
    {dashFormat : Bool} {text text' : CString}
    (h : cloudsyncUuidV7String (some r) (some (tvSec, tvNsec)) dashFormat = some text)
    (h' : cloudsyncUuidV7String (some r') (some (tvSec', tvNsec')) dashFormat = some text') :
    text < text' ↔
      (milliseconds tvSec tvNsec).toNat % 2 ^ 48 < (milliseconds tvSec' tvNsec').toNat % 2 ^ 48 ∨
        (milliseconds tvSec tvNsec).toNat % 2 ^ 48 = (milliseconds tvSec' tvNsec').toNat % 2 ^ 48 ∧
          r.kept < r'.kept := by
  rcases Option.map_eq_some_iff.mp h with ⟨u, hu, rfl⟩
  rcases Option.map_eq_some_iff.mp h' with ⟨u', hu', rfl⟩
  rw [cloudsyncUuidV7Stringify_dashed, cloudsyncUuidV7Stringify_dashed,
    dashed_lt_iff _ (u.length.trans u'.length.symm), u.bytes_lt_iff u' 6, ← u.timestamp_lt_iff,
    ← u.timestamp_eq_iff, UInt64.lt_iff_toNat_lt, ← UInt64.toNat_inj,
    timestamp_of_cloudsyncUuidV7 hu, timestamp_of_cloudsyncUuidV7 hu', drop_of_cloudsyncUuidV7 hu,
    drop_of_cloudsyncUuidV7 hu', Uuid.kept, Uuid.kept]
  have hversion : (0x70 : UInt8).toNat = 7 <<< 4 := rfl
  have hvariant : (0x80 : UInt8).toNat = 2 <<< 6 := rfl
  simp only [List.cons_lt_cons_iff, mark_lt_iff (toNat_version _) (toNat_version _) hversion,
    mark_inj_iff (toNat_version _) (toNat_version _) hversion,
    mark_lt_iff (toNat_variant _) (toNat_variant _) hvariant,
    mark_inj_iff (toNat_variant _) (toNat_variant _) hvariant]

/-- The highest of all random bytes, and one millisecond later the lowest. -/
theorem cloudsyncUuidV7String_order_next : ∃ text text',
    cloudsyncUuidV7String (some ⟨List.replicate 16 0xFF, rfl⟩) (some (1700000000, 0)) true =
        some text ∧
      cloudsyncUuidV7String (some ⟨List.replicate 16 0, rfl⟩) (some (1700000000, 1000000)) true =
        some text' ∧ text < text' :=
  ⟨_, _, rfl, rfl, (cloudsyncUuidV7String_order rfl rfl).mpr (.inl (by decide))⟩

example : cloudsyncUuidV7String (some ⟨List.replicate 16 0xFF, rfl⟩) (some (1700000000, 0)) true =
    some (ascii "018bcfe5-6800-7fff-bfff-ffffffffffff") := by
  decide +kernel

end SqliteSync.Codec
