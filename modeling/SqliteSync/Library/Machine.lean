import Mathlib.Tactic

/-!
# Machine integers

The casts of C, and unsigned numbers in memory: `beBytes` and `beNat` are
positional notation in base 256, a machine stores a number in its own byte
order, and `hton` is the number whose stored bytes are the big-endian ones, so
that bytes written on one machine are read back on another.
-/
namespace SqliteSync.Library

/-- `(int)x`. -/
def toInt32 (x : ℤ) : ℤ := (BitVec.ofInt 32 x).toInt

theorem toInt32_of_lt {x : ℤ} (h0 : 0 ≤ x) (h : x < 2 ^ 31) : toInt32 x = x := by
  rw [toInt32, BitVec.toInt_ofInt]
  exact Int.bmod_eq_of_le (by omega) (by omega)

theorem toInt32_lt (x : ℤ) : toInt32 x < 2 ^ 31 := BitVec.toInt_lt

/-- A number of 32 bits is not above the one it was cut from. -/
theorem toInt32_le {x : ℤ} (hx : 0 ≤ x) : toInt32 x ≤ x := by
  rw [toInt32, BitVec.toInt_ofInt, Int.bmod_def]
  split_ifs <;> omega

/-- A 64-bit signed sum as the machine leaves it. -/
def toInt64 (x : ℤ) : ℤ := (BitVec.ofInt 64 x).toInt

/-- `(size_t)x`. -/
def sizeT (x : ℤ) : ℕ := (x % 2 ^ 64).toNat

theorem sizeT_natCast (n : ℕ) (h : n < 2 ^ 64) : sizeT n = n := by
  rw [sizeT]
  omega

/-- The low `n` bytes of `v`, highest first. -/
def beBytes : ℕ → ℕ → List UInt8
  | 0, _ => []
  | n + 1, v => UInt8.ofNat (v / 256 ^ n) :: beBytes n v

/-- The number written by bytes, highest first. -/
def beNat (bytes : List UInt8) : ℕ := bytes.foldl (fun v b => v * 256 + b.toNat) 0

@[simp] theorem beBytes_length (n v : ℕ) : (beBytes n v).length = n := by
  induction n with
  | zero => rfl
  | succ n ih => rw [beBytes, List.length_cons, ih]

theorem append_byte_value (a v n : ℕ) :
    (a * 256 + v / 256 ^ n % 256) * 256 ^ n + v % 256 ^ n =
      a * 256 ^ (n + 1) + v % 256 ^ (n + 1) := by
  have hmod : v % 256 ^ (n + 1) = v % 256 ^ n + 256 ^ n * (v / 256 ^ n % 256) := by
    rw [pow_succ, Nat.mod_mul]
  rw [hmod, pow_succ]
  ring

theorem foldl_beBytes (n v a : ℕ) :
    (beBytes n v).foldl (fun v b => v * 256 + b.toNat) a = a * 256 ^ n + v % 256 ^ n := by
  induction n generalizing a with
  | zero => simp [beBytes, Nat.mod_one]
  | succ n ih =>
    have hb : (UInt8.ofNat (v / 256 ^ n)).toNat = v / 256 ^ n % 256 := UInt8.toNat_ofNat'
    rw [beBytes, List.foldl_cons, ih, hb, append_byte_value]

theorem beNat_beBytes (n v : ℕ) : beNat (beBytes n v) = v % 256 ^ n := by
  rw [beNat, foldl_beBytes, Nat.zero_mul, Nat.zero_add]

theorem beBytes_succ' (n v : ℕ) : beBytes (n + 1) v = beBytes n (v / 256) ++ [UInt8.ofNat v] := by
  induction n with
  | zero => simp [beBytes]
  | succ n ih =>
    rw [beBytes, ih, beBytes, List.cons_append, Nat.div_div_eq_div_mul, ← pow_succ']

theorem beBytes_beNat (bytes : List UInt8) : beBytes bytes.length (beNat bytes) = bytes := by
  induction bytes using List.reverseRecOn with
  | nil => rfl
  | append_singleton l b ih =>
    have hb := b.toNat_lt
    have hl : beNat (l ++ [b]) = beNat l * 256 + b.toNat := by
      rw [beNat, List.foldl_append, List.foldl_cons, List.foldl_nil, beNat]
    rw [List.length_append, List.length_singleton, beBytes_succ', hl,
      show (beNat l * 256 + b.toNat) / 256 = beNat l by omega, ih]
    congr 2
    apply UInt8.toNat_inj.mp
    rw [UInt8.toNat_ofNat']
    omega

theorem foldl_bytes (bytes : List UInt8) (a : ℕ) :
    bytes.foldl (fun v b => v * 256 + b.toNat) a = a * 256 ^ bytes.length + beNat bytes := by
  have h := foldl_beBytes bytes.length (beNat bytes) a
  rw [beBytes_beNat] at h
  have h0 := beNat_beBytes bytes.length (beNat bytes)
  rw [beBytes_beNat] at h0
  rwa [← h0] at h

theorem beNat_lt (bytes : List UInt8) : beNat bytes < 256 ^ bytes.length := by
  have h := beNat_beBytes bytes.length (beNat bytes)
  rw [beBytes_beNat] at h
  rw [h]
  exact Nat.mod_lt _ (by positivity)

theorem beNat_append (l r : List UInt8) : beNat (l ++ r) = beNat l * 256 ^ r.length + beNat r := by
  rw [beNat, List.foldl_append, foldl_bytes r]
  rfl

theorem beBytes_add (m n v : ℕ) : beBytes (m + n) v = beBytes m (v / 256 ^ n) ++ beBytes n v := by
  induction m with
  | zero => simp [beBytes]
  | succ m ih =>
    rw [Nat.succ_add, beBytes, ih, beBytes, List.cons_append, Nat.div_div_eq_div_mul, ← pow_add,
      Nat.add_comm n m]

theorem beBytes_mod (n v : ℕ) : beBytes n (v % 256 ^ n) = beBytes n v := by
  have h := beBytes_beNat (beBytes n v)
  rwa [beBytes_length, beNat_beBytes] at h

/-- A byte order. -/
inductive Endian where
  | little
  | big
deriving DecidableEq

namespace Endian

/-- The `n` bytes a machine of this order keeps for `v`. -/
def store : Endian → ℕ → ℕ → List UInt8
  | little, n, v => (beBytes n v).reverse
  | big, n, v => beBytes n v

/-- The number a machine of this order reads from bytes. -/
def load : Endian → List UInt8 → ℕ
  | little, bytes => beNat bytes.reverse
  | big, bytes => beNat bytes

@[simp] theorem store_length (e : Endian) (n v : ℕ) : (e.store n v).length = n := by
  cases e <;> simp [store]

theorem load_store (e : Endian) (n v : ℕ) : e.load (e.store n v) = v % 256 ^ n := by
  cases e <;> simp [store, load, beNat_beBytes]

/-- Host to network order, for a number of `n` bytes. -/
def hton (e : Endian) (n v : ℕ) : ℕ := e.load (big.store n v)

/-- Network to host order. -/
def ntoh (e : Endian) (n v : ℕ) : ℕ := big.load (e.store n v)

theorem store_load (e : Endian) (bytes : List UInt8) : e.store bytes.length (e.load bytes) = bytes := by
  cases e
  · have h := beBytes_beNat bytes.reverse
    rw [List.length_reverse] at h
    rw [store, load, h, List.reverse_reverse]
  · exact beBytes_beNat bytes

@[simp] theorem store_hton (e : Endian) (n v : ℕ) : e.store n (e.hton n v) = beBytes n v := by
  have h := e.store_load (big.store n v)
  rwa [store_length] at h

/-- A number sent in network order arrives, whatever the two machines. -/
theorem ntoh_load_store_hton (e e' : Endian) (n v : ℕ) :
    e'.ntoh n (e'.load (e.store n (e.hton n v))) = v % 256 ^ n := by
  have h := e'.store_load (beBytes n v)
  rw [beBytes_length] at h
  rw [store_hton, ntoh, h, load, beNat_beBytes]

end Endian
end SqliteSync.Library
