import Mathlib.Tactic
import Mathlib.Data.Prod.Lex
import Mathlib.Data.List.Lex

/-!
# SQLite values and their comparison

`dbutilsValueCompare` is the comparison by which concurrent writes of one
column are decided. It is computed as in the source and then shown to order
values by a key in a linear order, so that totality and transitivity are
inherited; two values may share a key without being the same value.
-/
namespace SqliteSync

/-- An IEEE-754 double by its bits. SQLite stores no NaN. -/
structure Double where
  bits : BitVec 64
  notNaN : bits.toNat % 2 ^ 63 ≤ 0x7FF0000000000000
deriving DecidableEq

/-- The bytes of a TEXT or BLOB. SQLite's lengths are `int`. -/
structure Bytes where
  data : List UInt8
  short : data.length < 2 ^ 31
deriving DecidableEq

inductive Value where
  | integer (i : BitVec 64)
  | float (d : Double)
  | text (s : Bytes)
  | blob (b : Bytes)
  | null
deriving DecidableEq

namespace Double

/-- The order of doubles read off the bits: sign and magnitude, the two zeros alike. -/
def orderKey (bits : BitVec 64) : ℤ :=
  if bits.msb then -((bits.toNat % 2 ^ 63 : ℕ) : ℤ) else ((bits.toNat % 2 ^ 63 : ℕ) : ℤ)

/-- `value < 0` on a double that is not NaN. -/
def isNegative (bits : BitVec 64) : Bool := decide (orderKey bits < 0)

/-- `-value`. -/
def neg (bits : BitVec 64) : BitVec 64 := bits ^^^ BitVec.intMin 64

end Double

/-- The fundamental datatype codes of `sqlite3_value_type`. -/
def sqlite3ValueType : Value → ℕ
  | .integer _ => 1
  | .float _ => 2
  | .text _ => 3
  | .blob _ => 4
  | .null => 5

/-- `strcmp` on two byte strings, each closed by a NUL of its own. -/
def strcmp : List UInt8 → List UInt8 → ℤ
  | [], [] => 0
  | [], b :: _ => -(b.toNat : ℤ)
  | a :: _, [] => a.toNat
  | a :: s, b :: t => if a ≠ b then (a.toNat : ℤ) - b.toNat else if a = 0 then 0 else strcmp s t

/-- `memcmp(a, b, n)`. -/
def memcmp : ℕ → List UInt8 → List UInt8 → ℤ
  | n + 1, a :: s, b :: t => if a ≠ b then (a.toNat : ℤ) - b.toNat else memcmp n s t
  | _, _, _ => 0

/-- `dbutils_value_compare`; `none` is a NULL pointer, not an SQL NULL. -/
def dbutilsValueCompare : Option Value → Option Value → ℤ
  | none, none => 0
  | none, some _ => -1
  | some _, none => 1
  | some l, some r =>
    if sqlite3ValueType l ≠ sqlite3ValueType r then
      (sqlite3ValueType r : ℤ) - sqlite3ValueType l
    else match l, r with
      | .integer a, .integer b => if a.slt b then -1 else if b.slt a then 1 else 0
      | .float a, .float b =>
        if Double.orderKey a.bits < Double.orderKey b.bits then -1
        else if Double.orderKey b.bits < Double.orderKey a.bits then 1 else 0
      | .text a, .text b => strcmp a.data b.data
      | .blob a, .blob b =>
        let cmp := memcmp (min a.data.length b.data.length) a.data b.data
        if cmp ≠ 0 then cmp else (a.data.length : ℤ) - b.data.length
      | _, _ => 0

/-! ## The order behind the comparison -/

def cString : List UInt8 → List ℕ
  | [] => []
  | b :: s => if b = 0 then [] else b.toNat :: cString s

/-- Datatype first (NULL lowest), then the number, then the bytes. -/
def compareKey (v : Value) : ℤ ×ₗ ℤ ×ₗ List ℕ :=
  toLex (-(sqlite3ValueType v : ℤ), match v with
    | .integer i => toLex (i.toInt, [])
    | .float d => toLex (Double.orderKey d.bits, [])
    | .text s => toLex (0, cString s.data)
    | .blob b => toLex (0, b.data.map UInt8.toNat)
    | .null => toLex (0, []))

theorem uint8_toNat_pos {a : UInt8} (h : a ≠ 0) : 0 < a.toNat :=
  Nat.pos_of_ne_zero fun h0 => h (UInt8.toNat_inj.mp h0)

theorem uint8_toNat_ne {a b : UInt8} (h : a ≠ b) : a.toNat ≠ b.toNat :=
  fun h0 => h (UInt8.toNat_inj.mp h0)

theorem cons_lt_cons_iff {a b : ℕ} {s t : List ℕ} : a :: s < b :: t ↔ a < b ∨ a = b ∧ s < t :=
  List.cons_lt_cons_iff

theorem strcmp_neg_iff (s t : List UInt8) : strcmp s t < 0 ↔ cString s < cString t := by
  induction s, t using strcmp.induct with
  | case1 => simp [strcmp, cString]
  | case2 b t =>
    by_cases hb : b = 0
    · simp [strcmp, cString, hb]
    · have := uint8_toNat_pos hb
      simp [strcmp, cString, hb, this]
  | case3 a s => simp [strcmp, cString]
  | case4 a s b t hab =>
    have hne := uint8_toNat_ne hab
    rw [strcmp, if_pos hab]
    by_cases ha : a = 0
    · subst ha
      have hb : b ≠ 0 := Ne.symm hab
      have := uint8_toNat_pos hb
      simp [cString, hb, this]
    · by_cases hb : b = 0
      · simp [cString, hb]
      · simp only [cString, ha, hb, if_false, cons_lt_cons_iff]
        omega
  | case5 s b t hab =>
    obtain rfl : 0 = b := not_not.mp hab
    simp [strcmp, cString]
  | case6 a s b t hab ha ih =>
    obtain rfl : a = b := not_not.mp hab
    simp [strcmp, cString, ha, ih]

theorem strcmp_eq_zero_iff (s t : List UInt8) : strcmp s t = 0 ↔ cString s = cString t := by
  induction s, t using strcmp.induct with
  | case1 => simp [strcmp, cString]
  | case2 b t =>
    by_cases hb : b = 0
    · simp [strcmp, cString, hb]
    · simp [strcmp, cString, hb, (uint8_toNat_pos hb).ne']
  | case3 a s =>
    by_cases ha : a = 0
    · simp [strcmp, cString, ha]
    · simp [strcmp, cString, ha, (uint8_toNat_pos ha).ne']
  | case4 a s b t hab =>
    have hne := uint8_toNat_ne hab
    have hsub : (a.toNat : ℤ) - b.toNat ≠ 0 := by omega
    rw [strcmp, if_pos hab]
    refine iff_of_false hsub ?_
    by_cases ha : a = 0
    · have hb : b ≠ 0 := fun h => hab (ha.trans h.symm)
      simp [cString, ha, hb]
    · by_cases hb : b = 0
      · simp [cString, ha, hb]
      · simp [cString, ha, hb, hne]
  | case5 s b t hab =>
    obtain rfl : 0 = b := not_not.mp hab
    simp [strcmp, cString]
  | case6 a s b t hab ha ih =>
    obtain rfl : a = b := not_not.mp hab
    simp [strcmp, cString, ha, ih]

/-- The BLOB rule: the first difference decides, else the shorter blob is lower. -/
def blobCompare (s t : List UInt8) : ℤ :=
  if memcmp (min s.length t.length) s t ≠ 0 then memcmp (min s.length t.length) s t
  else (s.length : ℤ) - t.length

theorem blobCompare_cons (a : UInt8) (s t : List UInt8) :
    blobCompare (a :: s) (a :: t) = blobCompare s t := by
  simp [blobCompare, memcmp, Nat.succ_min_succ]

theorem blobCompare_cons_ne {a b : UInt8} (h : a ≠ b) (s t : List UInt8) :
    blobCompare (a :: s) (b :: t) = (a.toNat : ℤ) - b.toNat := by
  have hne := uint8_toNat_ne h
  have hm : memcmp (min (a :: s).length (b :: t).length) (a :: s) (b :: t)
      = (a.toNat : ℤ) - b.toNat := by
    simp [memcmp, Nat.succ_min_succ, h]
  rw [blobCompare, hm, if_pos (by omega)]

theorem blobCompare_neg_iff (s t : List UInt8) :
    blobCompare s t < 0 ↔ s.map UInt8.toNat < t.map UInt8.toNat := by
  induction s generalizing t with
  | nil => cases t with
    | nil => simp [blobCompare, memcmp]
    | cons b t => simp [blobCompare, memcmp]; omega
  | cons a s ih => cases t with
    | nil => simp [blobCompare, memcmp]; omega
    | cons b t =>
      by_cases h : a = b
      · subst h
        simp [blobCompare_cons, ih]
      · have hne := uint8_toNat_ne h
        rw [blobCompare_cons_ne h, List.map_cons, List.map_cons, cons_lt_cons_iff]
        omega

theorem blobCompare_eq_zero_iff (s t : List UInt8) :
    blobCompare s t = 0 ↔ s.map UInt8.toNat = t.map UInt8.toNat := by
  induction s generalizing t with
  | nil => cases t <;> simp [blobCompare, memcmp]; omega
  | cons a s ih => cases t with
    | nil => simp [blobCompare, memcmp]; omega
    | cons b t =>
      by_cases h : a = b
      · subst h
        simp [blobCompare_cons, ih]
      · have hne := uint8_toNat_ne h
        rw [blobCompare_cons_ne h]
        simp [hne]
        omega

theorem compareKey_lt_of_type {a b : Value} (h : sqlite3ValueType a ≠ sqlite3ValueType b) :
    compareKey a < compareKey b ↔ sqlite3ValueType b < sqlite3ValueType a := by
  simp only [compareKey, Prod.Lex.toLex_lt_toLex]
  omega

theorem compareKey_ne_of_type {a b : Value} (h : sqlite3ValueType a ≠ sqlite3ValueType b) :
    compareKey a ≠ compareKey b := by
  intro he
  have h1 := congrArg (fun k => (ofLex k).1) he
  simp only [compareKey, ofLex_toLex] at h1
  omega

theorem compareKey_lt_same {k : ℤ} {x y : ℤ} {s t : List ℕ} :
    (toLex (k, toLex (x, s)) : ℤ ×ₗ ℤ ×ₗ List ℕ) < toLex (k, toLex (y, t)) ↔
      x < y ∨ x = y ∧ s < t := by
  simp [Prod.Lex.toLex_lt_toLex]

/-- The comparison is negative exactly below in the key order. -/
theorem dbutilsValueCompare_neg_iff (a b : Value) :
    dbutilsValueCompare (some a) (some b) < 0 ↔ compareKey a < compareKey b := by
  by_cases ht : sqlite3ValueType a = sqlite3ValueType b
  · cases a <;> cases b <;> simp only [sqlite3ValueType] at ht <;> try omega
    · simp only [dbutilsValueCompare, sqlite3ValueType, compareKey, compareKey_lt_same,
        BitVec.slt_iff_toInt_lt, ne_eq, not_true_eq_false, if_false]
      split_ifs <;> simp_all
    · simp only [dbutilsValueCompare, sqlite3ValueType, compareKey, compareKey_lt_same,
        ne_eq, not_true_eq_false, if_false]
      split_ifs <;> simp_all
    · simp [dbutilsValueCompare, sqlite3ValueType, compareKey, compareKey_lt_same, strcmp_neg_iff]
    · rename_i x y
      have h := blobCompare_neg_iff x.data y.data
      simp only [blobCompare] at h
      simp only [dbutilsValueCompare, sqlite3ValueType, compareKey, compareKey_lt_same, ne_eq,
        not_true_eq_false, if_false, lt_irrefl, true_and, false_or]
      exact h
    · simp [dbutilsValueCompare, compareKey]
  · rw [compareKey_lt_of_type ht]
    simp only [dbutilsValueCompare, if_pos ht]
    omega

theorem dbutilsValueCompare_eq_zero_iff (a b : Value) :
    dbutilsValueCompare (some a) (some b) = 0 ↔ compareKey a = compareKey b := by
  by_cases ht : sqlite3ValueType a = sqlite3ValueType b
  · cases a <;> cases b <;> simp only [sqlite3ValueType] at ht <;> try omega
    · simp only [dbutilsValueCompare, sqlite3ValueType, compareKey, BitVec.slt_iff_toInt_lt, ne_eq,
        not_true_eq_false, if_false, EmbeddingLike.apply_eq_iff_eq, Prod.mk.injEq, true_and,
        and_true]
      split_ifs <;> simp_all <;> omega
    · simp only [dbutilsValueCompare, sqlite3ValueType, compareKey, ne_eq,
        not_true_eq_false, if_false, EmbeddingLike.apply_eq_iff_eq, Prod.mk.injEq, true_and,
        and_true]
      split_ifs <;> simp_all <;> omega
    · simp [dbutilsValueCompare, sqlite3ValueType, compareKey, strcmp_eq_zero_iff]
    · rename_i x y
      have h := blobCompare_eq_zero_iff x.data y.data
      simp only [blobCompare] at h
      simp only [dbutilsValueCompare, sqlite3ValueType, compareKey, ne_eq, not_true_eq_false,
        if_false, EmbeddingLike.apply_eq_iff_eq, Prod.mk.injEq, true_and]
      exact h
    · simp [dbutilsValueCompare, compareKey]
  · refine iff_of_false ?_ (compareKey_ne_of_type ht)
    simp only [dbutilsValueCompare, if_pos ht]
    omega

theorem dbutilsValueCompare_pos_iff (a b : Value) :
    0 < dbutilsValueCompare (some a) (some b) ↔ compareKey b < compareKey a := by
  have h0 := dbutilsValueCompare_eq_zero_iff a b
  have h1 := dbutilsValueCompare_neg_iff a b
  rcases lt_trichotomy (compareKey a) (compareKey b) with h | h | h
  · have := h1.mpr h
    exact iff_of_false (by omega) h.asymm
  · have := h0.mpr h
    exact iff_of_false (by omega) (by rw [h]; exact lt_irrefl _)
  · have hn := mt h1.mp h.asymm
    have hz := mt h0.mp (ne_of_gt h)
    exact iff_of_true (by omega) h

@[simp] theorem dbutilsValueCompare_self (a : Value) : dbutilsValueCompare (some a) (some a) = 0 :=
  (dbutilsValueCompare_eq_zero_iff a a).mpr rfl

/-- Two different values of one type that the comparison does not tell apart:
TEXT that differs only behind a NUL byte, and the two zeros. -/
inductive Indistinct : Value → Value → Prop
  | text {a b : Bytes} (hne : a ≠ b) (h : cString a.data = cString b.data) :
    Indistinct (.text a) (.text b)
  | zero {a b : Double} (hne : a ≠ b) (ha : a.bits.toNat % 2 ^ 63 = 0)
    (hb : b.bits.toNat % 2 ^ 63 = 0) : Indistinct (.float a) (.float b)

theorem Double.orderKey_eq_iff (a b : BitVec 64) :
    orderKey a = orderKey b ↔ a = b ∨ a.toNat % 2 ^ 63 = 0 ∧ b.toNat % 2 ^ 63 = 0 := by
  have ha := a.isLt
  have hb := b.isLt
  rw [orderKey, orderKey, BitVec.msb_eq_decide, BitVec.msb_eq_decide, ← BitVec.toNat_inj]
  simp only [decide_eq_true_eq]
  split_ifs <;> omega

theorem uint8_map_injective : Function.Injective (List.map UInt8.toNat) :=
  List.map_injective_iff.mpr fun _ _ h => UInt8.toNat_inj.mp h

theorem Bytes.ext_iff' {a b : Bytes} : a = b ↔ a.data = b.data := by
  cases a
  cases b
  simp

theorem compareKey_eq_iff (a b : Value) : compareKey a = compareKey b ↔ a = b ∨ Indistinct a b := by
  by_cases ht : sqlite3ValueType a = sqlite3ValueType b
  · cases a <;> cases b <;> simp only [sqlite3ValueType] at ht <;> try omega
    case integer.integer i j =>
      simp only [compareKey, sqlite3ValueType, EmbeddingLike.apply_eq_iff_eq, Prod.mk.injEq, true_and, and_true,
        BitVec.toInt_inj, Value.integer.injEq]
      refine ⟨.inl, ?_⟩
      rintro (h | h)
      · exact h
      · cases h
    case float.float x y =>
      simp only [compareKey, sqlite3ValueType, EmbeddingLike.apply_eq_iff_eq, Prod.mk.injEq, true_and, and_true,
        Double.orderKey_eq_iff, Value.float.injEq]
      constructor
      · rintro (h | ⟨hx, hy⟩)
        · exact .inl (by cases x; cases y; simpa using h)
        · by_cases hne : x = y
          · exact .inl hne
          · exact .inr (.zero hne hx hy)
      · rintro (rfl | h)
        · exact .inl rfl
        · cases h with
          | zero _ hx hy => exact .inr ⟨hx, hy⟩
    case text.text x y =>
      simp only [compareKey, sqlite3ValueType, EmbeddingLike.apply_eq_iff_eq, Prod.mk.injEq, true_and,
        Value.text.injEq]
      constructor
      · intro h
        by_cases hne : x = y
        · exact .inl hne
        · exact .inr (.text hne h)
      · rintro (rfl | ⟨-, h⟩)
        · rfl
        · exact h
    case blob.blob x y =>
      simp only [compareKey, sqlite3ValueType, EmbeddingLike.apply_eq_iff_eq, Prod.mk.injEq, true_and,
        Value.blob.injEq, uint8_map_injective.eq_iff, ← Bytes.ext_iff']
      refine ⟨.inl, ?_⟩
      rintro (h | h)
      · exact h
      · cases h
    case null.null => simp
  · refine iff_of_false (compareKey_ne_of_type ht) ?_
    rintro (rfl | h)
    · exact ht rfl
    · cases h <;> exact ht rfl

theorem Indistinct.ne {a b : Value} (h : Indistinct a b) : a ≠ b := by
  cases h with
  | text hne _ => simpa using hne
  | zero hne _ _ => simpa using hne

/-- A negative comparison the other way round is positive, and both are zero together. -/
theorem dbutilsValueCompare_sign (a b : Value) :
    (dbutilsValueCompare (some a) (some b)).sign =
      -(dbutilsValueCompare (some b) (some a)).sign := by
  rcases lt_trichotomy (compareKey a) (compareKey b) with h | h | h
  · rw [Int.sign_eq_neg_one_of_neg ((dbutilsValueCompare_neg_iff a b).mpr h),
      Int.sign_eq_one_of_pos ((dbutilsValueCompare_pos_iff b a).mpr h)]
  · rw [(dbutilsValueCompare_eq_zero_iff a b).mpr h, (dbutilsValueCompare_eq_zero_iff b a).mpr h.symm]
    rfl
  · rw [Int.sign_eq_one_of_pos ((dbutilsValueCompare_pos_iff a b).mpr h),
      Int.sign_eq_neg_one_of_neg ((dbutilsValueCompare_neg_iff b a).mpr h)]
    rfl

theorem dbutilsValueCompare_nonpos_iff (a b : Value) :
    dbutilsValueCompare (some a) (some b) ≤ 0 ↔ compareKey a ≤ compareKey b := by
  rw [← not_lt, dbutilsValueCompare_pos_iff, not_lt]

theorem sqlite3ValueType_lt_null {b : Value} (h : b ≠ .null) :
    sqlite3ValueType b < sqlite3ValueType .null := by
  cases b <;> simp_all [sqlite3ValueType]

theorem compareKey_null_lt {b : Value} (h : b ≠ .null) : compareKey .null < compareKey b :=
  (compareKey_lt_of_type (sqlite3ValueType_lt_null h).ne').mpr (sqlite3ValueType_lt_null h)

/-- What a strict total order promises of the comparison of three values. -/
structure ComparesTotally (a b c : Value) : Prop where
  sign : (dbutilsValueCompare (some a) (some b)).sign =
    -(dbutilsValueCompare (some b) (some a)).sign
  lt_trans : dbutilsValueCompare (some a) (some b) < 0 →
    dbutilsValueCompare (some b) (some c) < 0 → dbutilsValueCompare (some a) (some c) < 0
  le_trans : dbutilsValueCompare (some a) (some b) ≤ 0 →
    dbutilsValueCompare (some b) (some c) ≤ 0 → dbutilsValueCompare (some a) (some c) ≤ 0
  null_lt : b ≠ .null → dbutilsValueCompare (some .null) (some b) < 0
  eq_zero_iff : dbutilsValueCompare (some a) (some b) = 0 ↔ a = b

/-- The comparison is a strict total order, but for the pairs it confuses. -/
theorem comparesTotally_iff (a b c : Value) : ComparesTotally a b c ↔ ¬ Indistinct a b := by
  constructor
  · intro h hab
    have hzero : compareKey a = compareKey b := (compareKey_eq_iff a b).mpr (.inr hab)
    exact hab.ne (h.eq_zero_iff.mp ((dbutilsValueCompare_eq_zero_iff a b).mpr hzero))
  · intro h
    refine ⟨dbutilsValueCompare_sign a b, ?_, ?_, ?_, ?_⟩
    · rw [dbutilsValueCompare_neg_iff, dbutilsValueCompare_neg_iff, dbutilsValueCompare_neg_iff]
      exact lt_trans
    · rw [dbutilsValueCompare_nonpos_iff, dbutilsValueCompare_nonpos_iff,
        dbutilsValueCompare_nonpos_iff]
      exact le_trans
    · rw [dbutilsValueCompare_neg_iff]
      exact compareKey_null_lt
    · rw [dbutilsValueCompare_eq_zero_iff, compareKey_eq_iff]
      exact ⟨fun he => he.resolve_right h, .inl⟩

/-- Two texts that differ behind a NUL byte compare as equal. -/
theorem not_comparesTotally : ¬ ∀ a b c : Value, ComparesTotally a b c := by
  intro h
  have htext := h (.text ⟨[0x61, 0, 0x62], by decide⟩) (.text ⟨[0x61, 0, 0x63], by decide⟩) .null
  exact absurd (htext.eq_zero_iff.mp (by decide)) (by decide)

end SqliteSync
