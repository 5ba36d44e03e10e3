import SqliteSync.Codec.Decode

/-!
# Decoding what `pk_encode` wrote

The number bytes are inverted first, then one value at any position of a
buffer, then a list of values under an arbitrary callback. The round trip and
the injectivity of primary-key encodings are read off the last.
-/
namespace SqliteSync.Codec
open Library

/-! ## Number bytes -/

theorem setWidth_sshiftRight (v : BitVec 64) (n : ℕ) (hn : n < 8) :
    (v.sshiftRight (8 * n)).setWidth 8 = (v >>> (8 * n)).setWidth 8 := by
  ext i hi
  have h : 8 * n + i < 64 := by omega
  simp [BitVec.getLsbD_sshiftRight, h]
  omega

theorem pkEncodeInt64_succ (v : BitVec 64) (n : ℕ) (hn : n < 8) :
    pkEncodeInt64 v (n + 1) = UInt8.ofNat (v.toNat / 256 ^ n) :: pkEncodeInt64 v n := by
  rw [pkEncodeInt64, List.range_succ_eq_map, List.map_cons, List.map_map]
  congr 1
  · simp only [Nat.add_sub_cancel, Nat.sub_zero]
    rw [setWidth_sshiftRight _ _ hn]
    apply UInt8.toNat_inj.mp
    simp [Nat.shiftRight_eq_div_pow, pow_mul]
  · rw [pkEncodeInt64]
    apply List.map_congr_left
    intro i hi
    simp only [Function.comp_apply]
    congr 4
    omega

theorem pkDecodeU8_append (pre post : List UInt8) (b : UInt8) :
    pkDecodeU8 (pre ++ b :: post) pre.length = some (b.toNat, pre.length + 1) := by
  simp [pkDecodeU8]

theorem shiftLeft_or_toNat (acc : BitVec 64) (b : ℕ) (hb : b < 256) :
    (acc <<< 8 ||| BitVec.ofNat 64 b).toNat = (acc.toNat * 256 + b) % 2 ^ 64 := by
  have h1 : acc.toNat <<< 8 % 2 ^ 64 = (acc.toNat % 2 ^ 56) <<< 8 := by
    rw [Nat.shiftLeft_eq, Nat.shiftLeft_eq]
    omega
  have h2 : b % 2 ^ 64 = b := by omega
  rw [BitVec.toNat_or, BitVec.toNat_shiftLeft, BitVec.toNat_ofNat, h1, h2,
    ← Nat.shiftLeft_add_eq_or_of_lt (by omega : b < 2 ^ 8), Nat.shiftLeft_eq]
  omega

theorem pkDecodeInt64_append (v : BitVec 64) (n : ℕ) (hn : n ≤ 8) (pre post : List UInt8)
    (acc : BitVec 64) :
    pkDecodeInt64 (pre ++ (pkEncodeInt64 v n ++ post)) n acc pre.length =
      some (BitVec.ofNat 64 (acc.toNat * 256 ^ n + v.toNat % 256 ^ n), pre.length + n) := by
  induction n generalizing pre acc with
  | zero => simp [pkDecodeInt64, Nat.mod_one]
  | succ n ih =>
    rw [pkEncodeInt64_succ v n (by omega), List.cons_append, pkDecodeInt64, pkDecodeU8_append]
    have hpre : pre ++ UInt8.ofNat (v.toNat / 256 ^ n) :: (pkEncodeInt64 v n ++ post) =
        (pre ++ [UInt8.ofNat (v.toNat / 256 ^ n)]) ++ (pkEncodeInt64 v n ++ post) := by simp
    have hlen : pre.length + 1 = (pre ++ [UInt8.ofNat (v.toNat / 256 ^ n)]).length := by simp
    simp only [Option.bind_eq_bind, Option.bind_some]
    rw [hpre, hlen, ih (by omega)]
    simp only [UInt8.toNat_ofNat', List.length_append, List.length_singleton, Option.some.injEq,
      Prod.mk.injEq]
    constructor
    · apply BitVec.eq_of_toNat_eq
      rw [BitVec.toNat_ofNat, BitVec.toNat_ofNat, shiftLeft_or_toNat _ _ (by omega),
        ← append_byte_value]
      exact ((Nat.mod_modEq _ _).mul_right _).add_right _
    · omega

theorem pkDecodeInt64_pkEncodeInt64 (v : BitVec 64) (n : ℕ) (hn : n ≤ 8)
    (hv : v.toNat < 256 ^ n) (pre post : List UInt8) :
    pkDecodeInt64 (pre ++ (pkEncodeInt64 v n ++ post)) n 0 pre.length =
      some (v, pre.length + n) := by
  rw [pkDecodeInt64_append v n hn, Nat.mod_eq_of_lt hv]
  simp

/-- The chosen width holds every value that is not negative. -/
theorem toNat_lt_of_nbytes (v : BitVec 64) (hv : 0 ≤ v.toInt) :
    v.toNat < 256 ^ pkEncodeNbytesNeeded v := by
  have hlt := v.isLt
  have hi : v.toInt = v.toNat := by
    rw [BitVec.toInt_eq_toNat_cond] at hv ⊢
    split_ifs at hv ⊢ <;> omega
  unfold pkEncodeNbytesNeeded
  split_ifs <;> omega

theorem ofNat_toInt_of_lt (n : ℕ) (h : n < 2 ^ 63) : (BitVec.ofNat 64 n).toInt = n := by
  rw [BitVec.toInt_eq_toNat_cond, BitVec.toNat_ofNat]
  split_ifs <;> omega

/-! ## One value at a position -/

/-- The callback call that presents `v`, encoded at position `pos`, as item `i`. -/
def valueArgs (i pos : ℕ) : Value → CbArgs
  | .integer value => ⟨i, 1, value.toInt, 0, none⟩
  | .float d => ⟨i, 2, 0, d.bits, none⟩
  | .text s => ⟨i, 3, s.data.length, 0,
      some (pos + 1 + pkEncodeNbytesNeeded (BitVec.ofNat 64 s.data.length))⟩
  | .blob b => ⟨i, 4, b.data.length, 0,
      some (pos + 1 + pkEncodeNbytesNeeded (BitVec.ofNat 64 b.data.length))⟩
  | .null => ⟨i, 5, 0, 0, none⟩

theorem typeByte_split (nbytes type : ℕ) (hn : nbytes < 32) (ht : type < 8) :
    (UInt8.ofNat (typeByte nbytes type)).toNat &&& 0x07 = type ∧
      ((UInt8.ofNat (typeByte nbytes type)).toNat >>> 3) &&& 0x1F = nbytes := by
  have hb : typeByte nbytes type = nbytes * 8 + type := by
    rw [typeByte, ← Nat.shiftLeft_add_eq_or_of_lt (by omega : type < 2 ^ 3), Nat.shiftLeft_eq]
  have h7 : ∀ x : ℕ, x &&& 7 = x % 8 := fun x => Nat.and_two_pow_sub_one_eq_mod x 3
  have h31 : ∀ x : ℕ, x &&& 31 = x % 32 := fun x => Nat.and_two_pow_sub_one_eq_mod x 5
  rw [UInt8.toNat_ofNat', hb, h7, h31, Nat.shiftRight_eq_div_pow]
  omega

theorem pkDecodeValue_typeByte (nbytes type : ℕ) (hn : nbytes < 32) (ht : type < 8) (i : ℕ)
    (pre rest : List UInt8) :
    pkDecodeValue (pre ++ (pkEncodeU8 (typeByte nbytes type) ++ rest)) i pre.length =
      pkDecodeSwitch (pre ++ (pkEncodeU8 (typeByte nbytes type) ++ rest)) i type nbytes
        (pre.length + 1) := by
  obtain ⟨h1, h2⟩ := typeByte_split nbytes type hn ht
  rw [pkDecodeValue, pkEncodeU8, List.singleton_append, pkDecodeU8_append, Option.bind_eq_bind,
    Option.bind_some]
  simp only [h1, h2]

@[simp] theorem typeByte_zero (type : ℕ) : typeByte 0 type = type := by simp [typeByte]

theorem double_neg_neg (b : BitVec 64) : Double.neg (Double.neg b) = b := by
  rw [Double.neg, Double.neg, BitVec.xor_assoc, BitVec.xor_self, BitVec.xor_zero]

theorem pkDecodeData_ofNat (bseek n : ℕ) (hn : n < 2 ^ 31) (h : bseek + n < 2 ^ 64) :
    pkDecodeData bseek (BitVec.ofNat 64 n) = bseek + n := by
  have hmsb : ((BitVec.ofNat 64 n).setWidth 32).msb = false := by
    rw [BitVec.msb_eq_false_iff_two_mul_lt, BitVec.toNat_setWidth, BitVec.toNat_ofNat]
    omega
  have hlen : (((BitVec.ofNat 64 n).setWidth 32).signExtend 64).toNat = n := by
    rw [BitVec.signExtend_eq_setWidth_of_msb_false hmsb, BitVec.toNat_setWidth,
      BitVec.toNat_setWidth, BitVec.toNat_ofNat]
    omega
  rw [pkDecodeData, hlen, Nat.mod_eq_of_lt h]

theorem pkDecodeInt64_after_tag (tag : ℕ) (v : BitVec 64) (n : ℕ) (hn : n ≤ 8)
    (hv : v.toNat < 256 ^ n) (pre post : List UInt8) :
    pkDecodeInt64 (pre ++ (pkEncodeU8 tag ++ (pkEncodeInt64 v n ++ post))) n 0 (pre.length + 1) =
      some (v, pre.length + 1 + n) := by
  have h := pkDecodeInt64_pkEncodeInt64 v n hn hv (pre ++ pkEncodeU8 tag) post
  simpa using h

/-- TEXT and BLOB: tag, length, content; the callback gets the content's position. -/
theorem pkDecodeValue_bytes (b : Bytes) (type : ℕ) (ht : type = 3 ∨ type = 4) (i : ℕ)
    (pre post : List UInt8) (nbytes : ℕ)
    (hn : nbytes = pkEncodeNbytesNeeded (BitVec.ofNat 64 b.data.length))
    (h : pre.length + (1 + nbytes + b.data.length) < 2 ^ 64) :
    pkDecodeValue (pre ++ (pkEncodeU8 (typeByte nbytes type) ++
        pkEncodeInt64 (BitVec.ofNat 64 b.data.length) nbytes ++ b.data ++ post)) i pre.length =
      some (⟨i, type, b.data.length, 0, some (pre.length + 1 + nbytes)⟩,
        pre.length + 1 + nbytes + b.data.length) := by
  have hb := b.short
  have hi := ofNat_toInt_of_lt b.data.length (by omega)
  have h8 := pkEncodeNbytesNeeded_le (BitVec.ofNat 64 b.data.length)
  have hw := toNat_lt_of_nbytes (BitVec.ofNat 64 b.data.length) (by omega)
  rw [← hn] at h8 hw
  have hnum := pkDecodeInt64_after_tag (typeByte nbytes type) _ nbytes h8 hw pre (b.data ++ post)
  have hdata := pkDecodeData_ofNat (pre.length + 1 + nbytes) b.data.length hb (by omega)
  rw [List.append_assoc, List.append_assoc, pkDecodeValue_typeByte _ _ (by omega) (by omega)]
  rcases ht with rfl | rfl <;>
    simp only [pkDecodeSwitch, hnum, Option.bind_eq_bind, Option.bind_some, hi, hdata]

/-- Decoding at the position where a value was encoded presents that value and
stops where its encoding stops. -/
theorem pkDecodeValue_pkEncodeValue (v : Value) (i : ℕ) (pre post : List UInt8)
    (h : pre.length + (pkEncodeValue v).length < 2 ^ 64) :
    pkDecodeValue (pre ++ (pkEncodeValue v ++ post)) i pre.length =
      some (valueArgs i pre.length v, pre.length + (pkEncodeValue v).length) := by
  cases v with
  | null => exact pkDecodeValue_typeByte 0 5 (by omega) (by omega) i pre post
  | float d =>
    have hnum (tag : ℕ) (w : BitVec 64) :=
      pkDecodeInt64_after_tag tag w 8 le_rfl (lt_of_lt_of_eq w.isLt (by norm_num)) pre post
    have htag (type : ℕ) (w : BitVec 64) (ht : type < 8) :=
      pkDecodeValue_typeByte 0 type (by omega) ht i pre (pkEncodeInt64 w 8 ++ post)
    simp only [typeByte_zero] at htag
    by_cases hneg : Double.isNegative d.bits
    · simp only [pkEncodeValue, hneg, if_true, SQLITE_NEGATIVE_FLOAT, List.append_assoc]
      rw [htag 7 _ (by omega)]
      simp only [pkDecodeSwitch, hnum, Option.bind_eq_bind, Option.bind_some, double_neg_neg,
        valueArgs, List.length_append, pkEncodeU8_length, pkEncodeInt64_length, Nat.add_assoc]
    · simp only [pkEncodeValue, hneg, if_false, sqlite3ValueType, List.append_assoc,
        Bool.false_eq_true]
      rw [htag 2 _ (by omega)]
      simp only [pkDecodeSwitch, hnum, Option.bind_eq_bind, Option.bind_some,
        valueArgs, List.length_append, pkEncodeU8_length, pkEncodeInt64_length, Nat.add_assoc]
  | integer value =>
    by_cases hmin : value = BitVec.intMin 64
    · subst hmin
      exact pkDecodeValue_typeByte 0 6 (by omega) (by omega) i pre post
    · have hnum (w : BitVec 64) (type : ℕ) (hw : 0 ≤ w.toInt) :=
        pkDecodeInt64_after_tag (typeByte (pkEncodeNbytesNeeded w) type) w
          (pkEncodeNbytesNeeded w) (pkEncodeNbytesNeeded_le w) (toNat_lt_of_nbytes w hw) pre post
      have htag (w : BitVec 64) (type : ℕ) (ht : type < 8) :=
        pkDecodeValue_typeByte (pkEncodeNbytesNeeded w) type
          (lt_of_le_of_lt (pkEncodeNbytesNeeded_le w) (by omega)) ht i pre
          (pkEncodeInt64 w (pkEncodeNbytesNeeded w) ++ post)
      by_cases hneg : value.toInt < 0
      · have hpos : 0 ≤ (-value).toInt := by
          rw [BitVec.toInt_neg_of_ne_intMin hmin]
          omega
        simp only [pkEncodeValue, hmin, hneg, if_true, if_false, SQLITE_NEGATIVE_INTEGER,
          List.append_assoc]
        rw [htag _ 0 (by omega)]
        simp only [pkDecodeSwitch, hnum _ _ hpos, Option.bind_eq_bind, Option.bind_some, BitVec.neg_neg,
          valueArgs, List.length_append, pkEncodeU8_length, pkEncodeInt64_length, Nat.add_assoc]
      · simp only [pkEncodeValue, hmin, hneg, if_false, sqlite3ValueType, List.append_assoc]
        rw [htag _ 1 (by omega)]
        simp only [pkDecodeSwitch, hnum _ _ (not_lt.mp hneg), Option.bind_eq_bind,
          Option.bind_some, valueArgs, List.length_append, pkEncodeU8_length,
          pkEncodeInt64_length, Nat.add_assoc]
  | text s =>
    rw [pkEncodeValue_length] at h ⊢
    simp only [pkEncodeSizeValue] at h
    rw [pkEncodeValue, pkEncodeValue.encodeBytes, sqlite3ValueType,
      pkDecodeValue_bytes s 3 (.inl rfl) i pre post _ rfl (by omega)]
    simp only [valueArgs, pkEncodeSizeValue, Option.some.injEq, Prod.mk.injEq, true_and]
    omega
  | blob b =>
    rw [pkEncodeValue_length] at h ⊢
    simp only [pkEncodeSizeValue] at h
    rw [pkEncodeValue, pkEncodeValue.encodeBytes, sqlite3ValueType,
      pkDecodeValue_bytes b 4 (.inr rfl) i pre post _ rfl (by omega)]
    simp only [valueArgs, pkEncodeSizeValue, Option.some.injEq, Prod.mk.injEq, true_and]
    omega

/-! ## A list of values under any callback -/

/-- The calls that present `argv`, encoded from position `pos`, as items from `i` on. -/
def valuesArgs : ℕ → ℕ → List Value → List CbArgs
  | _, _, [] => []
  | i, pos, v :: vs => valueArgs i pos v :: valuesArgs (i + 1) (pos + (pkEncodeValue v).length) vs

/-- A callback run over calls until it refuses one. -/
def runCallback {σ : Type} (cb : Callback σ) : σ → List CbArgs → Bool × σ
  | xdata, [] => (true, xdata)
  | xdata, a :: as =>
    match cb xdata a with
    | (false, xdata) => (false, xdata)
    | (true, xdata) => runCallback cb xdata as

theorem pkDecodeItems_pkEncodeValues {σ : Type} (cb : Callback σ) (argv : List Value) (i : ℕ)
    (pre post : List UInt8) (xdata : σ)
    (h : pre.length + (pkEncodeValues argv).length < 2 ^ 64) :
    pkDecodeItems (pre ++ (pkEncodeValues argv ++ post)) cb argv.length i pre.length xdata =
      some (match runCallback cb xdata (valuesArgs i pre.length argv) with
        | (true, x) => (.done (pre.length + (pkEncodeValues argv).length), x)
        | (false, x) => (.refused, x)) := by
  induction argv generalizing i pre xdata with
  | nil => simp [pkDecodeItems, valuesArgs, runCallback, pkEncodeValues]
  | cons v vs ih =>
    simp only [pkEncodeValues, List.length_append, List.length_cons] at h ⊢
    rw [List.append_assoc, pkDecodeItems, pkDecodeValue_pkEncodeValue v i pre _ (by omega)]
    simp only [Option.bind_eq_bind, Option.bind_some, valuesArgs, runCallback]
    cases hc : cb xdata (valueArgs i pre.length v) with
    | mk b x =>
      cases b with
      | false => rfl
      | true =>
        have h' := ih (i + 1) (pre ++ pkEncodeValue v) x
        simp only [List.length_append, List.append_assoc] at h'
        simp only [h' (by omega), Nat.add_assoc]

/-! ## The round trip -/

/-- The test callback: it accepts every call and keeps them in order. -/
def record : Callback (List CbArgs) := fun calls a => (true, calls ++ [a])

theorem runCallback_record (calls as : List CbArgs) :
    runCallback record calls as = (true, calls ++ as) := by
  induction as generalizing calls with
  | nil => simp [runCallback]
  | cons a as ih => simp [runCallback, record, ih]

theorem cbBytes_append (b : Bytes) (hd pre post : List UInt8) :
    cbBytes (pre ++ (hd ++ b.data ++ post)) b.data.length (pre.length + hd.length) = some b := by
  have hb := b.short
  have hc : (0 : ℤ) ≤ b.data.length ∧ pre.length + hd.length + (b.data.length : ℤ).toNat ≤
      (pre ++ (hd ++ b.data ++ post)).length ∧ (b.data.length : ℤ).toNat < 2 ^ 31 := by
    simp only [List.length_append]
    omega
  rw [cbBytes, dif_pos hc]
  cases b
  simp

theorem value_valueArgs (v : Value) (i : ℕ) (pre post : List UInt8) :
    (valueArgs i pre.length v).value (pre ++ (pkEncodeValue v ++ post)) = some v := by
  cases v with
  | integer value => simp [valueArgs, CbArgs.value]
  | float d => exact dif_pos d.notNaN
  | text s =>
    have hs := cbBytes_append s (pkEncodeU8 (typeByte (pkEncodeNbytesNeeded
      (BitVec.ofNat 64 s.data.length)) 3) ++ pkEncodeInt64
      (BitVec.ofNat 64 s.data.length) (pkEncodeNbytesNeeded (BitVec.ofNat 64 s.data.length)))
      pre post
    simp only [List.length_append, pkEncodeU8_length, pkEncodeInt64_length, ← Nat.add_assoc] at hs
    simp only [valueArgs, CbArgs.value, pkEncodeValue, pkEncodeValue.encodeBytes, sqlite3ValueType,
      hs, Option.map_some]
  | blob b =>
    have hs := cbBytes_append b (pkEncodeU8 (typeByte (pkEncodeNbytesNeeded
      (BitVec.ofNat 64 b.data.length)) 4) ++ pkEncodeInt64
      (BitVec.ofNat 64 b.data.length) (pkEncodeNbytesNeeded (BitVec.ofNat 64 b.data.length)))
      pre post
    simp only [List.length_append, pkEncodeU8_length, pkEncodeInt64_length, ← Nat.add_assoc] at hs
    simp only [valueArgs, CbArgs.value, pkEncodeValue, pkEncodeValue.encodeBytes, sqlite3ValueType,
      hs, Option.map_some]
  | null => rfl

theorem values_valuesArgs (argv : List Value) (i : ℕ) (pre post : List UInt8) :
    (valuesArgs i pre.length argv).map (CbArgs.value (pre ++ (pkEncodeValues argv ++ post))) =
      argv.map some := by
  induction argv generalizing i pre with
  | nil => rfl
  | cons v vs ih =>
    have h := ih (i + 1) (pre ++ pkEncodeValue v)
    simp only [List.length_append, List.append_assoc] at h
    simp only [valuesArgs, pkEncodeValues, List.map_cons, List.append_assoc, value_valueArgs, h]

theorem index_valuesArgs (argv : List Value) (i pos : ℕ) :
    (valuesArgs i pos argv).map CbArgs.index = List.range' i argv.length := by
  induction argv generalizing i pos with
  | nil => rfl
  | cons v vs ih =>
    rw [valuesArgs, List.map_cons, ih, List.length_cons, List.range'_succ]
    congr 1
    cases v <;> rfl

/-- `calls` present `argv` in order: every index, type and value. -/
def Presents (buffer : List UInt8) (calls : List CbArgs) (argv : List Value) : Prop :=
  calls.map CbArgs.index = List.range argv.length ∧
    calls.map (CbArgs.value buffer) = argv.map some

/-- The loop of `pk_decode` over encoded values, at any offset and whatever follows. -/
theorem pkDecode_pkEncodeValues (argv : List Value) (pre post : List UInt8)
    (h : pre.length + (pkEncodeValues argv).length < 2 ^ 64) :
    ∃ calls, pkDecode (pre ++ (pkEncodeValues argv ++ post)) argv.length pre.length record []
        = some ⟨argv.length, pre.length + (pkEncodeValues argv).length, calls⟩ ∧
      Presents (pre ++ (pkEncodeValues argv ++ post)) calls argv := by
  refine ⟨valuesArgs 0 pre.length argv, ?_, ?_, values_valuesArgs argv 0 pre post⟩
  · have hcount := length_le_pkEncodeValues argv
    have hne : (argv.length : ℤ) ≠ -1 := by omega
    rw [pkDecode, if_neg hne]
    simp only [Option.bind_eq_bind, Option.bind_some, sizeT_natCast argv.length (by omega),
      pkDecodeItems_pkEncodeValues record argv 0 pre post [] h, runCallback_record,
      List.nil_append]
  · rw [index_valuesArgs, List.range_eq_range']

theorem pkEncodeValues_length_le (argv : List Value) :
    (pkEncodeValues argv).length ≤ argv.length * (2 ^ 31 + 9) := by
  have hv (v : Value) : (pkEncodeValue v).length ≤ 2 ^ 31 + 9 := by
    rw [pkEncodeValue_length]
    cases v with
    | integer w =>
      have h1 := pkEncodeNbytesNeeded_le w
      have h2 := pkEncodeNbytesNeeded_le (-w)
      simp only [pkEncodeSizeValue]
      split_ifs <;> omega
    | float d => simp [pkEncodeSizeValue]
    | text s =>
      have h1 := s.short
      have h2 := pkEncodeNbytesNeeded_le (BitVec.ofNat 64 s.data.length)
      simp only [pkEncodeSizeValue]
      omega
    | blob s =>
      have h1 := s.short
      have h2 := pkEncodeNbytesNeeded_le (BitVec.ofNat 64 s.data.length)
      simp only [pkEncodeSizeValue]
      omega
    | null => simp [pkEncodeSizeValue]
  induction argv with
  | nil => simp [pkEncodeValues]
  | cons v vs ih =>
    have := hv v
    rw [pkEncodeValues, List.length_append, List.length_cons]
    omega

theorem pkDecodePrikey_pkEncodePrikey_calls (argv : List Value) (h : argv.length ≤ 255)
    (post : List UInt8) :
    ∃ calls, pkDecodePrikey (pkEncodePrikey argv ++ post) record [] =
        some ⟨argv.length, (pkEncodePrikey argv).length, calls⟩ ∧
      Presents (pkEncodePrikey argv ++ post) calls argv := by
  have hl := pkEncodeValues_length_le argv
  have hcount : (UInt8.ofNat argv.length).toNat = argv.length := by
    rw [UInt8.toNat_ofNat']
    omega
  rcases pkDecode_pkEncodeValues argv (pkEncodeU8 argv.length) post
    (by rw [pkEncodeU8_length]; omega) with ⟨calls, hdec, hpres⟩
  refine ⟨calls, ?_, by simpa [pkEncodePrikey, pkEncode] using hpres⟩
  have hu8 := pkDecodeU8_append [] (pkEncodeValues argv ++ post) (UInt8.ofNat argv.length)
  simp only [List.nil_append, List.length_nil, hcount, Nat.zero_add] at hu8
  rw [pkDecodePrikey, pkEncodePrikey, pkEncode, if_pos rfl, List.append_assoc]
  simp only [pkEncodeU8, List.singleton_append, List.length_singleton] at hdec ⊢
  rw [hu8, Option.bind_eq_bind, Option.bind_some, List.length_cons, Nat.add_comm _ 1]
  exact hdec

/-- The callback sees only values, so equal encodings come from equal keys. -/
theorem pkEncodePrikey_inj {argv argv' : List Value} (h : argv.length ≤ 255)
    (h' : argv'.length ≤ 255) (he : pkEncodePrikey argv = pkEncodePrikey argv') : argv = argv' := by
  rcases pkDecodePrikey_pkEncodePrikey_calls argv h [] with ⟨calls, hdec, -, hval⟩
  rcases pkDecodePrikey_pkEncodePrikey_calls argv' h' [] with ⟨calls', hdec', -, hval'⟩
  rw [he, hdec', Option.some.injEq, DecodeResult.mk.injEq] at hdec
  rw [he, ← hdec.2.2, hval'] at hval
  exact (List.map_injective_iff.mpr (Option.some_injective _) hval).symm

theorem pkEncodePrikey_append_eq {argv argv' : List Value} (h : argv.length ≤ 255)
    (h' : argv'.length ≤ 255) {post : List UInt8}
    (he : pkEncodePrikey argv ++ post = pkEncodePrikey argv') : post = [] := by
  rcases pkDecodePrikey_pkEncodePrikey_calls argv h post with ⟨calls, hdec, -⟩
  rcases pkDecodePrikey_pkEncodePrikey_calls argv' h' [] with ⟨calls', hdec', -⟩
  rw [List.append_nil] at hdec'
  rw [he, hdec', Option.some.injEq, DecodeResult.mk.injEq, ← he, List.length_append] at hdec
  exact List.length_eq_zero_iff.mp (by omega)

/-! ## Callbacks that accept every call -/

theorem pkDecodeItems_accepting {σ : Type} (g : σ → CbArgs → σ) (buffer : List UInt8)
    (count i bseek : ℕ) (calls : List CbArgs) (xdata : σ) :
    pkDecodeItems buffer (fun x a => (true, g x a)) count i bseek (calls.foldl g xdata) =
      (pkDecodeItems buffer record count i bseek calls).map
        fun r => (r.1, r.2.foldl g xdata) := by
  induction count generalizing i bseek calls with
  | zero => rfl
  | succ count ih =>
    rw [pkDecodeItems, pkDecodeItems]
    cases hv : pkDecodeValue buffer i bseek with
    | none => rfl
    | some x =>
      have hrest := ih (i + 1) x.2 (calls ++ [x.1])
      rw [List.foldl_append, List.foldl_cons, List.foldl_nil] at hrest
      simpa only [Option.bind_eq_bind, Option.bind_some, record] using hrest

theorem pkDecode_accepting {σ : Type} (g : σ → CbArgs → σ) (buffer : List UInt8) (count seek : ℕ)
    (xdata : σ) :
    pkDecode buffer count seek (fun x a => (true, g x a)) xdata =
      (pkDecode buffer count seek record []).map
        fun r => ⟨r.rc, r.seek, r.xdata.foldl g xdata⟩ := by
  have hcount : (count : ℤ) ≠ -1 := by omega
  have hitems := pkDecodeItems_accepting g buffer (sizeT count) 0 seek [] xdata
  rw [List.foldl_nil] at hitems
  rw [pkDecode, pkDecode, if_neg hcount, if_neg hcount]
  simp only [Option.bind_eq_bind, Option.bind_some, hitems]
  rcases pkDecodeItems buffer record (sizeT count) 0 seek [] with _ | ⟨_ | _, calls⟩ <;> rfl

/-- Decoding under such a callback is decoding with every call kept, and the
calls made afterwards. -/
theorem pkDecodePrikey_accepting {σ : Type} (g : σ → CbArgs → σ) (buffer : List UInt8)
    (xdata : σ) :
    pkDecodePrikey buffer (fun x a => (true, g x a)) xdata =
      (pkDecodePrikey buffer record []).map
        fun r => ⟨r.rc, r.seek, r.xdata.foldl g xdata⟩ := by
  rw [pkDecodePrikey, pkDecodePrikey]
  cases pkDecodeU8 buffer 0 with
  | none => rfl
  | some x =>
    simp only [Option.bind_eq_bind, Option.bind_some]
    exact pkDecode_accepting g buffer _ _ xdata

/-- The value codec loses nothing: with the count byte, without it at any offset
of any buffer, and hence on primary keys. -/
theorem pkDecodePrikey_pkEncodePrikey (argv : List Value) (h : argv.length ≤ 255) :
    (∀ post : List UInt8, ∃ calls,
      pkDecodePrikey (pkEncodePrikey argv ++ post) record [] =
          some ⟨argv.length, (pkEncodePrikey argv).length, calls⟩ ∧
        Presents (pkEncodePrikey argv ++ post) calls argv) ∧
    (∀ pre post : List UInt8, pre.length + (pkEncode argv false).length < 2 ^ 64 → ∃ calls,
      pkDecode (pre ++ (pkEncode argv false ++ post)) argv.length pre.length record [] =
          some ⟨argv.length, pre.length + (pkEncode argv false).length, calls⟩ ∧
        Presents (pre ++ (pkEncode argv false ++ post)) calls argv) ∧
    (∀ argv' : List Value, argv'.length ≤ 255 → pkEncodePrikey argv = pkEncodePrikey argv' →
      argv = argv') :=
  ⟨pkDecodePrikey_pkEncodePrikey_calls argv h, pkDecode_pkEncodeValues argv,
    fun _ h' he => pkEncodePrikey_inj h h' he⟩

/-- A key mixing every tag, the least integer and an embedded NUL among them. -/
theorem pkDecodePrikey_pkEncodePrikey_mixed :
    [Value.integer (BitVec.intMin 64), .integer (-1), .float ⟨0x8000000000000000, by decide⟩,
      .text ⟨[97, 0, 98], by decide⟩, .blob ⟨[], by decide⟩, .null].length ≤ 255 ∧
    pkEncodePrikey [.text ⟨[97, 0, 98], by decide⟩] ≠ pkEncodePrikey [.text ⟨[97, 0, 99], by decide⟩] ∧
    ∃ calls, pkDecodePrikey (pkEncodePrikey [Value.integer (BitVec.intMin 64), .integer (-1),
      .float ⟨0x8000000000000000, by decide⟩, .text ⟨[97, 0, 98], by decide⟩,
      .blob ⟨[], by decide⟩, .null] ++ [255]) record [] = some ⟨6, 21, calls⟩ := by
  refine ⟨by decide, fun he => ?_, ?_⟩
  · have := (pkDecodePrikey_pkEncodePrikey [.text ⟨[97, 0, 98], by decide⟩] (by decide)).2.2 _
      (by decide) he
    revert this
    decide
  · rcases (pkDecodePrikey_pkEncodePrikey [.integer (BitVec.intMin 64), .integer (-1),
      .float ⟨0x8000000000000000, by decide⟩, .text ⟨[97, 0, 98], by decide⟩,
      .blob ⟨[], by decide⟩, .null] (by decide)).1 [255] with ⟨calls, hdec, -⟩
    exact ⟨calls, hdec⟩

end SqliteSync.Codec
