import SqliteSync.Library.Machine

/-!
# C strings

Strings as the bytes in front of the first NUL, and the functions of the C
library that print numbers into them and read numbers out of them.
-/
namespace SqliteSync.Library

/-- The bytes of a string, without the final NUL. -/
abbrev CString := List UInt8

/-- The string at the start of a piece of memory. -/
def stringAt (memory : List UInt8) : CString := memory.takeWhile (· != 0)

/-- A string literal of ASCII characters. -/
def ascii (s : String) : CString := s.toList.map fun c => UInt8.ofNat c.toNat

theorem stringAt_append {s : CString} (h : ∀ c ∈ s, c ≠ 0) (rest : List UInt8) :
    stringAt (s ++ 0 :: rest) = s := by
  rw [stringAt, List.takeWhile_append_of_pos (by simpa using h)]
  simp

theorem stringAt_append_nul (s rest : List UInt8) : stringAt (s ++ 0 :: rest) = stringAt s := by
  induction s with
  | nil => rfl
  | cons c s ih =>
    rw [stringAt, stringAt, List.cons_append, List.takeWhile_cons, List.takeWhile_cons, ← stringAt,
      ih, ← stringAt]

theorem stringAt_eq_self {s : CString} (h : ∀ c ∈ s, c ≠ 0) : stringAt s = s := by
  have happend := @List.takeWhile_append_of_pos _ (· != 0) s [] (by simpa using h)
  rwa [List.append_nil, List.takeWhile_nil, List.append_nil] at happend

/-! ## Case -/

/-- `tolower` in the C locale. -/
def toLowerByte (c : UInt8) : UInt8 := if 65 ≤ c && c ≤ 90 then c + 32 else c

/-- `strcasecmp(a, b) == 0`. -/
def strcaseeq (a b : CString) : Bool := a.map toLowerByte == b.map toLowerByte

/-! ## Numbers -/

/-- A decimal digit as its character. -/
def digitChar (d : ℕ) : UInt8 := UInt8.ofNat (48 + d)

/-- `%d` and `%lld` of a number that is not negative. -/
def decimal (n : ℕ) : CString :=
  if n < 10 then [digitChar n] else decimal (n / 10) ++ [digitChar (n % 10)]

/-- `%d` and `%lld`. -/
def printInt (n : ℤ) : CString := if n < 0 then 45 :: decimal n.natAbs else decimal n.natAbs

/-- The value of a character as a digit of a base up to sixteen. -/
def digitVal (c : UInt8) : Option ℕ :=
  if 48 ≤ c && c ≤ 57 then some (c.toNat - 48)
  else if 97 ≤ c && c ≤ 102 then some (c.toNat - 87)
  else if 65 ≤ c && c ≤ 70 then some (c.toNat - 55)
  else none

/-- Digits of a base read onto `acc`, and the text behind them. -/
def scanDigits (base acc : ℕ) : CString → ℕ × CString
  | [] => (acc, [])
  | c :: rest =>
    match digitVal c with
    | some d => if d < base then scanDigits base (acc * base + d) rest else (acc, c :: rest)
    | none => (acc, c :: rest)

/-- `isspace` in the C locale. -/
def isSpace (c : UInt8) : Bool := c == 32 || 9 ≤ c && c ≤ 13

/-- White space skipped, then a sign. -/
def scanSign (text : CString) : Bool × CString :=
  match text.dropWhile isSpace with
  | 45 :: rest => (true, rest)
  | 43 :: rest => (false, rest)
  | rest => (false, rest)

/-- The digits `strtol` reads with base zero: hexadecimal behind `0x`, octal behind
`0`, decimal else. -/
def scanMagnitude (text : CString) : ℕ :=
  match text with
  | 48 :: x :: d :: rest =>
    if (x == 120 || x == 88) && (digitVal d).isSome then (scanDigits 16 0 (d :: rest)).1
    else (scanDigits 8 0 (x :: d :: rest)).1
  | 48 :: rest => (scanDigits 8 0 rest).1
  | rest => (scanDigits 10 0 rest).1

/-- The closest number that a signed type of `bits` bits holds. -/
def clamp (bits : ℕ) (x : ℤ) : ℤ := max (-2 ^ (bits - 1)) (min x (2 ^ (bits - 1) - 1))

/-- `strtol(text, NULL, 0)`, where a `long` has `bits` bits. -/
def strtol (bits : ℕ) (text : CString) : ℤ :=
  let magnitude : ℤ := scanMagnitude (scanSign text).2
  clamp bits (if (scanSign text).1 then -magnitude else magnitude)

/-- `%d` of `sscanf`: the number and the text behind it. -/
def scanInt (text : CString) : Option (ℤ × CString) :=
  match (scanSign text).2 with
  | [] => none
  | c :: rest =>
    if 48 ≤ c && c ≤ 57 then
      let r := scanDigits 10 0 (c :: rest)
      some (toInt32 (if (scanSign text).1 then -r.1 else r.1), r.2)
    else none

/-! ## Reading what was printed -/

theorem digitChar_toNat {d : ℕ} (h : d < 10) : (digitChar d).toNat = 48 + d := by
  rw [digitChar, UInt8.toNat_ofNat']
  omega

theorem digitVal_digitChar {d : ℕ} (h : d < 10) : digitVal (digitChar d) = some d := by
  have hnat := digitChar_toNat h
  have hlow : (48 : UInt8) ≤ digitChar d := by
    rw [UInt8.le_iff_toNat_le, hnat]
    exact Nat.le_add_right _ _
  have hhigh : digitChar d ≤ 57 := by
    rw [UInt8.le_iff_toNat_le, hnat]
    show 48 + d ≤ 57
    omega
  rw [digitVal, if_pos (by simp [hlow, hhigh]), hnat, Nat.add_sub_cancel_left]

theorem decimal_of_lt {n : ℕ} (h : n < 10) : decimal n = [digitChar n] := by
  rw [decimal, if_pos h]

theorem decimal_of_le {n : ℕ} (h : 10 ≤ n) :
    decimal n = decimal (n / 10) ++ [digitChar (n % 10)] := by
  rw [decimal, if_neg (not_lt.mpr h)]

theorem scanDigits_digitChar {d : ℕ} (h : d < 10) (acc : ℕ) (rest : CString) :
    scanDigits 10 acc (digitChar d :: rest) = scanDigits 10 (acc * 10 + d) rest := by
  rw [scanDigits, digitVal_digitChar h]
  exact if_pos h

theorem scanDigits_decimal (n : ℕ) (rest : CString) :
    scanDigits 10 0 (decimal n ++ rest) = scanDigits 10 n rest := by
  induction n using Nat.strong_induction_on generalizing rest with
  | h n ih =>
    by_cases hn : n < 10
    · rw [decimal_of_lt hn, List.singleton_append, scanDigits_digitChar hn, Nat.zero_mul,
        Nat.zero_add]
    · rw [decimal_of_le (not_lt.mp hn), List.append_assoc, List.singleton_append,
        ih (n / 10) (by omega), scanDigits_digitChar (Nat.mod_lt _ (by norm_num)),
        Nat.div_add_mod' n 10]

/-- A printed number starts with a digit, which is `0` for zero only. -/
theorem decimal_cons (n : ℕ) : ∃ d rest, decimal n = digitChar d :: rest ∧ d < 10 ∧
    (0 < n → 0 < d) := by
  induction n using Nat.strong_induction_on with
  | h n ih =>
    by_cases hn : n < 10
    · exact ⟨n, [], decimal_of_lt hn, hn, id⟩
    · rcases ih (n / 10) (by omega) with ⟨d, rest, hcons, hd, hpos⟩
      refine ⟨d, rest ++ [digitChar (n % 10)], ?_, hd, fun _ => hpos (by omega)⟩
      rw [decimal_of_le (not_lt.mp hn), hcons, List.cons_append]

theorem digitChar_ne {d : ℕ} (h : d < 10) {c : UInt8} (hc : c.toNat < 48 ∨ 58 ≤ c.toNat) :
    digitChar d ≠ c := by
  rintro rfl
  rw [digitChar_toNat h] at hc
  omega

theorem decimal_length {k : ℕ} (hk : 0 < k) {n : ℕ} (h : n < 10 ^ k) : (decimal n).length ≤ k := by
  induction k, hk using Nat.le_induction generalizing n with
  | base => rw [decimal_of_lt (by omega), List.length_singleton]
  | succ k hk ih =>
    by_cases hn : n < 10
    · rw [decimal_of_lt hn, List.length_singleton]
      omega
    · rw [decimal_of_le (not_lt.mp hn), List.length_append, List.length_singleton]
      have hrest : n / 10 < 10 ^ k := by
        rw [pow_succ] at h
        omega
      have := ih hrest
      omega

/-- A printed number has no sign when it is not negative. -/
theorem scanSign_decimal (n : ℕ) : scanSign (decimal n) = (false, decimal n) := by
  rcases decimal_cons n with ⟨d, rest, hcons, hd, -⟩
  have hnat := digitChar_toNat hd
  have hspace : isSpace (digitChar d) = false := by
    rw [isSpace, Bool.or_eq_false_iff, beq_eq_false_iff_ne, Bool.and_eq_false_iff]
    refine ⟨digitChar_ne hd (.inl (by decide)), .inr ?_⟩
    rw [decide_eq_false_iff_not, UInt8.le_iff_toNat_le, hnat]
    show ¬ 48 + d ≤ 13
    omega
  rw [scanSign, hcons, List.dropWhile_cons_of_neg (by simp [hspace])]
  have hminus : digitChar d ≠ 45 := digitChar_ne hd (.inl (by decide))
  have hplus : digitChar d ≠ 43 := digitChar_ne hd (.inl (by decide))
  split
  · rename_i heq
    exact absurd (List.cons.inj heq).1 hminus
  · rename_i heq
    exact absurd (List.cons.inj heq).1 hplus
  · rfl

theorem scanMagnitude_decimal (n : ℕ) : scanMagnitude (decimal n) = n := by
  have hread := congrArg Prod.fst (scanDigits_decimal n [])
  rw [List.append_nil] at hread
  rcases Nat.eq_zero_or_pos n with rfl | hn
  · rw [decimal_of_lt (by norm_num)]
    rfl
  · rcases decimal_cons n with ⟨d, rest, hcons, hd, hpos⟩
    have hzero : digitChar d ≠ 48 := by
      intro h
      have hnat := digitChar_toNat hd
      rw [h] at hnat
      have := hpos hn
      have h48 : (48 : UInt8).toNat = 48 := rfl
      omega
    rw [scanMagnitude]
    · exact hread
    · intro x e tail heq
      rw [hcons] at heq
      exact absurd (List.cons.inj heq).1 hzero
    · intro tail heq
      rw [hcons] at heq
      exact absurd (List.cons.inj heq).1 hzero

theorem strtol_printInt {n : ℤ} (h : 0 ≤ n) (bits : ℕ) : strtol bits (printInt n) = clamp bits n := by
  have hn : ((n.natAbs : ℕ) : ℤ) = n := Int.natAbs_of_nonneg h
  rw [printInt, if_neg (not_lt.mpr h), strtol, scanSign_decimal, scanMagnitude_decimal, hn]
  rfl

theorem decimal_ne_zero (n : ℕ) : ∀ c ∈ decimal n, c ≠ 0 := by
  induction n using Nat.strong_induction_on with
  | h n ih =>
    intro c hc
    by_cases hn : n < 10
    · rw [decimal_of_lt hn, List.mem_singleton] at hc
      rw [hc]
      exact digitChar_ne hn (.inl (by decide))
    · rw [decimal_of_le (not_lt.mp hn), List.mem_append, List.mem_singleton] at hc
      rcases hc with hc | rfl
      · exact ih (n / 10) (by omega) c hc
      · exact digitChar_ne (Nat.mod_lt _ (by norm_num)) (.inl (by decide))

/-! ## Unicode -/

/-- The bytes of a string in UTF-8. -/
def utf8 (s : String) : CString := s.toByteArray.data.toList

/-- The string that bytes encode in UTF-8. -/
def ofUtf8 (bytes : CString) : Option String := String.fromUTF8? bytes.toByteArray

@[simp] theorem ofUtf8_utf8 (s : String) : ofUtf8 (utf8 s) = some s := by
  have hbytes : (utf8 s).toByteArray = s.toByteArray := by
    apply ByteArray.ext
    rw [List.data_toByteArray, utf8, Array.toArray_toList]
  rw [ofUtf8, hbytes, String.fromUTF8?, dif_pos s.isValidUTF8]
  rfl

end SqliteSync.Library
