import SqliteSync.Codec.Bind

/-!
# Which buffers `pk_decode` stays inside

The decoder trusts the buffer: counts, byte counts and lengths drive its
position and nothing compares it with the end. `itemsAt` is the check it does
not make, and the results below say that its outcome decides whether a run
reads past the end or hands out a slice that reaches past it.
-/
namespace SqliteSync.Codec
open Library

def CbArgs.InBounds (buffer : List UInt8) (a : CbArgs) : Prop :=
  a.type = 3 ∨ a.type = 4 → ∃ p, a.pval = some p ∧ 0 ≤ a.ival ∧ p + a.ival.toNat ≤ buffer.length

def CbArgs.content (a : CbArgs) : Option ℕ :=
  if a.type = 3 ∨ a.type = 4 then some a.ival.toNat else none

/-- A callback with a log of its calls, the refused one included. -/
def logged {σ : Type} (cb : Callback σ) : Callback (List CbArgs × σ) :=
  fun s a => ((cb s.2 a).1, (s.1 ++ [a], (cb s.2 a).2))

/-- A run that read inside the buffer and handed out only slices of it. -/
def Safe {σ : Type} (buffer : List UInt8) (run : Option (DecodeResult (List CbArgs × σ))) : Prop :=
  ∃ r, run = some r ∧ ∀ a ∈ r.xdata.1, a.InBounds buffer

def pushByte (v : BitVec 64) (b : UInt8) : BitVec 64 := v <<< 8 ||| BitVec.ofNat 64 b.toNat

def beNumber (bytes : List UInt8) : BitVec 64 := bytes.foldl pushByte 0

def numberBytes (type nbytes : ℕ) : ℕ :=
  if type = 5 ∨ type = 6 then 0 else if type = 2 ∨ type = 7 then 8 else nbytes

/-- One complete item at a position, content included: its content length, for
TEXT and BLOB, and the position the decoder goes on from. -/
def itemAt (buffer : List UInt8) (pos : ℕ) : Option (Option ℕ × ℕ) :=
  match buffer[pos]? with
  | none => none
  | some tag =>
    let type := tag.toNat &&& 0x07
    let n := numberBytes type ((tag.toNat >>> 3) &&& 0x1F)
    if buffer.length < pos + 1 + n then none
    else if type = 3 ∨ type = 4 then
      let length := beNumber ((buffer.drop (pos + 1)).take n)
      if 0 ≤ length.toInt ∧ pos + 1 + n + length.toInt.toNat ≤ buffer.length then
        some (some length.toInt.toNat, pkDecodeData (pos + 1 + n) length)
      else none
    else some (none, pos + 1 + n)

/-- `count` complete items from a position on, or as many as come before and
with the first one to stop at. -/
def itemsAt (buffer : List UInt8) (stop : ℕ → Option ℕ → Bool) : ℕ → ℕ → ℕ → Option DecodeEnd
  | 0, _, pos => some (.done pos)
  | count + 1, i, pos => do
    let (length, next) ← itemAt buffer pos
    if stop i length then some .refused else itemsAt buffer stop count (i + 1) next

/-! ## One item -/

theorem pkDecodeInt64_eq (buffer : List UInt8) (n : ℕ) (v : BitVec 64) (pos : ℕ) :
    pkDecodeInt64 buffer n v pos =
      if pos + n ≤ buffer.length ∨ n = 0 then
        some (((buffer.drop pos).take n).foldl pushByte v, pos + n)
      else none := by
  induction n generalizing v pos with
  | zero => simp [pkDecodeInt64]
  | succ n ih =>
    rw [pkDecodeInt64, pkDecodeU8]
    by_cases hp : pos < buffer.length
    · rw [List.getElem?_eq_getElem hp, Option.map_some, Option.bind_eq_bind, Option.bind_some]
      dsimp only
      rw [ih, List.drop_eq_getElem_cons hp, List.take_succ_cons, List.foldl_cons,
        show pos + 1 + n = pos + (n + 1) by omega, pushByte]
      by_cases hn : pos + (n + 1) ≤ buffer.length
      · simp [hn]
      · have h0 : n ≠ 0 ∨ n = 0 := by omega
        simp [hn]
        omega
    · rw [List.getElem?_eq_none (by omega), if_neg (by omega)]
      rfl

theorem pkDecodeInt64_after {buffer : List UInt8} {pos : ℕ} (hp : pos < buffer.length) (n : ℕ) :
    pkDecodeInt64 buffer n 0 (pos + 1) =
      if buffer.length < pos + 1 + n then none
      else some (beNumber ((buffer.drop (pos + 1)).take n), pos + 1 + n) := by
  rw [pkDecodeInt64_eq]
  by_cases h : buffer.length < pos + 1 + n
  · rw [if_pos h, if_neg (by omega)]
  · rw [if_neg h, if_pos (by omega), beNumber]

/-- The check on an item and its decoding, side by side: where the check passes
the item is decoded with its slice inside, else the decoder leaves the buffer or
hands out a slice that does. -/
def Agrees (buffer : List UInt8) (i : ℕ) (check : Option (Option ℕ × ℕ))
    (run : Option (CbArgs × ℕ)) : Prop :=
  match check with
  | some (length, next) => ∃ a, run = some (a, next) ∧ a.index = i ∧ a.InBounds buffer ∧
      a.content = length
  | none => ∀ a next, run = some (a, next) → ¬ a.InBounds buffer

theorem agrees_plain (buffer : List UInt8) (i next : ℕ) (a : CbArgs) (hi : a.index = i)
    (ht : ¬ (a.type = 3 ∨ a.type = 4)) : Agrees buffer i (some (none, next)) (some (a, next)) :=
  ⟨a, rfl, hi, fun h => absurd h ht, if_neg ht⟩

theorem agrees_number {buffer : List UInt8} {pos : ℕ} (hp : pos < buffer.length) (i n : ℕ)
    (f : BitVec 64 → CbArgs) (hi : ∀ v, (f v).index = i)
    (hf : ∀ v, ¬ ((f v).type = 3 ∨ (f v).type = 4)) :
    Agrees buffer i (if buffer.length < pos + 1 + n then none else some (none, pos + 1 + n))
      ((pkDecodeInt64 buffer n 0 (pos + 1)).bind fun r => some (f r.1, r.2)) := by
  rw [pkDecodeInt64_after hp]
  by_cases h : buffer.length < pos + 1 + n
  · rw [if_pos h, if_pos h]
    intro a next he
    cases he
  · rw [if_neg h, if_neg h]
    exact agrees_plain buffer i _ _ (hi _) (hf _)

theorem agrees_bytes {buffer : List UInt8} {pos : ℕ} (hp : pos < buffer.length) (i type n : ℕ)
    (ht : type = 3 ∨ type = 4) :
    Agrees buffer i
      (if buffer.length < pos + 1 + n then none
      else if 0 ≤ (beNumber ((buffer.drop (pos + 1)).take n)).toInt ∧
          pos + 1 + n + (beNumber ((buffer.drop (pos + 1)).take n)).toInt.toNat ≤ buffer.length then
        some (some (beNumber ((buffer.drop (pos + 1)).take n)).toInt.toNat,
          pkDecodeData (pos + 1 + n) (beNumber ((buffer.drop (pos + 1)).take n)))
      else none)
      ((pkDecodeInt64 buffer n 0 (pos + 1)).bind fun r =>
        some (⟨i, type, r.1.toInt, 0, some r.2⟩, pkDecodeData r.2 r.1)) := by
  rw [pkDecodeInt64_after hp]
  by_cases h : buffer.length < pos + 1 + n
  · rw [if_pos h, if_pos h]
    intro a next he
    cases he
  · rw [if_neg h, if_neg h, Option.bind_some]
    generalize beNumber ((buffer.drop (pos + 1)).take n) = length
    by_cases hl : 0 ≤ length.toInt ∧ pos + 1 + n + length.toInt.toNat ≤ buffer.length
    · rw [if_pos hl]
      exact ⟨_, rfl, rfl, fun _ => ⟨_, rfl, hl⟩, if_pos ht⟩
    · rw [if_neg hl]
      intro a next he hin
      cases he
      rcases hin ht with ⟨p, hp, hin⟩
      cases hp
      exact hl hin

theorem agrees_itemAt (buffer : List UInt8) (i pos : ℕ) :
    Agrees buffer i (itemAt buffer pos) (pkDecodeValue buffer i pos) := by
  by_cases hp : pos < buffer.length
  · have ht : buffer[pos].toNat &&& 0x07 < 8 := lt_of_le_of_lt Nat.and_le_right (by omega)
    rw [itemAt, pkDecodeValue, pkDecodeU8, List.getElem?_eq_getElem hp]
    simp only [Option.map_some, Option.bind_eq_bind, Option.bind_some]
    generalize (buffer[pos].toNat >>> 3) &&& 0x1F = nbytes
    generalize buffer[pos].toNat &&& 0x07 = type at ht
    have hle : ¬ buffer.length < pos + 1 + 0 := by omega
    interval_cases type
    · exact agrees_number hp i nbytes (fun v => ⟨i, 1, (-v).toInt, 0, none⟩) (fun _ => rfl)
        (fun _ => by simp)
    · exact agrees_number hp i nbytes (fun v => ⟨i, 1, v.toInt, 0, none⟩) (fun _ => rfl)
        (fun _ => by simp)
    · exact agrees_number hp i 8 (fun v => ⟨i, 2, 0, v, none⟩) (fun _ => rfl) (fun _ => by simp)
    · exact agrees_bytes hp i 3 nbytes (.inl rfl)
    · exact agrees_bytes hp i 4 nbytes (.inr rfl)
    · simp only [numberBytes, true_or, if_true, if_neg hle]
      exact agrees_plain buffer i _ _ rfl (by simp)
    · simp only [numberBytes, or_true, if_true, if_neg hle]
      exact agrees_plain buffer i _ _ rfl (by simp)
    · exact agrees_number hp i 8 (fun v => ⟨i, 2, 0, Double.neg v, none⟩) (fun _ => rfl)
        (fun _ => by simp)
  · rw [itemAt, pkDecodeValue, pkDecodeU8, List.getElem?_eq_none (by omega)]
    intro a next h
    cases h

/-! ## The loop -/

/-- A run of the loop that stayed inside and handed out only slices of the buffer. -/
def SafeItems {σ : Type} (buffer : List UInt8)
    (run : Option (DecodeEnd × List CbArgs × σ)) (e : DecodeEnd) : Prop :=
  ∃ s, run = some (e, s) ∧ ∀ a ∈ s.1, a.InBounds buffer

/-- Where the check passes and the callback refuses what the check stops at, the
loop is safe. It ends as the check does, unless the callback refuses an item the
check goes past. -/
theorem pkDecodeItems_safe {σ : Type} {buffer : List UInt8} (stop : ℕ → Option ℕ → Bool)
    {cb : Callback σ} (hcb : ∀ x a, a.InBounds buffer → stop a.index a.content = true → (cb x a).1 = false)
    (count i pos : ℕ) (s : List CbArgs × σ) (hs : ∀ a ∈ s.1, a.InBounds buffer) (e : DecodeEnd)
    (h : itemsAt buffer stop count i pos = some e) :
    SafeItems buffer (pkDecodeItems buffer (logged cb) count i pos s) e ∨
      SafeItems buffer (pkDecodeItems buffer (logged cb) count i pos s) .refused ∧
        ∃ x a, a.InBounds buffer ∧ stop a.index a.content = false ∧ (cb x a).1 = false := by
  induction count generalizing i pos s with
  | zero =>
    rw [itemsAt, Option.some.injEq] at h
    subst h
    exact .inl ⟨s, rfl, hs⟩
  | succ count ih =>
    have ha := agrees_itemAt buffer i pos
    rw [itemsAt] at h
    cases hit : itemAt buffer pos with
    | none => simp [hit] at h
    | some r =>
      obtain ⟨length, next⟩ := r
      rw [hit] at ha
      rcases ha with ⟨a, hv, rfl, hin, rfl⟩
      simp only [hit, Option.bind_eq_bind, Option.bind_some] at h
      have hs' : ∀ b ∈ s.1 ++ [a], b.InBounds buffer := fun b hb => by
        rcases List.mem_append.mp hb with hb | hb
        · exact hs b hb
        · rwa [List.mem_singleton.mp hb]
      rw [pkDecodeItems, hv]
      simp only [Option.bind_eq_bind, Option.bind_some, logged]
      cases hst : stop a.index a.content with
      | true =>
        have hacc := hcb s.2 a hin hst
        rw [hst, if_pos rfl, Option.some.injEq] at h
        subst h
        rw [hacc]
        exact .inl ⟨_, rfl, hs'⟩
      | false =>
        cases hacc : (cb s.2 a).1 with
        | false => exact .inr ⟨⟨_, rfl, hs'⟩, s.2, a, hin, hst, hacc⟩
        | true =>
          rw [hst] at h
          exact ih _ _ _ hs' h

theorem mem_logged_of_mem {σ : Type} {buffer : List UInt8} {cb : Callback σ} (count i pos : ℕ)
    (s s' : List CbArgs × σ) (e : DecodeEnd)
    (h : pkDecodeItems buffer (logged cb) count i pos s = some (e, s')) (a : CbArgs)
    (ha : a ∈ s.1) : a ∈ s'.1 := by
  induction count generalizing i pos s with
  | zero =>
    simp only [pkDecodeItems, Option.some.injEq, Prod.mk.injEq] at h
    rwa [← h.2]
  | succ count ih =>
    rw [pkDecodeItems] at h
    cases hv : pkDecodeValue buffer i pos with
    | none => simp [hv] at h
    | some r =>
      obtain ⟨b, next⟩ := r
      simp only [hv, Option.bind_eq_bind, Option.bind_some, logged] at h
      have ha' : a ∈ s.1 ++ [b] := List.mem_append_left _ ha
      cases hacc : (cb s.2 b).1 with
      | false =>
        simp only [hacc, Option.some.injEq, Prod.mk.injEq] at h
        rwa [← h.2]
      | true =>
        simp only [hacc] at h
        exact ih _ _ (s.1 ++ [b], (cb s.2 b).2) h ha'

/-- Where the check fails and the callback accepts what the check goes past, the
loop is not safe. -/
theorem pkDecodeItems_unsafe {σ : Type} {buffer : List UInt8} (stop : ℕ → Option ℕ → Bool)
    {cb : Callback σ} (hcb : ∀ x a, a.InBounds buffer → stop a.index a.content = false → (cb x a).1 = true)
    (count i pos : ℕ) (s : List CbArgs × σ) (h : itemsAt buffer stop count i pos = none)
    (e : DecodeEnd) : ¬ SafeItems buffer (pkDecodeItems buffer (logged cb) count i pos s) e := by
  induction count generalizing i pos s with
  | zero => simp [itemsAt] at h
  | succ count ih =>
    have ha := agrees_itemAt buffer i pos
    rw [itemsAt] at h
    rw [pkDecodeItems]
    cases hit : itemAt buffer pos with
    | none =>
      rw [hit] at ha
      rintro ⟨s', hrun, hs'⟩
      cases hv : pkDecodeValue buffer i pos with
      | none => simp [hv] at hrun
      | some r =>
        obtain ⟨a, next⟩ := r
        have hout : ¬ a.InBounds buffer := ha a next hv
        simp only [hv, Option.bind_eq_bind, Option.bind_some, logged] at hrun
        have hmem : a ∈ s.1 ++ [a] := List.mem_append_right _ (List.mem_singleton.mpr rfl)
        cases hacc : (cb s.2 a).1 with
        | false =>
          simp only [hacc, Option.some.injEq, Prod.mk.injEq] at hrun
          exact hout (hs' a (by rwa [← hrun.2]))
        | true =>
          simp only [hacc] at hrun
          exact hout (hs' a (mem_logged_of_mem _ _ _ (s.1 ++ [a], (cb s.2 a).2) s' e hrun a hmem))
    | some r =>
      obtain ⟨length, next⟩ := r
      rw [hit] at ha
      rcases ha with ⟨a, hv, rfl, hin, rfl⟩
      simp only [hit, Option.bind_eq_bind, Option.bind_some] at h
      cases hst : stop a.index a.content with
      | true => simp [hst] at h
      | false =>
        rw [hst] at h
        simp only [hv, Option.bind_eq_bind, Option.bind_some, logged, hcb s.2 a hin hst]
        exact ih _ _ _ h

/-! ## `pk_decode` and `pk_decode_prikey` -/

/-- The number of items and the first position of a `pk_decode` call. -/
def decodeStart (buffer : List UInt8) (count : ℤ) (seek : ℕ) : Option (ℕ × ℕ) :=
  if count = -1 then buffer[seek]?.map fun n => (n.toNat, seek + 1) else some (sizeT count, seek)

/-- The check on a whole `pk_decode` call. -/
def decodeCheck (buffer : List UInt8) (stop : ℕ → Option ℕ → Bool) (count : ℤ) (seek : ℕ) :
    Option DecodeEnd :=
  (decodeStart buffer count seek).bind fun s => itemsAt buffer stop s.1 0 s.2

theorem pkDecode_eq {σ : Type} (buffer : List UInt8) (count : ℤ) (seek : ℕ) (cb : Callback σ)
    (xdata : σ) :
    pkDecode buffer count seek cb xdata =
      (decodeStart buffer count seek).bind fun s =>
        (pkDecodeItems buffer cb s.1 0 s.2 xdata).map fun
          | (.refused, x) => ⟨-1, seek, x⟩
          | (.done bseek, x) => ⟨if count = -1 then (s.1 : ℤ) else count, bseek, x⟩ := by
  rw [pkDecode, decodeStart]
  by_cases hc : count = -1
  · cases hb : buffer[seek]? with
    | none => simp [hc, pkDecodeU8, hb]
    | some n =>
      have hn := sizeT_natCast n.toNat (by have := n.toNat_lt; omega)
      simp only [hc, if_true, pkDecodeU8, hb, Option.map_some, Option.bind_eq_bind,
        Option.bind_some, hn]
      cases pkDecodeItems buffer cb n.toNat 0 (seek + 1) xdata with
      | none => rfl
      | some r => rcases r with ⟨_ | _, x⟩ <;> rfl
  · simp only [hc, if_false, Option.bind_eq_bind, Option.bind_some]
    cases pkDecodeItems buffer cb (sizeT count) 0 seek xdata with
    | none => rfl
    | some r => rcases r with ⟨_ | _, x⟩ <;> rfl

/-- A `pk_decode` call is safe exactly where its loop is. -/
theorem safe_pkDecode_iff {σ : Type} (buffer : List UInt8) (count : ℤ) (seek : ℕ)
    (cb : Callback σ) (xdata : σ) :
    Safe buffer (pkDecode buffer count seek (logged cb) ([], xdata)) ↔
      ∃ s, decodeStart buffer count seek = some s ∧
        ∃ e, SafeItems buffer (pkDecodeItems buffer (logged cb) s.1 0 s.2 ([], xdata)) e := by
  rw [pkDecode_eq]
  cases decodeStart buffer count seek with
  | none => simp [Safe]
  | some s =>
    simp only [Option.bind_some, Option.some.injEq, exists_eq_left', Safe, SafeItems]
    cases pkDecodeItems buffer (logged cb) s.1 0 s.2 ([], xdata) with
    | none => simp
    | some r => rcases r with ⟨_ | _, log, x⟩ <;> simp

theorem pkDecode_safe {σ : Type} {buffer : List UInt8} (stop : ℕ → Option ℕ → Bool)
    {cb : Callback σ} (hcb : ∀ x a, a.InBounds buffer → stop a.index a.content = true → (cb x a).1 = false)
    (count : ℤ) (seek : ℕ) (xdata : σ) (h : (decodeCheck buffer stop count seek).isSome) :
    Safe buffer (pkDecode buffer count seek (logged cb) ([], xdata)) := by
  rw [safe_pkDecode_iff]
  rw [decodeCheck] at h
  cases hs : decodeStart buffer count seek with
  | none => simp [hs] at h
  | some s =>
    rw [hs, Option.bind_some, Option.isSome_iff_exists] at h
    rcases h with ⟨e, he⟩
    rcases pkDecodeItems_safe stop hcb s.1 0 s.2 ([], xdata) (by simp) e he with h | ⟨h, -⟩
    · exact ⟨s, rfl, e, h⟩
    · exact ⟨s, rfl, .refused, h⟩

theorem pkDecode_unsafe {σ : Type} {buffer : List UInt8} (stop : ℕ → Option ℕ → Bool)
    {cb : Callback σ} (hcb : ∀ x a, a.InBounds buffer → stop a.index a.content = false → (cb x a).1 = true)
    (count : ℤ) (seek : ℕ) (xdata : σ) (h : decodeCheck buffer stop count seek = none) :
    ¬ Safe buffer (pkDecode buffer count seek (logged cb) ([], xdata)) := by
  rw [safe_pkDecode_iff]
  rintro ⟨s, hs, e, he⟩
  rw [decodeCheck, hs, Option.bind_some] at h
  exact pkDecodeItems_unsafe stop hcb s.1 0 s.2 ([], xdata) h e he

/-- `*seek` after a call that ended so. -/
def DecodeEnd.seek (start : ℕ) : DecodeEnd → ℕ
  | .done bseek => bseek
  | .refused => start

/-- Where the callback refuses exactly what the check stops at, a safe call ends
where the check does. -/
theorem pkDecode_seek {σ : Type} {buffer : List UInt8} (stop : ℕ → Option ℕ → Bool)
    {cb : Callback σ} (hcb : ∀ x a, a.InBounds buffer → (cb x a).1 = !stop a.index a.content)
    (count : ℤ) (seek : ℕ) (xdata : σ) (e : DecodeEnd)
    (h : decodeCheck buffer stop count seek = some e) :
    ∃ r, pkDecode buffer count seek (logged cb) ([], xdata) = some r ∧
      (∀ a ∈ r.xdata.1, a.InBounds buffer) ∧ r.seek = e.seek seek := by
  rw [decodeCheck] at h
  rw [pkDecode_eq]
  cases hs : decodeStart buffer count seek with
  | none => simp [hs] at h
  | some s =>
    rw [hs, Option.bind_some] at h
    have hrefuse : ∀ x a, a.InBounds buffer → stop a.index a.content = true → (cb x a).1 = false :=
      fun x a ha hst => by rw [hcb x a ha, hst]; rfl
    rcases pkDecodeItems_safe stop hrefuse s.1 0 s.2 ([], xdata) (by simp) e h with
      ⟨x, hrun, hlog⟩ | ⟨-, x, a, ha, hst, hacc⟩
    · simp only [Option.bind_some, hrun, Option.map_some]
      cases e with
      | done bseek => exact ⟨_, rfl, hlog, rfl⟩
      | refused => exact ⟨_, rfl, hlog, rfl⟩
    · rw [hcb x a ha, hst] at hacc
      cases hacc

/-- Over all callbacks: a call is safe whatever the callback does exactly where
the buffer holds every item asked for. -/
theorem pkDecode_safe_iff (buffer : List UInt8) (count : ℤ) (seek : ℕ) :
    (∀ (σ : Type) (cb : Callback σ) (xdata : σ),
      Safe buffer (pkDecode buffer count seek (logged cb) ([], xdata))) ↔
      (decodeCheck buffer (fun _ _ => false) count seek).isSome := by
  constructor
  · intro h
    by_contra hn
    exact pkDecode_unsafe (fun _ _ => false) (fun _ _ _ _ => rfl) count seek () (by simpa using hn)
      (h Unit (fun x _ => (true, x)) ())
  · intro h σ cb xdata
    exact pkDecode_safe (fun _ _ => false) (fun _ _ _ h => by cases h) count seek xdata h

/-! ## Binding callbacks -/

/-- The item a binding callback refuses: one past the last parameter, or one
with more content than the connection allows. -/
def bindStop (limit nparams i : ℕ) (length : Option ℕ) : Bool :=
  decide (nparams ≤ i) || decide (limit < length.getD 0)

/-- On a slice of a buffer no longer than an `int`, the binds accept what the
check does not stop at. -/
theorem bindAccepts_eq {buffer : List UInt8} (hb : buffer.length < 2 ^ 31) (limit nparams : ℕ)
    {a : CbArgs} (ha : a.InBounds buffer) :
    bindAccepts limit nparams a = !bindStop limit nparams a.index a.content := by
  have hidx : decide (a.index < nparams) = !decide (nparams ≤ a.index) := by
    by_cases h : a.index < nparams
    · simp [h]
    · have h' : nparams ≤ a.index := not_lt.mp h
      simp [h, h']
  rw [bindAccepts, bindStop, Bool.not_or, hidx]
  congr 1
  by_cases ht : a.type = 3 ∨ a.type = 4
  · rcases ha ht with ⟨p, -, h0, hlen⟩
    have h32 := toInt32_of_lt h0 (by omega)
    have h64 : (BitVec.ofInt 64 a.ival).toNat = a.ival.toNat := by
      rw [BitVec.toNat_ofInt]
      omega
    rw [CbArgs.content, if_pos ht, Option.getD_some]
    rcases ht with ht | ht <;> rw [ht] <;> by_cases hl : limit < a.ival.toNat <;>
      simp [h32, h64, hl] <;> omega
  · rw [CbArgs.content, if_neg ht, Option.getD_none]
    split
    · exact absurd (.inl ‹_›) ht
    · exact absurd (.inr ‹_›) ht
    · simp

theorem safe_pkDecodePrikey_iff {σ : Type} (buffer : List UInt8) (cb : Callback σ) (xdata : σ) :
    Safe buffer (pkDecodePrikey buffer (logged cb) ([], xdata)) ↔
      Safe buffer (pkDecode buffer (-1) 0 (logged cb) ([], xdata)) := by
  rw [safe_pkDecode_iff, pkDecodePrikey, pkDecodeU8, decodeStart, if_pos rfl]
  cases hb : buffer[0]? with
  | none => simp [Safe]
  | some n =>
    have hn := sizeT_natCast n.toNat (by have := n.toNat_lt; omega)
    have hne : (n.toNat : ℤ) ≠ -1 := by omega
    simp only [Option.map_some, Option.bind_eq_bind, Option.bind_some]
    rw [safe_pkDecode_iff, decodeStart, if_neg hne, hn]

/-- A call that binds to a statement is safe exactly where the buffer holds
every item up to the first one the statement refuses. -/
theorem pkDecode_bind_safe_iff {buffer : List UInt8} (hb : buffer.length < 2 ^ 31)
    (limit nparams : ℕ) (count : ℤ) (seek : ℕ) (vm : Stmt) :
    Safe buffer (pkDecode buffer count seek (logged (pkDecodeBindCallback limit nparams)) ([], vm)) ↔
      (decodeCheck buffer (bindStop limit nparams) count seek).isSome := by
  constructor
  · intro h
    by_contra hn
    refine pkDecode_unsafe (bindStop limit nparams) (fun x a ha hs => ?_) count seek vm
      (by simpa using hn) h
    rw [pkDecodeBindCallback_fst, bindAccepts_eq hb limit nparams ha, hs]
    rfl
  · intro h
    refine pkDecode_safe (bindStop limit nparams) (fun x a ha hs => ?_) count seek vm h
    rw [pkDecodeBindCallback_fst, bindAccepts_eq hb limit nparams ha, hs]
    rfl

end SqliteSync.Codec
