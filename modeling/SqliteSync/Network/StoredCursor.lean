import SqliteSync.Config.Settings
import SqliteSync.Payload.Apply

/-!
# The cursors in the settings

The send and the check cursor are numbers of 64 bits, stored as text and read back
into an `int` in four places.
-/
namespace SqliteSync.Network
open Library Store Config

/-- What the readers of a cursor depend on beside the settings: the memory, the width
of a `long`. -/
structure Reader where
  alloc : Bool
  longBits : ℕ

section
variable (d : Reader) (s : Settings)

def Reader.int (key : String) : ℤ := dbutilsSettingsGetIntValue s key d.alloc d.longBits

/-- The cursor at the start of `cloudsync_network_send_changes_internal` and of
`cloudsync_network_check_internal`. -/
def Reader.cursor (dbVersionKey seqKey : String) : Except String (ℤ × ℤ) :=
  let dbVersion := d.int s dbVersionKey
  if dbVersion < 0 then .error "Unable to retrieve db_version."
  else
    let seq := d.int s seqKey
    if seq < 0 then .error "Unable to retrieve seq." else .ok (dbVersion, seq)

def sendFilter (dbVersion seq : ℤ) : CString :=
  ascii "db_version>" ++ printInt dbVersion ++ ascii " OR (db_version=" ++ printInt dbVersion ++
    ascii " AND seq>" ++ printInt seq ++ ascii ")"

def Reader.sendFilter : Except String CString :=
  (d.cursor s CLOUDSYNC_KEY_SEND_DBVERSION CLOUDSYNC_KEY_SEND_SEQ).map fun c =>
    Network.sendFilter c.1 c.2

def checkEndpoint (endpoint : CString) (dbVersion seq : ℤ) : CString :=
  (endpoint ++ ascii "/" ++ printInt dbVersion ++ ascii "/" ++ printInt seq ++ ascii "/" ++
    ascii "check").take 2023

def Reader.checkEndpoint (endpoint : CString) : Except String CString :=
  (d.cursor s CLOUDSYNC_KEY_CHECK_DBVERSION CLOUDSYNC_KEY_CHECK_SEQ).map fun c =>
    Network.checkEndpoint endpoint c.1 c.2

/-- The last line of `cloudsync_network_has_unsent_changes`. -/
def Reader.hasUnsent (lastLocalChange : ℤ) : Bool :=
  decide (d.int s CLOUDSYNC_KEY_SEND_DBVERSION < lastLocalChange)

/-- The comparisons at the end of `cloudsync_payload_apply`: whether the check
`db_version` is written, and whether the `seq` is. -/
def Reader.applies (dbVersion seq : ℤ) : Bool × Bool :=
  (decide (d.int s CLOUDSYNC_KEY_CHECK_DBVERSION ≤ dbVersion),
    decide (seq ≠ d.int s CLOUDSYNC_KEY_CHECK_SEQ))

/-- `snprintf(buf, "%lld", ...)` into the settings. -/
def storeInt (key : String) (value : ℤ) : Settings :=
  dbutilsSettingsSetKeyValue s (some key) (some (printInt value))

/-- The end of `cloudsync_network_send_changes_internal`. -/
def Reader.storeSent (newDbVersion newSeq : ℤ) : Settings :=
  let dbVersion := d.int s CLOUDSYNC_KEY_SEND_DBVERSION
  let seq := d.int s CLOUDSYNC_KEY_SEND_SEQ
  let s := if newDbVersion ≠ dbVersion then storeInt s CLOUDSYNC_KEY_SEND_DBVERSION newDbVersion
    else s
  if newSeq ≠ seq then storeInt s CLOUDSYNC_KEY_SEND_SEQ newSeq else s

/-- The end of `cloudsync_payload_apply`. -/
def Reader.storeApplied (dbVersion seq : ℤ) : Settings :=
  let writes := d.applies s dbVersion seq
  if writes.1 then
    let s := storeInt s CLOUDSYNC_KEY_CHECK_DBVERSION dbVersion
    if writes.2 then storeInt s CLOUDSYNC_KEY_CHECK_SEQ seq else s
  else s

end

/-- All that reads the send cursor reads these numbers. -/
structure SendReads (d : Reader) (s : Settings) (dbVersion seq : ℤ) : Prop where
  cursor : d.cursor s CLOUDSYNC_KEY_SEND_DBVERSION CLOUDSYNC_KEY_SEND_SEQ = .ok (dbVersion, seq)
  filter : d.sendFilter s = .ok (sendFilter dbVersion seq)
  unsent : ∀ lastLocalChange, d.hasUnsent s lastLocalChange = decide (dbVersion < lastLocalChange)

/-- All that reads the check cursor reads these numbers. -/
structure CheckReads (d : Reader) (s : Settings) (dbVersion seq : ℤ) : Prop where
  cursor : d.cursor s CLOUDSYNC_KEY_CHECK_DBVERSION CLOUDSYNC_KEY_CHECK_SEQ = .ok (dbVersion, seq)
  endpoint : ∀ endpoint, d.checkEndpoint s endpoint = .ok (checkEndpoint endpoint dbVersion seq)
  applies : ∀ v q, d.applies s v q = (decide (dbVersion ≤ v), decide (q ≠ seq))

section
variable {d : Reader} {s : Settings}

theorem Reader.int_of_stored {key : String} {v : ℤ}
    (h : s.get (lowered key) = some (some (printInt v))) (hv : 0 ≤ v) (hlong : v < 10 ^ 255) :
    d.int s key = toInt32 (clamp d.longBits v) := by
  have hprint : printInt v = decimal v.natAbs := if_neg (not_lt.mpr hv)
  have hlength : (printInt v).length < (List.replicate 256 (0 : UInt8)).length := by
    rw [hprint, List.length_replicate]
    have := decimal_length (by norm_num : 0 < 255) (by omega : v.natAbs < 10 ^ 255)
    omega
  have hnul : ∀ c ∈ printInt v, c ≠ 0 := by
    rw [hprint]
    exact decimal_ne_zero _
  have hread := getValue_fits hlength hnul d.alloc
  rw [List.length_replicate, Option.map_eq_some_iff] at hread
  rcases hread with ⟨memory, hmemory, -⟩
  rw [Reader.int, dbutilsSettingsGetIntValue, dbutilsSettingsGetValue, h, List.length_replicate,
    hmemory]
  dsimp only
  rw [filled_fits hlength hnul, strtol_printInt hv]

theorem Reader.int_of_missing {key : String} (h : s.get (lowered key) = none) : d.int s key = 0 := by
  have hzero : stringAt (List.replicate 256 0) = [] := by simp [stringAt]
  have hclamp : clamp d.longBits 0 = 0 := by
    rw [clamp, min_eq_left, max_eq_right]
    · exact neg_nonpos.mpr (by positivity)
    · exact sub_nonneg.mpr (one_le_pow₀ (by norm_num))
  rw [Reader.int, dbutilsSettingsGetIntValue, dbutilsSettingsGetValue, h,
    getValue_missing (by rfl), filled_missing (by rfl)]
  dsimp only
  rw [hzero]
  change toInt32 (clamp d.longBits 0) = 0
  rw [hclamp]
  rfl

theorem Reader.int_eq_settingsGetInt {key : String} {v : Option ℤ}
    (h : s.get (lowered key) = v.map fun v => some (printInt v)) (hd : d.longBits = 64)
    (hv : ∀ x ∈ v, 0 ≤ x ∧ x < 2 ^ 63) : d.int s key = Payload.settingsGetInt v := by
  cases v with
  | none => exact d.int_of_missing h
  | some v =>
    rcases hv v rfl with ⟨hpos, hlong⟩
    have hclamp : clamp d.longBits v = v := by
      rw [clamp, hd, min_eq_left (by omega), max_eq_right (by omega)]
    rw [d.int_of_stored h hpos (hlong.trans (by norm_num)), hclamp]
    rfl

theorem Reader.int_eq_iff {key : String} {v : ℤ}
    (h : s.get (lowered key) = some (some (printInt v))) (hd : 32 ≤ d.longBits) (hv : 0 ≤ v)
    (hlong : v < 10 ^ 255) : d.int s key = v ↔ v < 2 ^ 31 := by
  rw [d.int_of_stored h hv hlong]
  constructor
  · intro heq
    rw [← heq]
    exact toInt32_lt _
  · intro hsmall
    have hpow : (2 : ℤ) ^ 31 ≤ 2 ^ (d.longBits - 1) :=
      pow_le_pow_right₀ (by norm_num) (by omega)
    have hclamp : clamp d.longBits v = v := by
      rw [clamp, min_eq_left (by omega), max_eq_right (by omega)]
    rw [hclamp, toInt32_of_lt hv hsmall]

theorem get_storeInt_self (s : Settings) (key : String) (v : ℤ) (hv : 0 ≤ v) :
    (storeInt s key v).get (lowered key) = some (some (printInt v)) := by
  have hprint : printInt v = decimal v.natAbs := if_neg (not_lt.mpr hv)
  have hstring : stringAt (printInt v) = printInt v := by
    rw [hprint, stringAt_eq_self (decimal_ne_zero _)]
  rw [storeInt, dbutilsSettingsSetKeyValue, Keyed.get_replace, if_pos rfl, hstring]

theorem int_storeInt_ne {key key' : String} (hkey : lowered key' ≠ lowered key) (v : ℤ) :
    d.int (storeInt s key v) key' = d.int s key' := by
  rw [Reader.int, dbutilsSettingsGetIntValue, dbutilsSettingsGetValue, storeInt,
    dbutilsSettingsSetKeyValue, Keyed.get_replace, if_neg hkey]
  rfl

theorem lowered_sendSeq_ne :
    lowered CLOUDSYNC_KEY_SEND_SEQ ≠ lowered CLOUDSYNC_KEY_SEND_DBVERSION := by decide

theorem lowered_checkSeq_ne :
    lowered CLOUDSYNC_KEY_CHECK_SEQ ≠ lowered CLOUDSYNC_KEY_CHECK_DBVERSION := by decide

/-- A number is read back as the sender leaves it exactly when it has 31 bits. -/
theorem int_storeIfNew_iff {key : String} {v : ℤ} (hd : 32 ≤ d.longBits) (hv : 0 ≤ v)
    (hlong : v < 10 ^ 255) :
    d.int (if v ≠ d.int s key then storeInt s key v else s) key = v ↔ v < 2 ^ 31 := by
  by_cases hnew : v = d.int s key
  · rw [if_neg (not_not.mpr hnew)]
    refine iff_of_true hnew.symm ?_
    rw [hnew, Reader.int, dbutilsSettingsGetIntValue]
    split
    · norm_num
    · exact toInt32_lt _
  · rw [if_pos hnew]
    exact d.int_eq_iff (get_storeInt_self s key v hv) hd hv hlong

/-- The second number of a pair is read back as it is stored, and the first as before. -/
theorem int_storeSecond {key key' : String} (hkey : lowered key' ≠ lowered key)
    (hd : 32 ≤ d.longBits) {q : ℤ} (hq : 0 ≤ q) (hsmall : q < 2 ^ 31) {t : Settings}
    (ht : t = if q ≠ d.int s key' then storeInt s key' q else s) :
    d.int t key' = q ∧ d.int t key = d.int s key := by
  subst ht
  constructor
  · exact (int_storeIfNew_iff hd hq (hsmall.trans (by norm_num))).mpr hsmall
  · split_ifs
    · exact int_storeInt_ne hkey.symm q
    · rfl

/-- The pair is read as it is, and is not missing, when both numbers are read so. -/
theorem Reader.cursor_eq_ok_iff {dbVersionKey seqKey : String} {v q : ℤ} (hv : 0 ≤ v) (hq : 0 ≤ q) :
    d.cursor s dbVersionKey seqKey = .ok (v, q) ↔ d.int s dbVersionKey = v ∧ d.int s seqKey = q := by
  rw [Reader.cursor]
  constructor
  · intro h
    dsimp only at h
    split_ifs at h
    rw [Except.ok.injEq, Prod.mk.injEq] at h
    exact h
  · rintro ⟨hversion, hseq⟩
    rw [hversion, hseq, if_neg (not_lt.mpr hv)]
    exact if_neg (not_lt.mpr hq)

theorem sendReads_iff {v q : ℤ} (hv : 0 ≤ v) (hq : 0 ≤ q) :
    SendReads d s v q ↔
      d.int s CLOUDSYNC_KEY_SEND_DBVERSION = v ∧ d.int s CLOUDSYNC_KEY_SEND_SEQ = q := by
  constructor
  · exact fun h => (Reader.cursor_eq_ok_iff hv hq).mp h.cursor
  · intro h
    have hcursor := (Reader.cursor_eq_ok_iff hv hq).mpr h
    refine ⟨hcursor, ?_, fun l => ?_⟩
    · rw [Reader.sendFilter, hcursor]
      rfl
    · rw [Reader.hasUnsent, h.1]

theorem checkReads_iff {v q : ℤ} (hv : 0 ≤ v) (hq : 0 ≤ q) :
    CheckReads d s v q ↔
      d.int s CLOUDSYNC_KEY_CHECK_DBVERSION = v ∧ d.int s CLOUDSYNC_KEY_CHECK_SEQ = q := by
  constructor
  · exact fun h => (Reader.cursor_eq_ok_iff hv hq).mp h.cursor
  · intro h
    have hcursor := (Reader.cursor_eq_ok_iff hv hq).mpr h
    refine ⟨hcursor, fun endpoint => ?_, fun x y => ?_⟩
    · rw [Reader.checkEndpoint, hcursor]
      rfl
    · rw [Reader.applies, h.1, h.2]

theorem storeSent_reads_iff (hd : 32 ≤ d.longBits) {v q : ℤ} (hv : 0 ≤ v) (hlong : v < 10 ^ 255)
    (hq : 0 ≤ q) (hsmall : q < 2 ^ 31) : SendReads d (d.storeSent s v q) v q ↔ v < 2 ^ 31 := by
  let t := if v ≠ d.int s CLOUDSYNC_KEY_SEND_DBVERSION then
    storeInt s CLOUDSYNC_KEY_SEND_DBVERSION v else s
  have hseq : d.int t CLOUDSYNC_KEY_SEND_SEQ = d.int s CLOUDSYNC_KEY_SEND_SEQ := by
    by_cases hnew : v ≠ d.int s CLOUDSYNC_KEY_SEND_DBVERSION
    · rw [show t = storeInt s CLOUDSYNC_KEY_SEND_DBVERSION v from if_pos hnew,
        int_storeInt_ne lowered_sendSeq_ne]
    · rw [show t = s from if_neg hnew]
  have hstored : d.storeSent s v q =
      if q ≠ d.int t CLOUDSYNC_KEY_SEND_SEQ then storeInt t CLOUDSYNC_KEY_SEND_SEQ q else t := by
    rw [hseq]
    rfl
  obtain ⟨hreadSeq, hreadVersion⟩ := int_storeSecond lowered_sendSeq_ne hd hq hsmall hstored
  rw [sendReads_iff hv hq, hreadVersion, and_iff_left hreadSeq]
  exact int_storeIfNew_iff hd hv hlong

theorem storeApplied_reads_iff (hd : 32 ≤ d.longBits) {v q : ℤ} (hv : 0 ≤ v) (hlong : v < 10 ^ 255)
    (hq : 0 ≤ q) (hsmall : q < 2 ^ 31) (happlies : d.int s CLOUDSYNC_KEY_CHECK_DBVERSION ≤ v) :
    CheckReads d (d.storeApplied s v q) v q ↔ v < 2 ^ 31 := by
  let t := storeInt s CLOUDSYNC_KEY_CHECK_DBVERSION v
  have hseq : d.int t CLOUDSYNC_KEY_CHECK_SEQ = d.int s CLOUDSYNC_KEY_CHECK_SEQ :=
    int_storeInt_ne lowered_checkSeq_ne v
  have hstored : d.storeApplied s v q =
      if q ≠ d.int t CLOUDSYNC_KEY_CHECK_SEQ then storeInt t CLOUDSYNC_KEY_CHECK_SEQ q else t := by
    rw [hseq, Reader.storeApplied, Reader.applies]
    simp only [decide_eq_true happlies, if_true, decide_eq_true_eq]
    rfl
  obtain ⟨hreadSeq, hreadVersion⟩ := int_storeSecond lowered_checkSeq_ne hd hq hsmall hstored
  rw [checkReads_iff hv hq, hreadVersion, and_iff_left hreadSeq]
  exact d.int_eq_iff (get_storeInt_self s _ v hv) hd hv hlong

end

/-- A cursor of the documented range, once the sender or a payload has stored it, is read
back as it is by everything that reads it exactly when its `db_version` has 31 bits. -/
theorem cursor_survives_iff (d : Reader) (hd : 32 ≤ d.longBits) (s : Settings) (v q : ℤ)
    (hv : 0 ≤ v ∧ v < 2 ^ 34) (hq : 0 ≤ q ∧ q < 2 ^ 30) :
    SendReads d (d.storeSent s v q) v q ∧
        (d.int s CLOUDSYNC_KEY_CHECK_DBVERSION ≤ v → CheckReads d (d.storeApplied s v q) v q) ↔
      v < 2 ^ 31 := by
  have hlong : v < 10 ^ 255 := hv.2.trans (by norm_num)
  have hsmall : q < 2 ^ 31 := hq.2.trans (by norm_num)
  rw [storeSent_reads_iff hd hv.1 hlong hq.1 hsmall]
  constructor
  · exact fun h => h.1
  · intro h
    exact ⟨h, fun happlies => (storeApplied_reads_iff hd hv.1 hlong hq.1 hsmall happlies).mpr h⟩

/-- The pair `(7, 3)`, in settings without cursors. -/
theorem cursor_survives_seven :
    SendReads ⟨true, 64⟩ (Reader.storeSent ⟨true, 64⟩ Keyed.empty 7 3) 7 3 :=
  ((cursor_survives_iff ⟨true, 64⟩ (by norm_num) Keyed.empty 7 3 (by norm_num) (by norm_num)).mpr
    (by norm_num)).1

/-- The first number of 32 bits reads as a missing one. -/
theorem not_cursor_survives :
    ¬ SendReads ⟨true, 64⟩ (Reader.storeSent ⟨true, 64⟩ Keyed.empty (2 ^ 31) 0) (2 ^ 31) 0 := by
  rw [storeSent_reads_iff (by norm_num) (by norm_num) (by norm_num) le_rfl (by norm_num)]
  exact lt_irrefl _

end SqliteSync.Network
