import SqliteSync.Causal.RowId
import SqliteSync.Network.Send

/-!
# The stored cursor and a send

The stored pair is not below the one a send reads, so a send selects whatever is above
it. A send that goes through delivers the rows it selected, as far as the aggregate kept
them, and stores a new pair.
-/
namespace SqliteSync.Network
open Library Clock Store Config

/-! ## The stored pair -/

def numberOf (text : CString) : ℤ :=
  let magnitude : ℤ := scanMagnitude (scanSign text).2
  if (scanSign text).1 then -magnitude else magnitude

def storedNumber (s : Settings) (key : String) : ℤ :=
  ((s.get (lowered key)).getD none).elim 0 numberOf

/-- The stored `send_dbversion` and `send_seq`, in the lexicographic order. -/
def storedCursor (s : Settings) : ℤ ×ₗ ℤ :=
  toLex (storedNumber s CLOUDSYNC_KEY_SEND_DBVERSION, storedNumber s CLOUDSYNC_KEY_SEND_SEQ)

def Printed (s : Settings) (key : String) : Prop :=
  s.get (lowered key) = none ∨
    ∃ v, 0 ≤ v ∧ s.get (lowered key) = some (some (printInt v)) ∧ storedNumber s key = v

theorem numberOf_printInt {v : ℤ} (h : 0 ≤ v) : numberOf (printInt v) = v := by
  have hv : ((v.natAbs : ℕ) : ℤ) = v := Int.natAbs_of_nonneg h
  rw [printInt, if_neg (not_lt.mpr h), numberOf, scanSign_decimal, scanMagnitude_decimal, hv]
  rfl

theorem storedNumber_of_missing {s : Settings} {key : String} (h : s.get (lowered key) = none) :
    storedNumber s key = 0 := by
  rw [storedNumber, h]
  rfl

theorem Printed.of_get {s : Settings} {key : String} {v : ℤ} (hv : 0 ≤ v)
    (hget : s.get (lowered key) = some (some (printInt v))) :
    Printed s key ∧ storedNumber s key = v := by
  have hnumber : storedNumber s key = v := by
    rw [storedNumber, hget]
    exact numberOf_printInt hv
  exact ⟨.inr ⟨v, hv, hget, hnumber⟩, hnumber⟩

theorem Printed.congr {s s' : Settings} {key : String} (h : Printed s key)
    (heq : s'.get (lowered key) = s.get (lowered key)) : Printed s' key := by
  rw [Printed, storedNumber, heq]
  exact h

theorem get_storeInt_ne (s : Settings) {key key' : String} (hkey : lowered key' ≠ lowered key)
    (v : ℤ) : (storeInt s key v).get (lowered key') = s.get (lowered key') := by
  rw [storeInt, dbutilsSettingsSetKeyValue, Keyed.get_replace, if_neg hkey]

theorem get_storeSent (s : Settings) (d : Reader) {v q : ℤ} (hv : 0 ≤ v) (hq : 0 ≤ q) :
    (d.storeSent s v q).get (lowered CLOUDSYNC_KEY_SEND_DBVERSION) =
        (if v ≠ d.int s CLOUDSYNC_KEY_SEND_DBVERSION then some (some (printInt v))
          else s.get (lowered CLOUDSYNC_KEY_SEND_DBVERSION)) ∧
      (d.storeSent s v q).get (lowered CLOUDSYNC_KEY_SEND_SEQ) =
        if q ≠ d.int s CLOUDSYNC_KEY_SEND_SEQ then some (some (printInt q))
          else s.get (lowered CLOUDSYNC_KEY_SEND_SEQ) := by
  let t := if v ≠ d.int s CLOUDSYNC_KEY_SEND_DBVERSION then
    storeInt s CLOUDSYNC_KEY_SEND_DBVERSION v else s
  have ht : t.get (lowered CLOUDSYNC_KEY_SEND_DBVERSION) =
        (if v ≠ d.int s CLOUDSYNC_KEY_SEND_DBVERSION then some (some (printInt v))
          else s.get (lowered CLOUDSYNC_KEY_SEND_DBVERSION)) ∧
      t.get (lowered CLOUDSYNC_KEY_SEND_SEQ) = s.get (lowered CLOUDSYNC_KEY_SEND_SEQ) := by
    by_cases hnew : v ≠ d.int s CLOUDSYNC_KEY_SEND_DBVERSION
    · rw [show t = storeInt s CLOUDSYNC_KEY_SEND_DBVERSION v from if_pos hnew, if_pos hnew]
      exact ⟨get_storeInt_self s _ v hv, get_storeInt_ne s lowered_sendSeq_ne v⟩
    · rw [show t = s from if_neg hnew, if_neg hnew]
      exact ⟨rfl, rfl⟩
  have hstored : d.storeSent s v q = if q ≠ d.int s CLOUDSYNC_KEY_SEND_SEQ then
      storeInt t CLOUDSYNC_KEY_SEND_SEQ q else t := rfl
  by_cases hnew : q ≠ d.int s CLOUDSYNC_KEY_SEND_SEQ
  · rw [hstored, if_pos hnew, if_pos hnew]
    exact ⟨(get_storeInt_ne t lowered_sendSeq_ne.symm q).trans ht.1, get_storeInt_self t _ q hq⟩
  · rw [hstored, if_neg hnew, if_neg hnew]
    exact ht

/-- What the sender stores is printed; the db version is the new one, or the one before. -/
theorem Printed.storeSent {s : Settings} (hversion : Printed s CLOUDSYNC_KEY_SEND_DBVERSION)
    (hseq : Printed s CLOUDSYNC_KEY_SEND_SEQ) (d : Reader) {v q : ℤ} (hv : 0 ≤ v) (hq : 0 ≤ q) :
    Printed (d.storeSent s v q) CLOUDSYNC_KEY_SEND_DBVERSION ∧
      Printed (d.storeSent s v q) CLOUDSYNC_KEY_SEND_SEQ ∧
      (storedNumber (d.storeSent s v q) CLOUDSYNC_KEY_SEND_DBVERSION = v ∨
        storedNumber (d.storeSent s v q) CLOUDSYNC_KEY_SEND_DBVERSION =
          storedNumber s CLOUDSYNC_KEY_SEND_DBVERSION) := by
  rcases get_storeSent s d hv hq with ⟨hfirst, hsecond⟩
  have hlast : Printed (d.storeSent s v q) CLOUDSYNC_KEY_SEND_SEQ := by
    by_cases hnew : q ≠ d.int s CLOUDSYNC_KEY_SEND_SEQ
    · exact (Printed.of_get hq (hsecond.trans (if_pos hnew))).1
    · exact hseq.congr (hsecond.trans (if_neg hnew))
  by_cases hnew : v ≠ d.int s CLOUDSYNC_KEY_SEND_DBVERSION
  · rcases Printed.of_get hv (hfirst.trans (if_pos hnew)) with ⟨hprinted, hnumber⟩
    exact ⟨hprinted, hlast, .inl hnumber⟩
  · have hsame := hfirst.trans (if_neg hnew)
    refine ⟨hversion.congr hsame, hlast, .inr ?_⟩
    rw [storedNumber, hsame, storedNumber]

theorem Printed.int_le {s : Settings} {key : String} (h : Printed s key) (d : Reader) :
    d.int s key ≤ storedNumber s key := by
  rcases h with hmissing | ⟨v, hv, hget, hnumber⟩
  · rw [d.int_of_missing hmissing, storedNumber_of_missing hmissing]
  rw [hnumber]
  by_cases hfits : (printInt v).length < 256
  · have hprint : printInt v = decimal v.natAbs := if_neg (not_lt.mpr hv)
    have hnul : ∀ c ∈ printInt v, c ≠ 0 := by
      rw [hprint]
      exact decimal_ne_zero _
    have hlength : (printInt v).length < (List.replicate 256 (0 : UInt8)).length := by
      rwa [List.length_replicate]
    rw [Reader.int, dbutilsSettingsGetIntValue, dbutilsSettingsGetValue, hget]
    split
    · omega
    · rw [filled_fits hlength hnul, strtol_printInt hv]
      have hpow : (1 : ℤ) ≤ 2 ^ (d.longBits - 1) := one_le_pow₀ (by norm_num)
      have hclamp : 0 ≤ clamp d.longBits v ∧ clamp d.longBits v ≤ v := by
        rw [clamp]
        omega
      exact (toInt32_le hclamp.1).trans hclamp.2
  · -- the text went into fresh memory, and the buffer is still empty
    have hempty : stringAt (filled (some (some (printInt v))) (List.replicate 256 0)) = [] := by
      rw [filled]
      simp only [List.length_replicate]
      rw [if_pos (by omega)]
      simp [stringAt]
    rw [Reader.int, dbutilsSettingsGetIntValue, dbutilsSettingsGetValue, hget]
    split
    · omega
    · rw [hempty]
      have hclamp : clamp d.longBits 0 = 0 := by
        have hpow : (1 : ℤ) ≤ 2 ^ (d.longBits - 1) := one_le_pow₀ (by norm_num)
        rw [clamp]
        omega
      change toInt32 (clamp d.longBits 0) ≤ v
      rw [hclamp]
      exact hv

section
variable {n : ℕ} {schema : Fin n → TableContext}

theorem Client.selects_of_lt {x : Client schema}
    (hversion : Printed x.settings CLOUDSYNC_KEY_SEND_DBVERSION)
    (hseq : Printed x.settings CLOUDSYNC_KEY_SEND_SEQ) {d : Reader} {v q : ℤ}
    (hcursor : x.sendCursor d = .ok (v, q)) {c : Change n} (hsite : c.siteId = x.siteId)
    (h : storedCursor x.settings < toLex (c.dbVersion, c.seq)) : x.selects v q c = true := by
  have hread : d.int x.settings CLOUDSYNC_KEY_SEND_DBVERSION = v ∧
      d.int x.settings CLOUDSYNC_KEY_SEND_SEQ = q := by
    rw [Client.sendCursor, Reader.cursor] at hcursor
    dsimp only at hcursor
    split_ifs at hcursor
    rwa [Except.ok.injEq, Prod.mk.injEq] at hcursor
  have hv := hversion.int_le d
  have hq := hseq.int_le d
  rw [hread.1] at hv
  rw [hread.2] at hq
  rw [storedCursor, Prod.Lex.toLex_lt_toLex] at h
  dsimp only at h
  rw [Client.selects, Bool.and_eq_true, Bool.or_eq_true, Bool.and_eq_true, decide_eq_true_eq,
    decide_eq_true_eq, beq_iff_eq, beq_iff_eq]
  exact ⟨hsite, by omega⟩

/-! ## The rows of the feed -/

/-- A feed that can be read has the value of every metadata row, and shows each
row whose value is not hidden. -/
theorem mem_feed_of_metaAt {r : Replica schema} {feed : List (Change n)}
    (h : r.cloudsyncChanges = .ok feed) {p : Place n} {m : MetaRow} (hm : r.metaAt p = some m)
    (hshown : (r.table p.1).cloudsyncColValue p.2.2 p.2.1 ≠ .ok CLOUDSYNC_RLS_RESTRICTED_VALUE) :
    ∃ value, r.changeOf p.1 p.2 m value ∈ feed := by
  rw [Replica.cloudsyncChanges, map_eq_ok_iff] at h
  rcases h with ⟨tables, htables, rfl⟩
  rcases forall_of_forall₂ (forall₂_of_mapM htables) p.1 (List.mem_finRange p.1) with
    ⟨l, hl, htable⟩
  rw [Replica.tableChanges, map_eq_ok_iff] at htable
  rcases htable with ⟨rows, hrows, rfl⟩
  rcases forall_of_forall₂ (forall₂_of_mapM hrows) (p.2, m)
    ((Keyed.get_eq_some_iff _ p.2 m).mp hm) with ⟨c, hc, hvalue⟩
  rw [map_eq_ok_iff] at hvalue
  rcases hvalue with ⟨value, hvalue, rfl⟩
  have hne : value ≠ CLOUDSYNC_RLS_RESTRICTED_VALUE := by
    rintro rfl
    exact hshown hvalue
  exact ⟨value, List.mem_flatten.mpr ⟨_, hl, List.mem_filter.mpr ⟨hc, decide_eq_true hne⟩⟩⟩

theorem metaAt_of_mem_feed {r : Replica schema} {feed : List (Change n)}
    (h : r.cloudsyncChanges = .ok feed) {c : Change n} (hc : c ∈ feed) :
    ∃ p m value, r.metaAt p = some m ∧ c = r.changeOf p.1 p.2 m value := by
  rw [Replica.cloudsyncChanges, map_eq_ok_iff] at h
  rcases h with ⟨tables, htables, rfl⟩
  rcases List.mem_flatten.mp hc with ⟨l, hl, hc⟩
  rcases exists_of_forall₂ (forall₂_of_mapM htables) l hl with ⟨i, -, htable⟩
  rw [Replica.tableChanges, map_eq_ok_iff] at htable
  rcases htable with ⟨rows, hrows, rfl⟩
  rcases exists_of_forall₂ (forall₂_of_mapM hrows) c (List.mem_of_mem_filter hc) with
    ⟨⟨k, m⟩, hkm, hvalue⟩
  rw [map_eq_ok_iff] at hvalue
  rcases hvalue with ⟨value, -, rfl⟩
  exact ⟨(i, k), m, value, (Keyed.get_eq_some_iff _ k m).mpr hkm, rfl⟩

/-! ## A send -/

/-- The aggregate keeps something only if its last step has memory. -/
theorem granted_of_payloadRows {grants : ℕ → Bool} {rows : List (Change n)}
    (h : payloadRows grants rows ≠ []) : rows ≠ [] ∧ grants (rows.length - 1) = true := by
  rcases List.eq_nil_or_concat rows with rfl | ⟨rows, c, rfl⟩
  · exact absurd rfl h
  · rw [List.concat_eq_append] at h ⊢
    rw [payloadRows_concat] at h
    refine ⟨List.append_ne_nil_of_right_ne_nil _ (List.cons_ne_nil c []), ?_⟩
    rw [List.length_append, List.length_singleton, Nat.add_sub_cancel]
    by_contra hgrant
    rw [if_neg hgrant] at h
    exact h rfl

/-- Nothing after the query fails. -/
structure SendInput.Accepted (inp : SendInput) : Prop where
  network : inp.network = true
  encode : inp.encode = true
  uploadUrl : ∃ url, inp.uploadUrl = .ok url
  upload : inp.upload = true
  notify : inp.notify = .ok ()

theorem Client.send_cases (x : Client schema) (d : Reader) (inp : SendInput) :
    ((x.cloudsyncNetworkSendChangesInternal d inp).settings = x.settings ∧
      (x.cloudsyncNetworkSendChangesInternal d inp).sent = []) ∨
    ∃ v q rows newest, inp.Accepted ∧ x.sendCursor d = .ok (v, q) ∧
      x.unsentRows v q = .ok (rows, newest) ∧ payloadRows inp.grants rows ≠ [] ∧
      (x.cloudsyncNetworkSendChangesInternal d inp).settings =
        d.storeSent x.settings newest (maxSeq rows newest) ∧
      (x.cloudsyncNetworkSendChangesInternal d inp).sent = payloadRows inp.grants rows := by
  rw [cloudsyncNetworkSendChangesInternal]
  by_cases hnetwork : inp.network = false
  · rw [if_pos hnetwork]
    exact .inl ⟨rfl, rfl⟩
  rw [if_neg hnetwork]
  cases hcursor : x.sendCursor d with
  | error err => exact .inl ⟨rfl, rfl⟩
  | ok cursor =>
    dsimp only
    cases hrows : x.unsentRows cursor.1 cursor.2 with
    | error err => exact .inl ⟨rfl, rfl⟩
    | ok found =>
      cases hencode : inp.encode with
      | false => exact .inl ⟨rfl, rfl⟩
      | true =>
        dsimp only
        by_cases hempty : (payloadRows inp.grants found.1).isEmpty = true
        · rw [if_pos hempty]
          exact .inl ⟨rfl, rfl⟩
        rw [if_neg hempty]
        cases hurl : inp.uploadUrl with
        | error err => exact .inl ⟨rfl, rfl⟩
        | ok url =>
          cases hupload : inp.upload with
          | false => exact .inl ⟨rfl, rfl⟩
          | true =>
            cases hnotify : inp.notify with
            | error err => exact .inl ⟨rfl, rfl⟩
            | ok =>
              refine .inr ⟨cursor.1, cursor.2, found.1, found.2,
                ⟨Bool.eq_true_of_not_eq_false hnetwork, hencode, ⟨url, hurl⟩, hupload, hnotify⟩,
                rfl, hrows, fun hnil => hempty (List.isEmpty_iff.mpr hnil), rfl, rfl⟩

end
end SqliteSync.Network
