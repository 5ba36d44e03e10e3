import Mathlib.Tactic

/-!
# The lexicographic order of words

Words of one length are ordered as their parts are, as the words of a code that keeps the
order are, and as the numbers are whose digits they are, the highest first.
-/
namespace SqliteSync.Library

section
variable {α β : Type*} [LT α] [LT β]

theorem append_lt_append_iff {as bs cs ds : List α} (h : as.length = bs.length) :
    as ++ cs < bs ++ ds ↔ as < bs ∨ as = bs ∧ cs < ds := by
  induction as generalizing bs with
  | nil =>
    rw [List.length_nil] at h
    rw [List.length_eq_zero_iff.mp h.symm]
    simp
  | cons a as ih =>
    cases bs with
    | nil => cases h
    | cons b bs =>
      simp only [List.cons_append, List.cons_lt_cons_iff, List.cons.injEq,
        ih (Nat.succ.inj h)]
      tauto

/-- A code of one length that keeps the order of letters keeps that of words. -/
theorem flatMap_lt_flatMap_iff {code : α → List β} {ℓ : ℕ} (hlength : ∀ a, (code a).length = ℓ)
    (hlt : ∀ a b, code a < code b ↔ a < b) (hinj : Function.Injective code) {as bs : List α}
    (h : as.length = bs.length) : as.flatMap code < bs.flatMap code ↔ as < bs := by
  induction as generalizing bs with
  | nil =>
    rw [List.length_nil] at h
    rw [List.length_eq_zero_iff.mp h.symm]
    simp
  | cons a as ih =>
    cases bs with
    | nil => cases h
    | cons b bs =>
      rw [List.flatMap_cons, List.flatMap_cons,
        append_lt_append_iff ((hlength a).trans (hlength b).symm), List.cons_lt_cons_iff, hlt,
        hinj.eq_iff, ih (Nat.succ.inj h)]

end

theorem flatMap_inj_iff {α β : Type*} {code : α → List β} {ℓ : ℕ} (hlength : ∀ a, (code a).length = ℓ)
    (hinj : Function.Injective code) {as bs : List α} (h : as.length = bs.length) :
    as.flatMap code = bs.flatMap code ↔ as = bs := by
  induction as generalizing bs with
  | nil =>
    rw [List.length_nil] at h
    rw [List.length_eq_zero_iff.mp h.symm]
    simp
  | cons a as ih =>
    cases bs with
    | nil => cases h
    | cons b bs =>
      rw [List.flatMap_cons, List.flatMap_cons, List.cons.injEq, ← ih (Nat.succ.inj h)]
      constructor
      · intro heq
        rcases List.append_inj heq ((hlength a).trans (hlength b).symm) with ⟨hcode, hrest⟩
        exact ⟨hinj hcode, hrest⟩
      · rintro ⟨rfl, hrest⟩
        rw [hrest]

/-- The number whose digits these are, the highest first. -/
def ofBigEndian (base : ℕ) (digits : List ℕ) : ℕ := Nat.ofDigits base digits.reverse

section
variable {base : ℕ}

theorem ofBigEndian_cons (d : ℕ) (ds : List ℕ) :
    ofBigEndian base (d :: ds) = d * base ^ ds.length + ofBigEndian base ds := by
  rw [ofBigEndian, List.reverse_cons, Nat.ofDigits_append, Nat.ofDigits_singleton,
    List.length_reverse, ofBigEndian]
  ring

theorem ofBigEndian_lt {ds : List ℕ} (hbase : 1 < base) (hds : ∀ d ∈ ds, d < base) :
    ofBigEndian base ds < base ^ ds.length := by
  rw [← List.length_reverse]
  exact Nat.ofDigits_lt_base_pow_length hbase (by simpa using hds)

theorem ofBigEndian_inj_iff (hbase : 1 < base) {ds es : List ℕ} (hds : ∀ d ∈ ds, d < base)
    (hes : ∀ e ∈ es, e < base) (h : ds.length = es.length) :
    ofBigEndian base ds = ofBigEndian base es ↔ ds = es := by
  constructor
  · intro heq
    apply List.reverse_injective
    apply Nat.ofDigits_inj_of_len_eq hbase _ _ _ heq
    · rw [List.length_reverse, List.length_reverse, h]
    · simpa using hds
    · simpa using hes
  · rintro rfl
    rfl

theorem ofBigEndian_lt_iff (hbase : 1 < base) {ds es : List ℕ} (hds : ∀ d ∈ ds, d < base)
    (hes : ∀ e ∈ es, e < base) (h : ds.length = es.length) :
    ofBigEndian base ds < ofBigEndian base es ↔ ds < es := by
  induction ds generalizing es with
  | nil =>
    rw [List.length_nil] at h
    rw [List.length_eq_zero_iff.mp h.symm]
    simp
  | cons d ds ih =>
    cases es with
    | nil => cases h
    | cons e es =>
      have hlength : ds.length = es.length := Nat.succ.inj h
      have hd := ofBigEndian_lt hbase fun x hx => hds x (.tail _ hx)
      have he := ofBigEndian_lt hbase fun x hx => hes x (.tail _ hx)
      rw [ofBigEndian_cons, ofBigEndian_cons, List.cons_lt_cons_iff,
        ← ih (fun x hx => hds x (.tail _ hx)) (fun x hx => hes x (.tail _ hx)) hlength]
      rw [← hlength] at he ⊢
      generalize base ^ ds.length = unit at hd he ⊢
      rcases lt_trichotomy d e with hlt | rfl | hlt
      · have hmul : (d + 1) * unit ≤ e * unit := Nat.mul_le_mul_right unit hlt
        rw [add_mul, one_mul] at hmul
        exact iff_of_true (by omega) (.inl hlt)
      · simp
      · have hmul : (e + 1) * unit ≤ d * unit := Nat.mul_le_mul_right unit hlt
        rw [add_mul, one_mul] at hmul
        exact iff_of_false (by omega) (by omega)

end
end SqliteSync.Library
