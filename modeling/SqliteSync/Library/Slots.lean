import Mathlib.Tactic

/-!
# Slots with holes

An array of slots is searched from its start by a key. An entry is put into an empty
slot and taken out by emptying it, so that holes stay behind; as long as the keys of the
entries differ, the array is a finite map all the same.
-/
namespace SqliteSync.Library

abbrev Slots (α : Type*) := List (Option α)

namespace Slots
variable {α κ : Type*} {key : α → κ} {slots : Slots α}

/-- No two slots hold entries under one key. -/
def Distinct (key : α → κ) (slots : Slots α) : Prop :=
  ∀ (i j : ℕ) (a b : α), slots[i]? = some (some a) → slots[j]? = some (some b) →
    key a = key b → i = j

theorem Distinct.eq_of_mem (h : Distinct key slots) {a b : α} (ha : some a ∈ slots)
    (hb : some b ∈ slots) (hkey : key a = key b) : a = b := by
  obtain ⟨i, hi⟩ := List.mem_iff_getElem?.mp ha
  obtain ⟨j, hj⟩ := List.mem_iff_getElem?.mp hb
  have hij := h i j a b hi hj hkey
  subst hij
  rw [hi, Option.some.injEq, Option.some.injEq] at hj
  exact hj

theorem mem_set_some {i : ℕ} {b : α} (hi : slots[i]? = some none) (a : α) :
    some a ∈ slots.set i (some b) ↔ a = b ∨ some a ∈ slots := by
  obtain ⟨hlt, -⟩ := List.getElem?_eq_some_iff.mp hi
  simp only [List.mem_iff_getElem?, List.getElem?_set]
  constructor
  · rintro ⟨j, hj⟩
    split_ifs at hj with hij
    · left
      simpa using hj.symm
    · exact .inr ⟨j, hj⟩
  · rintro (rfl | ⟨j, hj⟩)
    · exact ⟨i, by rw [if_pos rfl, if_pos hlt]⟩
    · refine ⟨j, ?_⟩
      rw [if_neg, hj]
      rintro rfl
      rw [hi] at hj
      cases hj

theorem Distinct.mem_set_none (h : Distinct key slots) {i : ℕ} {b : α}
    (hi : slots[i]? = some (some b)) (a : α) :
    some a ∈ slots.set i none ↔ some a ∈ slots ∧ key a ≠ key b := by
  simp only [List.mem_iff_getElem?, List.getElem?_set]
  constructor
  · rintro ⟨j, hj⟩
    split_ifs at hj with hij hlt
    · cases hj
    · exact ⟨⟨j, hj⟩, fun hkey => hij (h i j b a hi hj hkey.symm)⟩
  · rintro ⟨⟨j, hj⟩, hkey⟩
    refine ⟨j, ?_⟩
    rw [if_neg, hj]
    rintro rfl
    rw [hi, Option.some.injEq, Option.some.injEq] at hj
    exact hkey (congrArg key hj.symm)

theorem Distinct.set_some (h : Distinct key slots) {i : ℕ} {b : α}
    (hnew : ∀ a, some a ∈ slots → key a ≠ key b) : Distinct key (slots.set i (some b)) := by
  intro j l x y hx hy hkey
  rw [List.getElem?_set] at hx hy
  by_cases hij : i = j <;> by_cases hil : i = l
  · rw [← hij, ← hil]
  · rw [if_pos hij] at hx
    rw [if_neg hil] at hy
    split_ifs at hx
    cases hx
    exact absurd hkey.symm (hnew y (List.mem_of_getElem? hy))
  · rw [if_neg hij] at hx
    rw [if_pos hil] at hy
    split_ifs at hy
    cases hy
    exact absurd hkey (hnew x (List.mem_of_getElem? hx))
  · rw [if_neg hij] at hx
    rw [if_neg hil] at hy
    exact h j l x y hx hy hkey

theorem Distinct.set_none (h : Distinct key slots) (i : ℕ) :
    Distinct key (slots.set i none) := by
  have hold : ∀ (j : ℕ) a, (slots.set i none)[j]? = some (some a) → slots[j]? = some (some a) := by
    intro j a hj
    rw [List.getElem?_set] at hj
    split_ifs at hj with hij hlt
    · cases hj
    · exact hj
  exact fun j l x y hx hy => h j l x y (hold j x hx) (hold l y hy)

theorem Distinct.append_none (h : Distinct key slots) (n : ℕ) :
    Distinct key (slots ++ List.replicate n none) := by
  have hold : ∀ (i : ℕ) a, (slots ++ List.replicate n none)[i]? = some (some a) →
      slots[i]? = some (some a) := by
    intro i a hi
    rcases Nat.lt_or_ge i slots.length with hlt | hge
    · rwa [List.getElem?_append_left hlt] at hi
    · rw [List.getElem?_append_right hge, List.getElem?_replicate] at hi
      split_ifs at hi
      cases hi
  exact fun i j a b hi hj => h i j a b (hold i a hi) (hold j b hj)

/-! ## The search -/

/-- What holds of an empty slot holds of every slot once it does of every entry. -/
theorem forall_slot_iff {p : Option α → Prop} (hnone : p none) :
    (∀ slot ∈ slots, p slot) ↔ ∀ a, some a ∈ slots → p (some a) := by
  constructor
  · exact fun h a ha => h (some a) ha
  · intro h slot hslot
    cases slot with
    | none => exact hnone
    | some a => exact h a hslot

variable [DecidableEq κ]

/-- The first entry under a key. -/
def lookup (key : α → κ) (slots : Slots α) (k : κ) : Option α :=
  slots.findSome? fun slot => slot.filter fun a => key a = k

/-- The slot of the first entry under a key. -/
def find (key : α → κ) (slots : Slots α) (k : κ) : Option ℕ :=
  slots.findIdx? fun slot => slot.any fun a => key a = k

theorem lookup_eq_none_iff {k : κ} :
    lookup key slots k = none ↔ ∀ a, some a ∈ slots → key a ≠ k := by
  rw [lookup, List.findSome?_eq_none_iff, forall_slot_iff]
  · simp
  · rfl

theorem mem_of_lookup {k : κ} {a : α} (h : lookup key slots k = some a) :
    some a ∈ slots ∧ key a = k := by
  obtain ⟨slot, hslot, hfilter⟩ := List.exists_of_findSome?_eq_some h
  rw [Option.filter_eq_some_iff, decide_eq_true_eq] at hfilter
  rcases hfilter with ⟨rfl, hkey⟩
  exact ⟨hslot, hkey⟩

theorem find_eq_some {k : κ} {i : ℕ} (h : find key slots k = some i) :
    ∃ a, slots[i]? = some (some a) ∧ key a = k := by
  rw [find, List.findIdx?_eq_some_iff_getElem] at h
  rcases h with ⟨hi, hany, -⟩
  rw [Option.any_eq_true] at hany
  obtain ⟨a, ha, hkey⟩ := hany
  exact ⟨a, by rw [List.getElem?_eq_getElem hi, ha], of_decide_eq_true hkey⟩

theorem find_eq_none_iff {k : κ} : find key slots k = none ↔ lookup key slots k = none := by
  rw [find, List.findIdx?_eq_none_iff, lookup_eq_none_iff, forall_slot_iff]
  · simp
  · rfl

theorem Distinct.lookup_eq_some_iff (h : Distinct key slots) {k : κ} {a : α} :
    lookup key slots k = some a ↔ some a ∈ slots ∧ key a = k := by
  constructor
  · exact mem_of_lookup
  · rintro ⟨ha, hkey⟩
    cases hb : lookup key slots k with
    | none => exact absurd hkey (lookup_eq_none_iff.mp hb a ha)
    | some b =>
      obtain ⟨hmem, hkey'⟩ := mem_of_lookup hb
      rw [h.eq_of_mem hmem ha (hkey'.trans hkey.symm)]

theorem Distinct.lookup_set_some (h : Distinct key slots) {i : ℕ} {b : α}
    (hi : slots[i]? = some none) (hnew : ∀ a, some a ∈ slots → key a ≠ key b) (k : κ) :
    lookup key (slots.set i (some b)) k = if k = key b then some b else lookup key slots k := by
  apply Option.ext
  intro a
  rw [(h.set_some hnew).lookup_eq_some_iff, mem_set_some hi]
  split_ifs with hk
  · subst hk
    rw [Option.some.injEq]
    constructor
    · rintro ⟨rfl | ha, hkey⟩
      · rfl
      · exact absurd hkey (hnew a ha)
    · rintro rfl
      exact ⟨.inl rfl, rfl⟩
  · rw [h.lookup_eq_some_iff]
    constructor
    · rintro ⟨rfl | ha, hkey⟩
      · exact absurd hkey.symm hk
      · exact ⟨ha, hkey⟩
    · rintro ⟨ha, hkey⟩
      exact ⟨.inr ha, hkey⟩

/-- An entry whose slot is emptied is not found, and the others are as before. -/
theorem Distinct.lookup_set_none (h : Distinct key slots) {i : ℕ} {b : α}
    (hi : slots[i]? = some (some b)) (k : κ) :
    lookup key (slots.set i none) k = if k = key b then none else lookup key slots k := by
  apply Option.ext
  intro a
  rw [(h.set_none i).lookup_eq_some_iff, h.mem_set_none hi]
  split_ifs with hk
  · subst hk
    exact iff_of_false (fun ha => ha.1.2 ha.2) nofun
  · rw [h.lookup_eq_some_iff]
    constructor
    · rintro ⟨⟨ha, -⟩, hkey⟩
      exact ⟨ha, hkey⟩
    · rintro ⟨ha, rfl⟩
      exact ⟨⟨ha, hk⟩, rfl⟩

theorem lookup_append_none (n : ℕ) (k : κ) :
    lookup key (slots ++ List.replicate n none) k = lookup key slots k := by
  rw [lookup, List.findSome?_append, List.findSome?_replicate]
  simp [lookup]

theorem lookup_take {n : ℕ} (h : ∀ (i : ℕ) a, slots[i]? = some (some a) → i < n) (k : κ) :
    lookup key (slots.take n) k = lookup key slots k := by
  have hrest : lookup key (slots.drop n) k = none := by
    rw [lookup_eq_none_iff]
    intro a ha
    obtain ⟨i, hi⟩ := List.mem_iff_getElem?.mp ha
    rw [List.getElem?_drop] at hi
    have hlt := h (n + i) a hi
    omega
  have happend : lookup key slots k =
      (lookup key (slots.take n) k).or (lookup key (slots.drop n) k) := by
    rw [lookup, lookup, lookup, ← List.findSome?_append, List.take_append_drop]
  rw [happend, hrest, Option.or_none]

end Slots
end SqliteSync.Library
