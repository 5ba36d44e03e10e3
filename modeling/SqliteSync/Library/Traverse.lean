import Mathlib.Tactic

/-!
# Traversals that may fail

A list is mapped by a function that may fail. When it does not, the two lists
correspond entry by entry, and what holds of the one carries over to the other.
-/
namespace SqliteSync.Library

theorem map_eq_ok_iff {α β ε : Type} {f : α → β} {x : Except ε α} {b : β} :
    x.map f = .ok b ↔ ∃ a, x = .ok a ∧ f a = b := by
  cases x <;> simp [Except.map]

theorem mapM_except_ok {α β ε : Type} {f : α → Except ε β} {g : α → β} {l : List α}
    (h : ∀ a ∈ l, f a = .ok (g a)) : l.mapM f = .ok (l.map g) := by
  induction l with
  | nil => rfl
  | cons a l ih =>
    rw [List.mapM_cons, h a List.mem_cons_self, ih fun b hb => h b (.tail a hb)]
    rfl

theorem mapM_except_congr {α β ε : Type} {f g : α → Except ε β} {l : List α}
    (h : ∀ a ∈ l, f a = g a) : l.mapM f = l.mapM g := by
  induction l with
  | nil => rfl
  | cons a l ih =>
    rw [List.mapM_cons, List.mapM_cons, h a List.mem_cons_self, ih fun b hb => h b (.tail a hb)]

theorem forall₂_of_mapM {α β ε : Type} {f : α → Except ε β} {l : List α} {l' : List β}
    (h : l.mapM f = .ok l') : List.Forall₂ (fun a b => f a = .ok b) l l' := by
  induction l generalizing l' with
  | nil =>
    cases h
    exact .nil
  | cons a l ih =>
    rw [List.mapM_cons] at h
    cases hf : f a with
    | error err =>
      rw [hf] at h
      cases h
    | ok b =>
      cases hl : l.mapM f with
      | error err =>
        rw [hf, hl] at h
        cases h
      | ok bs =>
        rw [hf, hl] at h
        cases h
        exact .cons hf (ih hl)

theorem forall_of_forall₂ {α β : Type} {P : α → β → Prop} {l : List α} {l' : List β}
    (h : List.Forall₂ P l l') : ∀ a ∈ l, ∃ b ∈ l', P a b := by
  induction h with
  | nil => simp
  | cons hab _ ih =>
    intro a ha
    rcases List.mem_cons.mp ha with rfl | ha
    · exact ⟨_, List.mem_cons_self, hab⟩
    · rcases ih a ha with ⟨b, hb, hP⟩
      exact ⟨b, .tail _ hb, hP⟩

theorem exists_of_forall₂ {α β : Type} {P : α → β → Prop} {l : List α} {l' : List β}
    (h : List.Forall₂ P l l') : ∀ b ∈ l', ∃ a ∈ l, P a b := by
  induction h with
  | nil => simp
  | cons hab _ ih =>
    intro b hb
    rcases List.mem_cons.mp hb with rfl | hb
    · exact ⟨_, List.mem_cons_self, hab⟩
    · rcases ih b hb with ⟨a, ha, hP⟩
      exact ⟨a, .tail _ ha, hP⟩

theorem pairwise_of_forall₂ {α β : Type} {P : α → β → Prop} {R : α → α → Prop} {S : β → β → Prop}
    {l : List α} {l' : List β} (h : List.Forall₂ P l l') (hl : l.Pairwise R)
    (hS : ∀ a ∈ l, ∀ a' ∈ l, ∀ b b', R a a' → P a b → P a' b' → S b b') : l'.Pairwise S := by
  induction h with
  | nil => exact .nil
  | @cons a b l l' hab htail ih =>
    rw [List.pairwise_cons] at hl ⊢
    refine ⟨fun b' hb' => ?_, ih hl.2 fun a ha a' ha' => hS a (.tail _ ha) a' (.tail _ ha')⟩
    rcases exists_of_forall₂ htail b' hb' with ⟨a', ha', hab'⟩
    exact hS a List.mem_cons_self a' (.tail _ ha') b b' (hl.1 a' ha') hab hab'

end SqliteSync.Library
