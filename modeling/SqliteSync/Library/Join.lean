import Mathlib.Data.List.Basic

/-! # Joining texts with a separator, and a partial map over a list -/
namespace SqliteSync.Library

theorem intercalate_cons {α : Type} (sep l : List α) (ls : List (List α)) :
    sep.intercalate (l :: ls) = l ++ ls.flatMap (sep ++ ·) := by
  induction ls generalizing l with
  | nil => simp
  | cons l' ls ih =>
    rw [List.intercalate_cons_cons, ih, List.flatMap_cons, List.append_assoc, List.append_assoc]

theorem mem_intercalate {α : Type} {sep a : α} {ls : List (List α)}
    (h : a ∈ [sep].intercalate ls) : a = sep ∨ ∃ l ∈ ls, a ∈ l := by
  cases ls with
  | nil => simp at h
  | cons l ls =>
    rw [intercalate_cons, List.mem_append, List.mem_flatMap] at h
    rcases h with h | ⟨l', hl', h⟩
    · exact Or.inr ⟨l, List.mem_cons_self, h⟩
    · rw [List.singleton_append, List.mem_cons] at h
      rcases h with rfl | h
      · exact Or.inl rfl
      · exact Or.inr ⟨l', .tail _ hl', h⟩

theorem mapM_eq_some {α β : Type} {f : α → Option β} {g : α → β} {l : List α}
    (h : ∀ a ∈ l, f a = some (g a)) : l.mapM f = some (l.map g) := by
  induction l with
  | nil => rfl
  | cons a l ih =>
    rw [List.mapM_cons, h a List.mem_cons_self, ih fun b hb => h b (.tail _ hb)]
    rfl

theorem mapM_eq_some_of_map {α β : Type} {f : α → Option β} {l : List α} {l' : List β}
    (h : l.map f = l'.map some) : l.mapM f = some l' := by
  induction l generalizing l' with
  | nil =>
    have hnil : l' = [] := by simpa using h.symm
    rw [hnil]
    rfl
  | cons a l ih =>
    cases l' with
    | nil => cases h
    | cons b bs =>
      rw [List.map_cons, List.map_cons, List.cons.injEq] at h
      rw [List.mapM_cons, h.1, ih h.2]
      rfl

theorem length_of_mapM {α β : Type} {f : α → Option β} {l : List α} {l' : List β}
    (h : l.mapM f = some l') : l'.length = l.length := by
  induction l generalizing l' with
  | nil =>
    have hnil : l' = [] := by simpa using h.symm
    rw [hnil]
    rfl
  | cons a l ih =>
    simp only [List.mapM_cons, Option.bind_eq_bind, Option.bind_eq_some_iff, Option.pure_def,
      Option.some.injEq] at h
    rcases h with ⟨b, -, bs, hbs, rfl⟩
    rw [List.length_cons, List.length_cons, ih hbs]

theorem mem_of_mapM_eq_some {α β : Type} {f : α → Option β} {l : List α} {l' : List β}
    (h : l.mapM f = some l') : ∀ b ∈ l', ∃ a ∈ l, f a = some b := by
  induction l generalizing l' with
  | nil =>
    have hnil : l' = [] := by simpa using h.symm
    simp [hnil]
  | cons a l ih =>
    simp only [List.mapM_cons, Option.bind_eq_bind, Option.bind_eq_some_iff, Option.pure_def,
      Option.some.injEq] at h
    rcases h with ⟨b, hb, bs, hbs, rfl⟩
    intro b' hb'
    rcases List.mem_cons.mp hb' with rfl | hb'
    · exact ⟨a, List.mem_cons_self, hb⟩
    · rcases ih hbs b' hb' with ⟨a', ha', hf⟩
      exact ⟨a', .tail _ ha', hf⟩

end SqliteSync.Library
