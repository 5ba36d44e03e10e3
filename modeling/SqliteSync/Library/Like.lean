import Mathlib.Tactic

/-!
# Patterns of LIKE

`%` stands for any run of characters, `_` for exactly one, and every other
character for itself, the case of ASCII letters ignored.
-/
namespace SqliteSync.Library

def like : List Char → List Char → Bool
  | [], s => s.isEmpty
  | '%' :: p, s => s.tails.any (like p)
  | '_' :: _, [] => false
  | '_' :: p, _ :: s => like p s
  | _ :: _, [] => false
  | a :: p, c :: s => a.toLower == c.toLower && like p s

theorem like_percent (p s : List Char) :
    like ('%' :: p) s = true ↔ ∃ t, t <:+ s ∧ like p t = true := by
  simp only [like, List.any_eq_true, List.mem_tails]

theorem like_underscore (p s : List Char) :
    like ('_' :: p) s = true ↔ ∃ c t, s = c :: t ∧ like p t = true := by
  cases s with
  | nil => simp [like]
  | cons c s => simp [like]

/-- A pattern without wildcards matches the strings that differ from it in case only. -/
theorem like_literal (p : List Char) (hp : ∀ a ∈ p, a ≠ '%' ∧ a ≠ '_') (s : List Char) :
    like p s = true ↔ s.map Char.toLower = p.map Char.toLower := by
  induction p generalizing s with
  | nil => simp [like]
  | cons a p ih =>
    rcases hp a List.mem_cons_self with ⟨hpercent, hunderscore⟩
    cases s with
    | nil => simp [like]
    | cons c s =>
      rw [like, Bool.and_eq_true, beq_iff_eq, ih (fun b hb => hp b (.tail a hb)), List.map_cons,
        List.map_cons, List.cons.injEq, eq_comm (a := a.toLower)]
      · exact hpercent
      · exact hunderscore

/-- `%_` before a literal: the string ends like the literal, after at least one character. -/
theorem like_percent_underscore (p : List Char) (hp : ∀ a ∈ p, a ≠ '%' ∧ a ≠ '_') (s : List Char) :
    like ('%' :: '_' :: p) s = true ↔
      ∃ a c t, s = a ++ c :: t ∧ t.map Char.toLower = p.map Char.toLower := by
  rw [like_percent]
  constructor
  · rintro ⟨u, ⟨a, rfl⟩, hu⟩
    rcases (like_underscore p u).mp hu with ⟨c, t, rfl, ht⟩
    exact ⟨a, c, t, rfl, (like_literal p hp t).mp ht⟩
  · rintro ⟨a, c, t, rfl, ht⟩
    exact ⟨c :: t, ⟨a, rfl⟩, (like_underscore p _).mpr ⟨c, t, rfl, (like_literal p hp t).mpr ht⟩⟩

example : like "%_cloudsync".toList "Backup-CloudSync".toList = true := by decide

end SqliteSync.Library
