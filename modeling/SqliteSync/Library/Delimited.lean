import Mathlib.Tactic

/-!
# Fields in delimited text

Text is cut into segments at a separator; a segment is a field when it has an
assignment sign, and the first one divides its name from its value.
-/
namespace SqliteSync.Library

theorem drop_cut {α : Type*} (a : List α) (c : α) (b : List α) :
    (a ++ c :: b).drop (a.length + 1) = b := by
  rw [← List.drop_drop, List.drop_left]
  rfl

variable {α : Type*} [BEq α] [LawfulBEq α]

theorem idxOf?_cut {c : α} {a : List α} (h : c ∉ a) (b : List α) :
    (a ++ c :: b).idxOf? c = some a.length := by
  induction a with
  | nil => simp [List.idxOf?_cons]
  | cons x a ih =>
    rw [List.mem_cons, not_or] at h
    rw [List.cons_append, List.idxOf?_cons, beq_false_of_ne (Ne.symm h.1), ih h.2]
    rfl

theorem idxOf?_not_mem {c : α} {l : List α} (h : c ∉ l) : l.idxOf? c = none :=
  List.idxOf?_eq_none_iff.mpr h

theorem segments_induction {motive : List α → Prop} (sep : α)
    (last : ∀ segment, sep ∉ segment → motive segment)
    (step : ∀ segment rest, sep ∉ segment → motive rest → motive (segment ++ sep :: rest))
    (text : List α) : motive text := by
  induction hn : text.length using Nat.strong_induction_on generalizing text with
  | h n ih =>
    by_cases hsep : sep ∈ text
    · rcases List.eq_append_cons_of_mem hsep with ⟨segment, rest, rfl, hsegment⟩
      rw [List.length_append, List.length_cons] at hn
      exact step segment rest hsegment (ih rest.length (by omega) rest rfl)
    · exact last text hsep

/-- The value a segment has under a name, if it is a field of that name. -/
def fieldValue (assign : α) (key segment : List α) : Option (List α) :=
  match segment.idxOf? assign with
  | none => none
  | some i => if segment.take i == key then some (segment.drop (i + 1)) else none

/-- The value of the first field of a name. -/
def lookupField (sep assign : α) (key text : List α) : Option (List α) :=
  (text.splitOn sep).findSome? (fieldValue assign key)

theorem fieldValue_of_not_mem {assign : α} {segment : List α} (h : assign ∉ segment)
    (key : List α) : fieldValue assign key segment = none := by
  rw [fieldValue, idxOf?_not_mem h]

theorem fieldValue_cut {assign : α} {name : List α} (h : assign ∉ name) (key value : List α) :
    fieldValue assign key (name ++ assign :: value) = if name == key then some value else none := by
  rw [fieldValue, idxOf?_cut h]
  simp only [List.take_left, drop_cut]

theorem lookupField_of_not_mem {sep : α} {text : List α} (h : sep ∉ text) (assign : α)
    (key : List α) : lookupField sep assign key text = fieldValue assign key text := by
  rw [lookupField, List.splitOn_eq_singleton h, List.findSome?_singleton]

theorem lookupField_cut {sep : α} {segment : List α} (h : sep ∉ segment) (assign : α)
    (key text : List α) : lookupField sep assign key (segment ++ sep :: text) =
      (fieldValue assign key segment).or (lookupField sep assign key text) := by
  rw [lookupField, List.splitOn_append_cons_self_of_not_mem h, List.findSome?_cons, lookupField]
  cases fieldValue assign key segment <;> rfl

end SqliteSync.Library
