import Mathlib.Tactic

/-!
# Quoting in generated SQL

A text quoted by doubling its quotes stays inside the token it is written into,
whatever it contains. Doubling the other kind of quote does not help: then the
token ends at the first quote of its own kind, and every second one reopens it.
-/
namespace SqliteSync.Library

/-- The quote around a string literal. -/
def literalQuote : Char := Char.ofNat 0x27

/-- The quote around an identifier. -/
def identifierQuote : Char := Char.ofNat 0x22

/-- Every quote of one kind doubled. -/
def doubled (quote : Char) (s : List Char) : List Char :=
  s.flatMap fun c => if c = quote then [quote, quote] else [c]

theorem doubled_cons (quote c : Char) (s : List Char) : doubled quote (c :: s) =
    (if c = quote then [quote, quote] else [c]) ++ doubled quote s := List.flatMap_cons

/-- `%q`: to be written between single quotes. -/
def formatQ (s : String) : String := String.ofList (doubled literalQuote s.toList)

/-- `%w`: to be written between double quotes. -/
def formatW (s : String) : String := String.ofList (doubled identifierQuote s.toList)

/-- Where the tokenizer stands: between tokens or in one without quotes, in a
string literal, or in a quoted identifier. -/
inductive Scan where
  | plain
  | literal
  | identifier
deriving DecidableEq

namespace Scan

def next : Scan → Char → Scan
  | plain, c => if c = literalQuote then literal else if c = identifierQuote then identifier else plain
  | literal, c => if c = literalQuote then plain else literal
  | identifier, c => if c = identifierQuote then plain else identifier

def run (m : Scan) (s : List Char) : Scan := s.foldl next m

@[simp] theorem run_nil (m : Scan) : m.run [] = m := rfl

@[simp] theorem run_cons (m : Scan) (c : Char) (s : List Char) :
    m.run (c :: s) = (m.next c).run s := rfl

@[simp] theorem run_append (m : Scan) (s t : List Char) : m.run (s ++ t) = (m.run s).run t :=
  List.foldl_append

theorem run_plain_of_notMem {s : List Char} (hl : literalQuote ∉ s) (hi : identifierQuote ∉ s) :
    plain.run s = plain := by
  induction s with
  | nil => rfl
  | cons c s ih =>
    rw [List.mem_cons, not_or] at hl hi
    rw [run_cons, next, if_neg (Ne.symm hl.1), if_neg (Ne.symm hi.1)]
    exact ih hl.2 hi.2

theorem run_literal_of_notMem {s : List Char} (hl : literalQuote ∉ s) :
    literal.run s = literal := by
  induction s with
  | nil => rfl
  | cons c s ih =>
    rw [List.mem_cons, not_or] at hl
    rw [run_cons, next, if_neg (Ne.symm hl.1)]
    exact ih hl.2

theorem identifierQuote_ne : identifierQuote ≠ literalQuote := by decide

@[simp] theorem run_literal_doubled (s : List Char) :
    literal.run (doubled literalQuote s) = literal := by
  induction s with
  | nil => rfl
  | cons c s ih =>
    rw [doubled_cons, run_append]
    by_cases hc : c = literalQuote
    · simpa [hc, next] using ih
    · simpa [hc, next] using ih

@[simp] theorem run_identifier_doubled (s : List Char) :
    identifier.run (doubled identifierQuote s) = identifier := by
  induction s with
  | nil => rfl
  | cons c s ih =>
    rw [doubled_cons, run_append]
    by_cases hc : c = identifierQuote
    · simpa [hc, next, identifierQuote_ne] using ih
    · simpa [hc, next] using ih

/-- `%w` written into a literal leaves it and comes back at every single quote. -/
theorem run_doubled_identifierQuote (s : List Char) :
    literal.run (doubled identifierQuote s) =
        (if Even (s.count literalQuote) then literal else plain) ∧
      plain.run (doubled identifierQuote s) =
        (if Even (s.count literalQuote) then plain else literal) := by
  induction s with
  | nil => simp [doubled]
  | cons c s ih =>
    rw [doubled_cons, run_append, run_append]
    by_cases hl : c = literalQuote
    · subst hl
      simp only [identifierQuote_ne.symm, if_false, run_cons, run_nil, next, if_true,
        List.count_cons_self, Nat.even_add_one]
      rw [ih.1, ih.2]
      by_cases he : Even (s.count literalQuote) <;> simp [he]
    · have hcount : (c :: s).count literalQuote = s.count literalQuote :=
        List.count_cons_of_ne hl
      rw [hcount]
      by_cases hi : c = identifierQuote
      · subst hi
        simpa [next, identifierQuote_ne] using ih
      · simpa [hi, hl, next] using ih

end Scan

/-- The text ends outside every literal and every quoted identifier, without
which the tokenizer refuses it. -/
def closesQuotes (sql : String) : Bool := Scan.plain.run sql.toList == .plain

end SqliteSync.Library
