import Mathlib.Data.Int.Notation
import SqliteSync.Library.Join

/-!
# The end of a SELECT: WHERE and ORDER BY

The text of a conjunction of comparisons of a column with a parameter, and of an
ordering, is read into a clause. The meaning of the clause is the filter it puts
on the rows.
-/
namespace SqliteSync.Library

/-- The comparisons; the two null tests take no parameter. -/
inductive SqlOp
  | eq
  | gt
  | le
  | lt
  | ge
  | like
  | glob
  | ne
  | isNot
  | isNotNull
  | isNull
  | is
  deriving DecidableEq, Repr

abbrev Word := List Char

namespace SqlOp

/-- The comparison takes no parameter. -/
def unary : SqlOp → Bool
  | isNotNull => true
  | isNull => true
  | _ => false

/-- Affinity and collation matter: not to the null tests and the patterns. -/
def compares : SqlOp → Bool
  | like => false
  | glob => false
  | isNotNull => false
  | isNull => false
  | _ => true

theorem not_unary_of_compares {op : SqlOp} (h : op.compares = true) : op.unary = false := by
  cases op <;> first | rfl | cases h

/-- The words of a comparison, after the column. -/
def words : SqlOp → List Word
  | eq => ["=".toList, "?".toList]
  | gt => [">".toList, "?".toList]
  | le => ["<=".toList, "?".toList]
  | lt => ["<".toList, "?".toList]
  | ge => [">=".toList, "?".toList]
  | like => ["LIKE".toList, "?".toList]
  | glob => ["GLOB".toList, "?".toList]
  | ne => ["!=".toList, "?".toList]
  | isNot => ["IS".toList, "NOT".toList, "?".toList]
  | isNotNull => ["IS".toList, "NOT".toList, "NULL".toList]
  | isNull => ["IS".toList, "NULL".toList]
  | is => ["IS".toList, "?".toList]

def all : List SqlOp := [eq, gt, le, lt, ge, like, glob, ne, isNot, isNotNull, isNull, is]

/-- The comparison that a list of words spells. -/
def parse (ws : List Word) : Option SqlOp := all.find? fun op => op.words = ws

theorem parse_words (op : SqlOp) : parse op.words = some op := by
  cases op <;> decide

theorem words_ne (op : SqlOp) : ∀ w ∈ op.words, w ≠ "AND".toList ∧ w ≠ "ORDER".toList := by
  cases op <;> decide

end SqlOp

/-- The words that `cur` and the text after it make: a comma stands alone. -/
def wordsFrom (cur : Word) : List Char → List Word
  | [] => if cur = [] then [] else [cur]
  | c :: s =>
    if c = ' ' then (if cur = [] then [] else [cur]) ++ wordsFrom [] s
    else if c = ',' then (if cur = [] then [] else [cur]) ++ [','] :: wordsFrom [] s
    else wordsFrom (cur ++ [c]) s

/-- The words of a text. -/
def words (s : List Char) : List Word := wordsFrom [] s

theorem wordsFrom_space (cur : Word) (s t : List Char) :
    wordsFrom cur (s ++ ' ' :: t) = wordsFrom cur s ++ words t := by
  induction s generalizing cur with
  | nil => simp [wordsFrom, words]
  | cons c s ih =>
    simp only [List.cons_append, wordsFrom, ih]
    split_ifs <;> simp

theorem wordsFrom_comma (cur : Word) (s t : List Char) :
    wordsFrom cur (s ++ ',' :: t) = wordsFrom cur s ++ [','] :: words t := by
  induction s generalizing cur with
  | nil => simp [wordsFrom, words]
  | cons c s ih =>
    simp only [List.cons_append, wordsFrom, ih]
    split_ifs <;> simp

@[simp] theorem words_nil : words [] = [] := rfl

theorem words_space (s t : List Char) : words (s ++ ' ' :: t) = words s ++ words t :=
  wordsFrom_space [] s t

theorem words_comma (s t : List Char) : words (s ++ ',' :: t) = words s ++ [','] :: words t :=
  wordsFrom_comma [] s t

structure Condition (κ : Type) where
  column : κ
  op : SqlOp
  deriving DecidableEq

structure OrderTerm (κ : Type) where
  column : κ
  desc : Bool
  deriving DecidableEq

structure Clause (κ : Type) where
  conditions : List (Condition κ)
  order : List (OrderTerm κ)
  deriving DecidableEq

section Parse

variable {κ : Type} (column : Word → Option κ)

def parseCondition : List Word → Option (Condition κ)
  | [] => none
  | w :: ws => (column w).bind fun k => (SqlOp.parse ws).map fun op => ⟨k, op⟩

def parseOrderTerm : List Word → Option (OrderTerm κ)
  | [w] => (column w).map fun k => ⟨k, false⟩
  | [w, dir] =>
    if dir = "ASC".toList then (column w).map fun k => ⟨k, false⟩
    else if dir = "DESC".toList then (column w).map fun k => ⟨k, true⟩
    else none
  | _ => none

def parseOrder : List Word → Option (List (OrderTerm κ))
  | order :: by_ :: ws =>
    if order = "ORDER".toList ∧ by_ = "BY".toList then
      (ws.splitOn [',']).mapM (parseOrderTerm column)
    else none
  | _ => none

def parseWhere : List Word → Option (Clause κ)
  | [] => none
  | w :: ws =>
    if w = "WHERE".toList then
      (((ws.takeWhile (· ≠ "ORDER".toList)).splitOn "AND".toList).mapM
        (parseCondition column)).bind fun conditions =>
          (parseOrder column (ws.dropWhile (· ≠ "ORDER".toList))).map fun order =>
            ⟨conditions, order⟩
    else (parseOrder column (w :: ws)).map fun order => ⟨[], order⟩

/-- The clause that a text spells; `none` when it does not parse. -/
def parseClause (text : List Char) : Option (Clause κ) := parseWhere column (words text)

theorem parseOrder_terms {terms : List (List Word)} {order : List (OrderTerm κ)}
    (hne : terms ≠ []) (hcomma : ∀ ws ∈ terms, [','] ∉ ws)
    (hparse : terms.mapM (parseOrderTerm column) = some order) :
    parseOrder column ("ORDER".toList :: "BY".toList :: [[',']].intercalate terms) =
      some order := by
  rw [parseOrder, if_pos ⟨rfl, rfl⟩, List.splitOn_intercalate _ hcomma hne, hparse]

theorem parseWhere_none {ws : List Word} {order : List (OrderTerm κ)}
    (horder : parseOrder column ("ORDER".toList :: ws) = some order) :
    parseWhere column ("ORDER".toList :: ws) = some ⟨[], order⟩ := by
  rw [parseWhere, if_neg (by decide), horder]
  rfl

theorem parseWhere_conditions {conds : List (List Word)} {ws : List Word}
    {conditions : List (Condition κ)} {order : List (OrderTerm κ)} (hne : conds ≠ [])
    (hword : ∀ c ∈ conds, ∀ w ∈ c, w ≠ "AND".toList ∧ w ≠ "ORDER".toList)
    (hconds : conds.mapM (parseCondition column) = some conditions)
    (horder : parseOrder column ("ORDER".toList :: ws) = some order) :
    parseWhere column ("WHERE".toList :: (["AND".toList].intercalate conds ++ "ORDER".toList :: ws)) =
      some ⟨conditions, order⟩ := by
  have hall : ∀ w ∈ ["AND".toList].intercalate conds, (decide (w ≠ "ORDER".toList)) = true := by
    intro w hw
    rw [decide_eq_true_eq]
    rcases mem_intercalate hw with rfl | ⟨c, hc, hw⟩
    · decide
    · exact (hword c hc w hw).2
  have hand : ∀ c ∈ conds, "AND".toList ∉ c := fun c hc hw => (hword c hc _ hw).1 rfl
  rw [parseWhere, if_pos rfl, List.takeWhile_append_of_pos hall, List.dropWhile_append_of_pos hall,
    List.takeWhile_cons_of_neg (by decide), List.dropWhile_cons_of_neg (by decide), List.append_nil,
    List.splitOn_intercalate _ hand hne, hconds, Option.bind_some, horder]
  rfl

theorem parseClause_columns {text : List Char} {clause : Clause κ}
    (h : parseClause column text = some clause) :
    ∀ k ∈ clause.conditions, ∃ w, column w = some k.column := by
  rw [parseClause] at h
  cases hws : words text with
  | nil => simp [hws, parseWhere] at h
  | cons w ws =>
    rw [hws, parseWhere] at h
    split at h
    case isTrue =>
      rw [Option.bind_eq_some_iff] at h
      rcases h with ⟨conditions, hconds, h⟩
      rw [Option.map_eq_some_iff] at h
      rcases h with ⟨order, -, rfl⟩
      intro k hk
      rcases mem_of_mapM_eq_some hconds k hk with ⟨c, -, hc⟩
      cases c with
      | nil => simp [parseCondition] at hc
      | cons w ws =>
        rw [parseCondition, Option.bind_eq_some_iff] at hc
        rcases hc with ⟨i, hi, hop⟩
        rw [Option.map_eq_some_iff] at hop
        rcases hop with ⟨op, -, rfl⟩
        exact ⟨w, hi⟩
    case isFalse =>
      rw [Option.map_eq_some_iff] at h
      rcases h with ⟨order, -, rfl⟩
      simp

end Parse

section Meaning

variable {κ Row Value : Type} (cell : Row → κ → Value)
  (sat : κ → SqlOp → Value → Option Value → Bool) (null : Value)

/-- The row satisfies the conditions, their parameters bound in order. What a
comparison means may depend on its column; a parameter that is not bound is NULL. -/
def satisfies (r : Row) : List (Condition κ) → List Value → Bool
  | [], _ => true
  | c :: cs, args =>
    if c.op.unary then sat c.column c.op (cell r c.column) none && satisfies r cs args
    else
      sat c.column c.op (cell r c.column) (some (args.headD null)) && satisfies r cs args.tail

end Meaning

end SqliteSync.Library
