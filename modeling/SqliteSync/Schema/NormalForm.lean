import Mathlib.Data.List.DropRight
import SqliteSync.Schema.Fnv1a

/-!
# The normal form of a schema text

A text is read as a list of pieces: visible characters and quoted strings, and
between them comments, whitespace and bytes that are not printable. The normal
form keeps the former and one space where whitespace separates two of them.
-/
namespace SqliteSync.Schema

inductive Piece
  | visible (c : UInt8)
  | quoted (q : UInt8) (body : List UInt8)
  | space (c : UInt8)
  | comment
  | unprintable (c : UInt8)
  deriving DecidableEq, Repr

/-- What follows an opening quote up to its closing quote, and the rest. A doubled
quote stands for one quote of the content. -/
def quotedBody (q : UInt8) : List UInt8 → List UInt8 × List UInt8
  | [] => ([], [])
  | [c] => ([c], [])
  | c :: d :: rest =>
    if c = q then
      if d = q then (c :: (quotedBody q rest).1, (quotedBody q rest).2) else ([c], d :: rest)
    else (c :: (quotedBody q (d :: rest)).1, (quotedBody q (d :: rest)).2)

def blockRest : List UInt8 → List UInt8
  | [] => []
  | [_] => []
  | c :: d :: rest => if c = '*'.toUInt8 ∧ d = '/'.toUInt8 then rest else blockRest (d :: rest)

def lineRest (s : List UInt8) : List UInt8 := s.dropWhile fun c => c ≠ '\n'.toUInt8

theorem quotedBody_length (q : UInt8) (s : List UInt8) : (quotedBody q s).2.length ≤ s.length := by
  induction s using quotedBody.induct q with
  | case1 => simp [quotedBody]
  | case2 c => simp [quotedBody]
  | case3 rest ih =>
    simp only [quotedBody, if_true, List.length_cons]
    omega
  | case4 d rest hd => simp [quotedBody, hd]
  | case5 c d rest hc ih =>
    simp only [quotedBody, hc, if_false, List.length_cons] at ih ⊢
    omega

theorem blockRest_length (s : List UInt8) : (blockRest s).length ≤ s.length := by
  induction s using blockRest.induct with
  | case1 => simp [blockRest]
  | case2 c => simp [blockRest]
  | case3 c d rest h =>
    simp only [blockRest, h, and_self, if_true, List.length_cons]
    omega
  | case4 c d rest h ih =>
    simp only [blockRest, h, if_false, List.length_cons] at ih ⊢
    omega

/-- The pieces of a text. -/
def pieces : List UInt8 → List Piece
  | [] => []
  | c :: rest =>
    if c = '-'.toUInt8 ∧ rest.headD 0 = '-'.toUInt8 then .comment :: pieces (lineRest rest.tail)
    else if c = '/'.toUInt8 ∧ rest.headD 0 = '*'.toUInt8 then
      .comment :: pieces (blockRest rest.tail)
    else if c = '\''.toUInt8 ∨ c = '"'.toUInt8 then
      .quoted c (quotedBody c rest).1 :: pieces (quotedBody c rest).2
    else if isspace c then .space c :: pieces rest
    else if isprint c then .visible c :: pieces rest
    else .unprintable c :: pieces rest
termination_by s => s.length
decreasing_by
  · have hline : (lineRest rest.tail).length ≤ rest.tail.length := List.length_dropWhile_le _ _
    grind
  · have hblock := blockRest_length rest.tail
    grind
  · have hbody := quotedBody_length c rest
    grind
  all_goals simp

namespace Piece

def isMark : Piece → Bool
  | visible _ => true
  | quoted _ _ => true
  | _ => false

def isSpace : Piece → Bool
  | space _ => true
  | _ => false

/-- The bytes that stand for a mark in the normal form. -/
def text : Piece → List UInt8
  | visible c => [tolower c]
  | quoted q body => q :: body
  | _ => []

def tight : Piece → Bool
  | visible c => Schema.tight c
  | _ => false

def isSemicolon (p : Piece) : Bool := p = visible ';'.toUInt8

end Piece

abbrev Segment := List Piece × Piece

/-- The marks of a text, each with its gap, and the pieces after the last mark. -/
def segments : List Piece → List Segment × List Piece
  | [] => ([], [])
  | p :: ps =>
    if p.isMark then (([], p) :: (segments ps).1, (segments ps).2)
    else match segments ps with
      | ([], tail) => ([], p :: tail)
      | ((gap, m) :: segs, tail) => ((p :: gap, m) :: segs, tail)

def gapText (x : Segment) : List UInt8 :=
  if x.1.any Piece.isSpace ∧ !x.2.tight then [' '.toUInt8] else []

/-- The text of a list of marks; `started` when a mark stands before them. -/
def render : Bool → List Segment → List UInt8
  | _, [] => []
  | started, x :: segs => (if started then gapText x else []) ++ x.2.text ++ render true segs

def trimEnd (segs : List Segment) : List Segment := segs.rdropWhile fun x => x.2.isSemicolon

/-- The documented normal form: no comments and no bytes that are not printable, one
space for a run of whitespace, lower case outside quotes, nothing before the first
character, no spaces and semicolons at the end. -/
def normalForm (s : List UInt8) : List UInt8 := render false (trimEnd (segments (pieces s)).1)

example : normalForm (ascii "A\t--x\n B ( 'It''s' ) ; ") = ascii "a b( 'It's')" := by decide +kernel

end SqliteSync.Schema
