import Mathlib.Data.List.Basic

/-! # The schema hash: `fnv1a_hash` -/
namespace SqliteSync.Schema

/-- `isprint` of the C locale. -/
def isprint (c : UInt8) : Bool := ' '.toUInt8 ≤ c && c ≤ '~'.toUInt8

/-- `isspace` of the C locale: the space and tab, newline, vertical tab, form feed, return. -/
def isspace (c : UInt8) : Bool := c = ' '.toUInt8 || ('\t'.toUInt8 ≤ c && c ≤ '\r'.toUInt8)

/-- `tolower` of the C locale. -/
def tolower (c : UInt8) : UInt8 := if 'A'.toUInt8 ≤ c && c ≤ 'Z'.toUInt8 then c + 32 else c

/-- The comment state: 0, 1 = line, 2 = block. -/
inductive Cmt
  | none
  | line
  | block
  deriving DecidableEq, Repr

/-- The characters before which a space is irrelevant; 0 stands for the end of the text. -/
def tight (c : UInt8) : Bool :=
  c = '('.toUInt8 || c = ')'.toUInt8 || c = ','.toUInt8 || c = ';'.toUInt8 || c = 0

section Scanner

variable {σ : Type} (hashChar : σ → UInt8 → σ)

/-- The loop of `fnv1a_hash`. `q` is the quote state, 0 or the quote that is open.
What `HASH_CHAR` does to the hash is left open; it sets `h` and `h_final` together. -/
def fnv1aLoop (q : UInt8) (cmt : Cmt) (lastSpace : Bool) (h : σ) : List UInt8 → σ
  | [] => h
  | c :: rest =>
    let next := rest.headD 0
    -- detect start of comments
    if q = 0 ∧ cmt = .none ∧ c = '-'.toUInt8 ∧ next = '-'.toUInt8 then
      fnv1aLoop q .line lastSpace h rest.tail
    else if q = 0 ∧ cmt = .none ∧ c = '/'.toUInt8 ∧ next = '*'.toUInt8 then
      fnv1aLoop q .block lastSpace h rest.tail
    -- skip comments
    else if cmt = .line then
      fnv1aLoop q (if c = '\n'.toUInt8 then .none else cmt) lastSpace h rest
    else if cmt = .block then
      if c = '*'.toUInt8 ∧ next = '/'.toUInt8 then fnv1aLoop q .none lastSpace h rest.tail
      else fnv1aLoop q cmt lastSpace h rest
    -- handle quotes
    else if c = '\''.toUInt8 ∨ c = '"'.toUInt8 then
      if q = c then
        if next = c then fnv1aLoop q cmt lastSpace (hashChar h c) rest.tail
        else fnv1aLoop 0 cmt false (hashChar h c) rest
      else fnv1aLoop (if q = 0 then c else q) cmt false (hashChar h c) rest
    -- inside quote: hash exactly
    else if q ≠ 0 then fnv1aLoop q cmt false (hashChar h c) rest
    -- skip non-printable
    else if !isprint c then fnv1aLoop q cmt lastSpace h rest
    -- whitespace normalization
    else if isspace c then
      if tight ((rest.dropWhile isspace).headD 0) then fnv1aLoop q cmt true h rest
      else if !lastSpace then fnv1aLoop q cmt true (hashChar h ' '.toUInt8) rest
      else fnv1aLoop q cmt lastSpace h rest
    -- skip semicolons at end
    else if c = ';'.toUInt8 then fnv1aLoop q cmt true h rest
    -- normal visible char
    else fnv1aLoop q cmt false (hashChar h (tolower c)) rest
termination_by s => s.length

end Scanner

def FNV_OFFSET_BASIS : UInt64 := 0xcbf29ce484222325

def FNV_PRIME : UInt64 := 0x100000001b3

/-- The effect of `HASH_CHAR` on the running hash. -/
def HASH_CHAR (h : UInt64) (c : UInt8) : UInt64 := (h ^^^ c.toUInt64) * FNV_PRIME

def fnv1aHash (data : List UInt8) : UInt64 :=
  fnv1aLoop HASH_CHAR 0 .none true FNV_OFFSET_BASIS data

/-- FNV-1a of a byte string as it stands. -/
def fnv1a (data : List UInt8) : UInt64 := data.foldl HASH_CHAR FNV_OFFSET_BASIS

/-- The bytes that `fnv1a_hash` passes to `HASH_CHAR`, in order. -/
def hashedBytes (data : List UInt8) : List UInt8 :=
  fnv1aLoop (fun out c => out ++ [c]) 0 .none true [] data

/-- The bytes of an ASCII text. -/
def ascii (s : String) : List UInt8 := s.toList.map Char.toUInt8

example : hashedBytes (ascii "A /*x*/ B,\t'it''s' ;") = ascii "a b,'it's'" := by decide +kernel

end SqliteSync.Schema
