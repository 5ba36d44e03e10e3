import SqliteSync.Schema.NormalForm

/-!
# Where the schema hash is the hash of the normal form

The scanner of `fnv1a_hash` is followed piece by piece. It differs from the normal
form in three ways: it drops a semicolon wherever it stands, whitespace other than
the space character leaves no space, and it does not see a comment between a space
and the character that makes the space irrelevant.
-/
namespace SqliteSync.Schema

theorem isspace_isprint (c : UInt8) : isspace c = true → isprint c = true → c = ' '.toUInt8 := by
  simp only [isspace, isprint, Bool.or_eq_true, Bool.and_eq_true, decide_eq_true_eq,
    UInt8.le_iff_toNat_le, ← UInt8.toNat_inj]
  simp only [show ' '.toUInt8.toNat = 32 by rfl, show '~'.toUInt8.toNat = 126 by rfl,
    show '\t'.toUInt8.toNat = 9 by rfl, show '\r'.toUInt8.toNat = 13 by rfl]
  omega

section Scanner

variable {σ : Type} (hashChar : σ → UInt8 → σ)

theorem fnv1aLoop_line (lastSpace : Bool) (h : σ) (s : List UInt8) :
    fnv1aLoop hashChar 0 .line lastSpace h s =
      fnv1aLoop hashChar 0 .none lastSpace h (lineRest s) := by
  induction s with
  | nil => simp [fnv1aLoop, lineRest]
  | cons c s ih =>
    rw [fnv1aLoop]
    by_cases hc : c = '\n'.toUInt8
    · subst hc
      rw [show lineRest ('\n'.toUInt8 :: s) = '\n'.toUInt8 :: s by simp [lineRest], fnv1aLoop]
      simp [show '\n'.toUInt8 ≠ '-'.toUInt8 by decide, show '\n'.toUInt8 ≠ '/'.toUInt8 by decide,
        show '\n'.toUInt8 ≠ '\''.toUInt8 by decide, show '\n'.toUInt8 ≠ '"'.toUInt8 by decide,
        show isprint '\n'.toUInt8 = false by decide]
    · rw [show lineRest (c :: s) = lineRest s by simp [lineRest, hc], ← ih]
      simp [hc]

theorem fnv1aLoop_block (lastSpace : Bool) (h : σ) (s : List UInt8) :
    fnv1aLoop hashChar 0 .block lastSpace h s =
      fnv1aLoop hashChar 0 .none lastSpace h (blockRest s) := by
  induction s using blockRest.induct with
  | case1 => simp [fnv1aLoop, blockRest]
  | case2 c => simp [fnv1aLoop, blockRest]
  | case3 c d rest hend =>
    rw [fnv1aLoop]
    simp [blockRest, hend]
  | case4 c d rest hend ih =>
    rw [fnv1aLoop, blockRest, if_neg hend, ← ih]
    simp [hend]

theorem fnv1aLoop_quote {q : UInt8} (hq : q = '\''.toUInt8 ∨ q = '"'.toUInt8) (h : σ)
    (s : List UInt8) :
    fnv1aLoop hashChar q .none false h s =
      fnv1aLoop hashChar 0 .none false ((quotedBody q s).1.foldl hashChar h) (quotedBody q s).2 := by
  have hzero : q ≠ 0 := by rcases hq with rfl | rfl <;> decide
  induction s using quotedBody.induct q generalizing h with
  | case1 => simp [fnv1aLoop, quotedBody]
  | case2 c =>
    by_cases hc : c = q
    · subst hc
      rw [fnv1aLoop]
      simp [hq, hzero, hzero.symm, quotedBody]
    · rw [fnv1aLoop]
      simp [hzero, Ne.symm hc, quotedBody, fnv1aLoop]
  | case3 rest ih =>
    rw [fnv1aLoop]
    simp [hq, hzero, quotedBody, ih]
  | case4 d rest hd =>
    rw [fnv1aLoop]
    simp [hq, hzero, hd, quotedBody]
  | case5 c d rest hc ih =>
    rw [fnv1aLoop]
    simp [hzero, Ne.symm hc, hc, quotedBody, ih]

end Scanner

/-- The byte that a piece starts with. -/
def Piece.first : Piece → UInt8
  | .visible c => c
  | .quoted q _ => q
  | .space c => c
  | .comment => '-'.toUInt8
  | .unprintable c => c

def lookahead (ps : List Piece) : UInt8 := (ps.dropWhile Piece.isSpace).head?.elim 0 Piece.first

theorem tight_lookahead (s : List UInt8) :
    tight ((s.dropWhile isspace).headD 0) = tight (lookahead (pieces s)) := by
  induction s with
  | nil => simp [pieces, lookahead]
  | cons c s ih =>
    by_cases hspace : isspace c = true
    · have hc : pieces (c :: s) = .space c :: pieces s := by
        rw [pieces]
        have hdash : c ≠ '-'.toUInt8 := by rintro rfl; exact absurd hspace (by decide)
        have hslash : c ≠ '/'.toUInt8 := by rintro rfl; exact absurd hspace (by decide)
        have hsingle : c ≠ '\''.toUInt8 := by rintro rfl; exact absurd hspace (by decide)
        have hdouble : c ≠ '"'.toUInt8 := by rintro rfl; exact absurd hspace (by decide)
        simp [hdash, hslash, hsingle, hdouble, hspace]
      rw [hc, List.dropWhile_cons_of_pos hspace, ih, lookahead, lookahead,
        List.dropWhile_cons_of_pos rfl]
    · rw [List.dropWhile_cons_of_neg hspace, pieces]
      split_ifs with hline hblock hquote hprint
      · simp [lookahead, Piece.isSpace, Piece.first, hline.1]
      · have hcomment : lookahead (.comment :: pieces (blockRest s.tail)) = '-'.toUInt8 := rfl
        rw [hcomment, hblock.1, List.headD_cons]
        decide
      · simp [lookahead, Piece.isSpace, Piece.first]
      · simp [lookahead, Piece.isSpace, Piece.first]
      · simp [lookahead, Piece.isSpace, Piece.first]

/-- What the scanner hashes of a list of pieces. -/
def scanned : Bool → List Piece → List UInt8
  | _, [] => []
  | _, .quoted q body :: ps => q :: body ++ scanned false ps
  | _, .visible c :: ps =>
    if c = ';'.toUInt8 then scanned true ps else tolower c :: scanned false ps
  | lastSpace, .space c :: ps =>
    if c ≠ ' '.toUInt8 then scanned lastSpace ps
    else if tight (lookahead ps) then scanned true ps
    else if !lastSpace then ' '.toUInt8 :: scanned true ps
    else scanned lastSpace ps
  | lastSpace, .comment :: ps => scanned lastSpace ps
  | lastSpace, .unprintable _ :: ps => scanned lastSpace ps

theorem fnv1aLoop_pieces {σ : Type} (hashChar : σ → UInt8 → σ) (lastSpace : Bool) (h : σ)
    (s : List UInt8) :
    fnv1aLoop hashChar 0 .none lastSpace h s = (scanned lastSpace (pieces s)).foldl hashChar h := by
  induction s using pieces.induct generalizing lastSpace h with
  | case1 => simp [fnv1aLoop, pieces, scanned]
  | case2 c rest hline ih =>
    have hp : pieces (c :: rest) = .comment :: pieces (lineRest rest.tail) := by
      rw [pieces, if_pos hline]
    rw [hp, scanned, ← ih, ← fnv1aLoop_line, fnv1aLoop]
    simp only [hline, and_self, if_true]
  | case3 c rest hline hblock ih =>
    have hp : pieces (c :: rest) = .comment :: pieces (blockRest rest.tail) := by
      rw [pieces, if_neg hline, if_pos hblock]
    rw [hp, scanned, ← ih, ← fnv1aLoop_block, fnv1aLoop]
    simp only [true_and, hline, if_false]
    simp only [hblock, and_self, if_true]
  | case4 c rest hline hblock hquote ih =>
    have hp : pieces (c :: rest) = .quoted c (quotedBody c rest).1 :: pieces (quotedBody c rest).2 := by
      rw [pieces, if_neg hline, if_neg hblock, if_pos hquote]
    have hzero : (0 : UInt8) ≠ c := by rcases hquote with rfl | rfl <;> decide
    rw [hp, scanned, List.cons_append, List.foldl_cons, List.foldl_append, ← ih,
      ← fnv1aLoop_quote hashChar hquote, fnv1aLoop]
    simp only [true_and, hline, hblock, hquote, hzero, if_false, if_true, reduceCtorEq]
  | case5 c rest hline hblock hquote hspace ih =>
    have hp : pieces (c :: rest) = .space c :: pieces rest := by
      rw [pieces, if_neg hline, if_neg hblock, if_neg hquote, if_pos hspace]
    rw [hp, fnv1aLoop]
    simp only [true_and, hline, hblock, hquote, if_false, reduceCtorEq, ne_eq, not_true_eq_false,
      hspace, if_true, tight_lookahead, ih, scanned]
    by_cases hc : c = ' '.toUInt8
    · subst hc
      simp only [show isprint ' '.toUInt8 = true by decide]
      cases lastSpace <;> cases tight (lookahead (pieces rest)) <;> simp
    · have hprint : isprint c = false := by
        by_contra hprint
        exact hc (isspace_isprint c hspace (by simpa using hprint))
      simp [hc, hprint]
  | case6 c rest hline hblock hquote hspace hprint ih =>
    have hp : pieces (c :: rest) = .visible c :: pieces rest := by
      rw [pieces, if_neg hline, if_neg hblock, if_neg hquote, if_neg hspace, if_pos hprint]
    rw [hp, fnv1aLoop]
    simp only [true_and, hline, hblock, hquote, if_false, reduceCtorEq, ne_eq, not_true_eq_false,
      hspace, hprint, ih, scanned]
    by_cases hc : c = ';'.toUInt8 <;> simp [hc]
  | case7 c rest hline hblock hquote hspace hprint ih =>
    have hp : pieces (c :: rest) = .unprintable c :: pieces rest := by
      rw [pieces, if_neg hline, if_neg hblock, if_neg hquote, if_neg hspace, if_neg hprint]
    rw [hp, fnv1aLoop]
    simp only [true_and, hline, hblock, hquote, if_false, reduceCtorEq, ne_eq, not_true_eq_false,
      hprint, ih, scanned]
    simp

/-- What the lexer says of the bytes of a piece. -/
def Piece.Proper : Piece → Prop
  | .visible c => isprint c = true ∧ isspace c = false
  | .quoted q _ => q = '\''.toUInt8 ∨ q = '"'.toUInt8
  | .unprintable c => isprint c = false
  | _ => True

theorem pieces_proper (s : List UInt8) : ∀ p ∈ pieces s, p.Proper := by
  induction s using pieces.induct with
  | case1 => simp [pieces]
  | case2 c rest hline ih =>
    rw [pieces, if_pos hline]
    simpa [Piece.Proper] using ih
  | case3 c rest hline hblock ih =>
    rw [pieces, if_neg hline, if_pos hblock]
    simpa [Piece.Proper] using ih
  | case4 c rest hline hblock hquote ih =>
    rw [pieces, if_neg hline, if_neg hblock, if_pos hquote]
    simpa [Piece.Proper, hquote] using ih
  | case5 c rest hline hblock hquote hspace ih =>
    rw [pieces, if_neg hline, if_neg hblock, if_neg hquote, if_pos hspace]
    simpa [Piece.Proper] using ih
  | case6 c rest hline hblock hquote hspace hprint ih =>
    rw [pieces, if_neg hline, if_neg hblock, if_neg hquote, if_neg hspace, if_pos hprint]
    simpa [Piece.Proper, hspace, hprint] using ih
  | case7 c rest hline hblock hquote hspace hprint ih =>
    rw [pieces, if_neg hline, if_neg hblock, if_neg hquote, if_neg hspace, if_neg hprint]
    simpa [Piece.Proper, hprint] using ih

/-- The pieces of a gap after its first space character and the whitespace that
follows it; `none` for a gap with no space character. -/
def afterBlank (gap : List Piece) : Option (List Piece) :=
  match gap.dropWhile fun p => p ≠ .space ' '.toUInt8 with
  | [] => none
  | _ :: rest => some (rest.dropWhile Piece.isSpace)

/-- Where the scanner treats a gap before the byte `next` (0 at the end of the text)
as the normal form does. A space is irrelevant: nothing but whitespace stands between
the first space character and `next`. A space counts: whitespace of the gap includes a
space character. (A zero byte, which no C string has, reads as the end.) -/
structure GapFits (gap : List Piece) (next : UInt8) : Prop where
  dropped : tight next = true → ∀ rest, afterBlank gap = some rest →
    rest = [] ∨ rest.head? = some (.unprintable 0)
  kept : tight next = false → (∃ p ∈ gap, p.isSpace = true) →
    ∃ rest, afterBlank gap = some rest ∧ rest.head? ≠ some (.unprintable 0)

/-- Every gap after the first mark fits, and only semicolons follow a semicolon.
`started` when a mark stands before, and no semicolon after it. -/
def Fits : Bool → List Segment → List Piece → Prop
  | started, [], tail => started = true → GapFits tail 0
  | started, x :: segs, tail =>
    (started = true → GapFits x.1 x.2.first) ∧
      if x.2.isSemicolon then ∀ y ∈ segs, y.2.isSemicolon = true else Fits true segs tail

/-- The texts whose schema hash is the hash of their normal form. -/
def NormalText (s : List UInt8) : Prop :=
  Fits false (segments (pieces s)).1 (segments (pieces s)).2

/-- The pieces that a list of segments and a tail stand for. -/
def joined (segs : List Segment) (tail : List Piece) : List Piece :=
  segs.flatMap (fun x => x.1 ++ [x.2]) ++ tail

/-- The gaps hold no mark, and every segment ends in one. -/
structure Segmented (segs : List Segment) (tail : List Piece) : Prop where
  gap : ∀ x ∈ segs, ∀ p ∈ x.1, p.isMark = false ∧ p.Proper
  mark : ∀ x ∈ segs, x.2.isMark = true ∧ x.2.Proper
  tail : ∀ p ∈ tail, p.isMark = false ∧ p.Proper

theorem joined_segments (ps : List Piece) : joined (segments ps).1 (segments ps).2 = ps := by
  induction ps with
  | nil => rfl
  | cons p ps ih =>
    rw [segments]
    split_ifs with hmark
    · simpa [joined] using ih
    · cases hsegs : segments ps with
      | mk segs tail =>
        rw [hsegs] at ih
        cases segs with
        | nil => simpa [joined] using ih
        | cons x segs => simpa [joined] using ih

theorem segmented_segments (ps : List Piece) (hps : ∀ p ∈ ps, p.Proper) :
    Segmented (segments ps).1 (segments ps).2 := by
  induction ps with
  | nil => exact ⟨by simp [segments], by simp [segments], by simp [segments]⟩
  | cons p ps ih =>
    have hs := ih fun p hp => hps p (.tail _ hp)
    have hp := hps p List.mem_cons_self
    rw [segments]
    split_ifs with hmark
    · refine ⟨?_, ?_, hs.tail⟩
      · simpa using hs.gap
      · simpa [hmark, hp] using hs.mark
    · cases hsegs : segments ps with
      | mk segs tail =>
        rw [hsegs] at hs
        cases segs with
        | nil =>
          refine ⟨by simp, by simp, ?_⟩
          simpa [hmark, hp] using hs.tail
        | cons x segs =>
          refine ⟨?_, ?_, hs.tail⟩
          · simpa [hmark, hp] using hs.gap
          · simpa using hs.mark

/-- The scanner puts a space for a gap, unless the character before is one already. -/
def blank (gap : List Piece) (next : UInt8) : Bool :=
  (afterBlank gap).any fun rest => !tight (rest.head?.elim next Piece.first)

theorem lookahead_append (gap ps : List Piece) (hps : ps.dropWhile Piece.isSpace = ps) :
    lookahead (gap ++ ps) = (gap.dropWhile Piece.isSpace).head?.elim (lookahead ps) Piece.first := by
  rw [lookahead, lookahead, hps, List.dropWhile_append]
  split_ifs with hgap
  · rw [List.isEmpty_iff] at hgap
    rw [hgap, hps]
    rfl
  · cases hd : gap.dropWhile Piece.isSpace with
    | nil => simp [hd] at hgap
    | cons p rest => rfl

theorem scanned_gap (lastSpace : Bool) (gap ps : List Piece) (hgap : ∀ p ∈ gap, p.isMark = false)
    (hps : ps.dropWhile Piece.isSpace = ps) (hstate : ∀ a b, scanned a ps = scanned b ps) :
    scanned lastSpace (gap ++ ps) =
      (if !lastSpace && blank gap (lookahead ps) then [' '.toUInt8] else []) ++ scanned true ps := by
  induction gap generalizing lastSpace with
  | nil => simpa [blank, afterBlank] using hstate _ _
  | cons p gap ih =>
    have hrest := fun b => ih b fun p hp => hgap p (.tail _ hp)
    have hmark := hgap p List.mem_cons_self
    by_cases hp : p = .space ' '.toUInt8
    · subst hp
      have hblank : blank (.space ' '.toUInt8 :: gap) (lookahead ps) =
          !tight (lookahead (gap ++ ps)) := by
        rw [lookahead_append gap ps hps]
        simp [blank, afterBlank]
      rw [List.cons_append, scanned, hblank]
      cases lastSpace <;> cases tight (lookahead (gap ++ ps)) <;> simp [hrest true]
    · have hblank : blank (p :: gap) (lookahead ps) = blank gap (lookahead ps) := by
        simp [blank, afterBlank, hp]
      rw [hblank, ← hrest lastSpace]
      cases p with
      | visible c => simp [Piece.isMark] at hmark
      | quoted q body => simp [Piece.isMark] at hmark
      | space c =>
        have hc : c ≠ ' '.toUInt8 := fun h => hp (h ▸ rfl)
        rw [List.cons_append, scanned, if_pos hc]
      | comment => rw [List.cons_append, scanned]
      | unprintable c => rw [List.cons_append, scanned]

theorem tight_of_unprintable (c : UInt8) (hc : isprint c = false) : tight c = true ↔ c = 0 := by
  constructor
  · intro h
    simp only [tight, Bool.or_eq_true, decide_eq_true_eq] at h
    rcases h with (((rfl | rfl) | rfl) | rfl) | rfl
    all_goals first | rfl | exact absurd hc (by decide)
  · rintro rfl
    decide

/-- What stands after the whitespace of a gap is no whitespace. -/
theorem afterBlank_head {gap rest : List Piece} {p : Piece} (hrest : afterBlank gap = some rest)
    (hp : rest.head? = some p) : p ∈ gap ∧ p.isSpace = false := by
  unfold afterBlank at hrest
  split at hrest
  · simp at hrest
  case h_2 q tail hd =>
    have ht : rest = tail.dropWhile Piece.isSpace := by simpa using hrest.symm
    subst ht
    have hsuffix : tail.dropWhile Piece.isSpace <:+ gap :=
      ((List.dropWhile_suffix _).trans (List.suffix_cons q tail)).trans
        (hd ▸ List.dropWhile_suffix _)
    constructor
    · exact hsuffix.subset (List.mem_of_mem_head? hp)
    · have hnot := List.head?_dropWhile_not Piece.isSpace tail
      rw [hp] at hnot
      simpa using hnot

theorem any_of_afterBlank {gap rest : List Piece} (h : afterBlank gap = some rest) :
    ∃ p ∈ gap, p.isSpace = true := by
  by_contra hnone
  have hall : ∀ p ∈ gap, (decide (p ≠ .space ' '.toUInt8)) = true := by
    intro p hp
    rw [decide_eq_true_eq]
    rintro rfl
    exact hnone ⟨_, hp, rfl⟩
  rw [afterBlank, List.dropWhile_eq_nil_iff.mpr hall] at h
  cases h

theorem blank_eq_iff {gap : List Piece} (hgap : ∀ p ∈ gap, p.isMark = false ∧ p.Proper)
    (next : UInt8) :
    (blank gap next = true ↔ (∃ p ∈ gap, p.isSpace = true) ∧ tight next = false) ↔
      GapFits gap next := by
  -- what follows the space character decides, as the whitespace before it leaves nothing
  have hhead : ∀ rest, afterBlank gap = some rest → ∀ p, rest.head? = some p →
      (tight p.first = true ↔ p = .unprintable 0) := by
    intro rest hrest p hp
    rcases afterBlank_head hrest hp with ⟨hmem, hspace⟩
    rcases hgap p hmem with ⟨hmark, hproper⟩
    cases p with
    | visible c => simp [Piece.isMark] at hmark
    | quoted q body => simp [Piece.isMark] at hmark
    | space c => simp [Piece.isSpace] at hspace
    | comment =>
      simp only [Piece.first, reduceCtorEq, iff_false]
      decide
    | unprintable c =>
      simp only [Piece.first, Piece.unprintable.injEq]
      exact tight_of_unprintable c hproper
  cases hafter : afterBlank gap with
  | none =>
    have hblank : blank gap next = false := by simp [blank, hafter]
    rw [hblank]
    constructor
    · intro h
      refine ⟨fun _ rest hrest => ?_, fun hnext hany => absurd (h.mpr ⟨hany, hnext⟩) (by simp)⟩
      rw [hafter] at hrest
      cases hrest
    · intro h
      simp only [Bool.false_eq_true, false_iff, not_and]
      intro hany hnext
      rcases h.kept hnext hany with ⟨rest, hrest, -⟩
      rw [hafter] at hrest
      cases hrest
  | some rest =>
    have hany := any_of_afterBlank hafter
    have hblank : blank gap next = !tight (rest.head?.elim next Piece.first) := by
      simp [blank, hafter]
    have hfits : GapFits gap next ↔
        (tight next = true → rest = [] ∨ rest.head? = some (.unprintable 0)) ∧
          (tight next = false → rest.head? ≠ some (.unprintable 0)) := by
      constructor
      · intro h
        refine ⟨fun hnext => h.dropped hnext rest hafter, fun hnext => ?_⟩
        rcases h.kept hnext hany with ⟨rest', hrest', hne⟩
        rw [hafter, Option.some.injEq] at hrest'
        exact hrest' ▸ hne
      · intro h
        refine ⟨fun hnext rest' hrest' => ?_, fun hnext _ => ⟨rest, hafter, h.2 hnext⟩⟩
        rw [hafter, Option.some.injEq] at hrest'
        exact hrest' ▸ h.1 hnext
    rw [hblank, hfits, and_iff_right hany]
    cases hr : rest with
    | nil => cases hn : tight next <;> simp [hn]
    | cons p rest' =>
      have hp := hhead rest hafter p (by rw [hr]; rfl)
      rw [List.head?_cons, Option.elim_some, ne_eq, Option.some.injEq, ← hp]
      cases hn : tight next <;> cases hq : tight p.first <;> simp

theorem tolower_eq_self {c d : UInt8} (hd : d < 'A'.toUInt8) (h : tolower c = d) : c = d := by
  unfold tolower at h
  split at h
  case isTrue hupper =>
    simp only [Bool.and_eq_true, decide_eq_true_eq] at hupper
    subst h
    have hA : 'A'.toUInt8.toNat = 65 := rfl
    have hZ : 'Z'.toUInt8.toNat = 90 := rfl
    rw [UInt8.le_iff_toNat_le, UInt8.le_iff_toNat_le, hA, hZ] at hupper
    rw [UInt8.lt_iff_toNat_lt, hA, UInt8.toNat_add] at hd
    simp only [UInt8.reduceToNat, Nat.reducePow] at hd
    omega
  case isFalse => exact h

namespace Piece

/-- A mark starts with no space and, other than the semicolon, with no semicolon. -/
theorem text_head {m : Piece} (hmark : m.isMark = true) (hproper : m.Proper) :
    ∃ c rest, m.text = c :: rest ∧ c ≠ ' '.toUInt8 ∧
      (m.isSemicolon = false → c ≠ ';'.toUInt8) := by
  cases m with
  | visible c =>
    refine ⟨tolower c, [], rfl, ?_, ?_⟩
    · intro h
      have hc := tolower_eq_self (by decide) h
      subst hc
      exact absurd hproper.2 (by decide)
    · intro hsemi h
      have hc := tolower_eq_self (by decide) h
      subst hc
      exact absurd hsemi (by decide)
  | quoted q body =>
    refine ⟨q, body, rfl, ?_, fun _ => ?_⟩
    · rcases hproper with rfl | rfl <;> decide
    · rcases hproper with rfl | rfl <;> decide
  | space c => simp [isMark] at hmark
  | comment => simp [isMark] at hmark
  | unprintable c => simp [isMark] at hmark

theorem scanned_cons {m : Piece} (hmark : m.isMark = true) (lastSpace : Bool) (ps : List Piece) :
    scanned lastSpace (m :: ps) =
      if m.isSemicolon then scanned true ps else m.text ++ scanned false ps := by
  cases m with
  | visible c => by_cases hc : c = ';'.toUInt8 <;> simp [scanned, isSemicolon, text, hc]
  | quoted q body => simp [scanned, isSemicolon, text]
  | space c => simp [isMark] at hmark
  | comment => simp [isMark] at hmark
  | unprintable c => simp [isMark] at hmark

theorem tight_eq {m : Piece} (hmark : m.isMark = true) (hproper : m.Proper) :
    m.tight = Schema.tight m.first := by
  cases m with
  | visible c => rfl
  | quoted q body =>
    change false = Schema.tight q
    rcases hproper with rfl | rfl <;> decide
  | space c => simp [isMark] at hmark
  | comment => simp [isMark] at hmark
  | unprintable c => simp [isMark] at hmark

theorem isSpace_of_isMark {m : Piece} (hmark : m.isMark = true) : m.isSpace = false := by
  cases m <;> simp_all [isMark, isSpace]

end Piece

namespace Segmented

variable {x : Segment} {segs : List Segment} {tail : List Piece}

theorem of_cons (h : Segmented (x :: segs) tail) : Segmented segs tail :=
  ⟨fun y hy => h.gap y (.tail _ hy), fun y hy => h.mark y (.tail _ hy), h.tail⟩

theorem scanned_nil (h : Segmented [] tail) (lastSpace : Bool) :
    scanned lastSpace (joined [] tail) =
      if !lastSpace && blank tail 0 then [' '.toUInt8] else [] := by
  have hgap := scanned_gap lastSpace tail [] (fun p hp => (h.tail p hp).1) rfl fun _ _ => rfl
  simpa [joined, scanned, lookahead] using hgap

theorem scanned_cons (h : Segmented (x :: segs) tail) (lastSpace : Bool) :
    scanned lastSpace (joined (x :: segs) tail) =
      (if !lastSpace && blank x.1 x.2.first then [' '.toUInt8] else []) ++
        if x.2.isSemicolon then scanned true (joined segs tail)
        else x.2.text ++ scanned false (joined segs tail) := by
  rcases h.mark x List.mem_cons_self with ⟨hmark, hproper⟩
  have hspace := Piece.isSpace_of_isMark hmark
  have hjoined : joined (x :: segs) tail = x.1 ++ x.2 :: joined segs tail := by
    simp [joined]
  have hahead : lookahead (x.2 :: joined segs tail) = x.2.first := by
    simp [lookahead, hspace]
  rw [hjoined, scanned_gap lastSpace x.1 _
      (fun p hp => (h.gap x List.mem_cons_self p hp).1) (by simp [hspace])
      (fun a b => by rw [Piece.scanned_cons hmark, Piece.scanned_cons hmark]), hahead,
    Piece.scanned_cons hmark]

/-- Semicolons leave nothing once a space is not possible. -/
theorem scanned_semicolons (h : Segmented segs tail)
    (hall : ∀ y ∈ segs, y.2.isSemicolon = true) : scanned true (joined segs tail) = [] := by
  induction segs with
  | nil => simp [h.scanned_nil]
  | cons x segs ih =>
    rw [h.scanned_cons, if_pos (hall x List.mem_cons_self)]
    simpa using ih h.of_cons fun y hy => hall y (.tail _ hy)

/-- After a semicolon the scanner never puts a semicolon next. -/
theorem scanned_head (h : Segmented segs tail) :
    (scanned true (joined segs tail)).head? ≠ some ';'.toUInt8 := by
  induction segs with
  | nil => simp [h.scanned_nil]
  | cons x segs ih =>
    rw [h.scanned_cons]
    cases hsemi : x.2.isSemicolon with
    | true => simpa using ih h.of_cons
    | false =>
      rcases h.mark x List.mem_cons_self with ⟨hmark, hproper⟩
      rcases Piece.text_head hmark hproper with ⟨c, rest, htext, -, hc⟩
      simpa [htext] using hc hsemi

end Segmented

theorem trimEnd_cons (x : Segment) (segs : List Segment) :
    trimEnd (x :: segs) =
      if ∀ y ∈ x :: segs, y.2.isSemicolon = true then [] else x :: trimEnd segs := by
  simp only [trimEnd]
  induction segs using List.reverseRecOn with
  | nil =>
    rw [List.rdropWhile_singleton, List.rdropWhile_nil]
    simp
  | append_singleton segs y ih =>
    rw [← List.cons_append, List.rdropWhile_concat, List.rdropWhile_concat, ih]
    have hall : (∀ z ∈ x :: segs ++ [y], z.2.isSemicolon = true) ↔
        (∀ z ∈ x :: segs, z.2.isSemicolon = true) ∧ y.2.isSemicolon = true := by
      rw [List.forall_mem_append, List.forall_mem_singleton]
    by_cases hy : y.2.isSemicolon = true
    · rw [if_pos hy, if_pos hy]
      exact if_congr (by rw [hall, and_iff_left hy]) rfl rfl
    · rw [if_neg hy, if_neg hy, if_neg (by rw [hall]; exact fun h => hy h.2), List.cons_append]

/-- Two texts with the same mark after an optional space agree when the spaces and
what follows do. -/
theorem optional_space_eq {a b : Bool} {c : UInt8} (hc : c ≠ ' '.toUInt8) (u v : List UInt8) :
    (if a then [' '.toUInt8] else []) ++ c :: u = (if b then [' '.toUInt8] else []) ++ c :: v ↔
      a = b ∧ u = v := by
  cases a <;> cases b <;> simp [hc, hc.symm]

theorem scanned_eq_render_iff (started : Bool) {segs : List Segment} {tail : List Piece}
    (h : Segmented segs tail) :
    scanned (!started) (joined segs tail) = render started (trimEnd segs) ↔
      Fits started segs tail := by
  induction segs generalizing started with
  | nil =>
    have hfits := blank_eq_iff h.tail 0
    rw [h.scanned_nil, Fits, ← hfits, show tight 0 = true by decide]
    cases started <;> simp [trimEnd, render]
  | cons x segs ih =>
    rcases h.mark x List.mem_cons_self with ⟨hmark, hproper⟩
    rcases Piece.text_head hmark hproper with ⟨c, rest, htext, hspace, hc⟩
    have hfits := blank_eq_iff (h.gap x List.mem_cons_self) x.2.first
    have hgap : (if started then gapText x else []) =
        if started && (decide (∃ p ∈ x.1, p.isSpace = true) && !tight x.2.first) then
          [' '.toUInt8] else [] := by
      rw [gapText, Piece.tight_eq hmark hproper]
      cases started <;> simp
    rw [h.scanned_cons, Bool.not_not]
    cases hsemi : x.2.isSemicolon with
    | true =>
      have hvisible : x.2 = .visible ';'.toUInt8 := by simpa [Piece.isSemicolon] using hsemi
      have hfirst : tight x.2.first = true := by
        rw [hvisible]
        decide
      simp only [Fits, hsemi, if_true, ← hfits, hfirst]
      by_cases hall : ∀ y ∈ segs, y.2.isSemicolon = true
      · have hsemis : ∀ y ∈ x :: segs, y.2.isSemicolon = true := by
          rw [List.forall_mem_cons]
          exact ⟨hsemi, hall⟩
        rw [trimEnd_cons, if_pos hsemis, h.of_cons.scanned_semicolons hall, and_iff_left hall]
        cases started <;> simp [render]
      · -- the normal form has the semicolon next, the scanner a space or a later mark
        have htrim : trimEnd (x :: segs) = x :: trimEnd segs := by
          rw [trimEnd_cons, if_neg fun h => hall (List.forall_mem_cons.mp h).2]
        have htext' : x.2.text = [';'.toUInt8] := by
          rw [hvisible]
          rfl
        have hnext := h.of_cons.scanned_head
        simp only [hall, and_false, iff_false]
        rw [htrim, render, hgap, hfirst, htext']
        intro heq
        have hhead := congrArg List.head? heq
        cases hb : started && blank x.1 x.2.first with
        | true =>
          simp [hb] at hhead
          exact absurd hhead (by decide)
        | false =>
          apply hnext
          simpa [hb] using hhead
    | false =>
      have htrim : trimEnd (x :: segs) = x :: trimEnd segs := by
        rw [trimEnd_cons, if_neg fun h => by simp [(List.forall_mem_cons.mp h).1] at hsemi]
      simp only [Fits, hsemi, Bool.false_eq_true, if_false, ← hfits]
      rw [htrim, render, hgap, htext, List.append_assoc, List.cons_append, List.cons_append,
        optional_space_eq hspace, List.append_cancel_left_eq]
      have hrest := ih true h.of_cons
      rw [Bool.not_true] at hrest
      rw [hrest]
      apply and_congr_left'
      cases started <;> cases blank x.1 x.2.first <;> simp

theorem hashedBytes_eq (s : List UInt8) : hashedBytes s = scanned true (pieces s) := by
  have hfold : ∀ l out : List UInt8, l.foldl (fun out c => out ++ [c]) out = out ++ l := by
    intro l
    induction l with
    | nil => simp
    | cons c l ih => simp [ih]
  rw [hashedBytes, fnv1aLoop_pieces, hfold, List.nil_append]

/-- The hash is FNV-1a of the bytes the scanner keeps, and these are the normal form
exactly where the text fits. -/
theorem fnv1aHash_normalForm_iff (s : List UInt8) :
    fnv1aHash s = fnv1a (hashedBytes s) ∧ (hashedBytes s = normalForm s ↔ NormalText s) := by
  constructor
  · rw [fnv1aHash, fnv1aLoop_pieces, fnv1a, hashedBytes_eq]
  · have hsegments := segmented_segments (pieces s) (pieces_proper s)
    have hiff := scanned_eq_render_iff false hsegments
    rw [joined_segments, Bool.not_false, ← hashedBytes_eq] at hiff
    exact hiff

/-- A newline in place of the space: the words run together. -/
theorem fnv1aHash_newline :
    fnv1aHash (ascii "id TEXT\nPRIMARY KEY") ≠ fnv1a (normalForm (ascii "id TEXT\nPRIMARY KEY")) ∧
    normalForm (ascii "id TEXT\nPRIMARY KEY") = normalForm (ascii "id TEXT PRIMARY KEY") ∧
    fnv1aHash (ascii "id TEXT\nPRIMARY KEY") ≠ fnv1aHash (ascii "id TEXT PRIMARY KEY") ∧
    hashedBytes (ascii "id TEXT\nPRIMARY KEY") = ascii "id textprimary key" := by
  decide +kernel

end SqliteSync.Schema
