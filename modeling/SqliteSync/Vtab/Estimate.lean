import SqliteSync.Library.Machine
import SqliteSync.Vtab.Faithful

/-!
# The buffer of the index text

`cloudsync_changesvtab_best_index` estimates its buffer from the two counts. The 29
bytes of a constraint are enough for it. An ORDER BY term has 11 and takes up to 19,
as its estimate lacks the parentheses of the other one: what is left of the spare
bytes hides this up to 63 terms.
-/
namespace SqliteSync.Vtab
open Library

/-- What SQLite asks for; both counts are `int`s. -/
structure IndexQuery where
  aConstraint : List IndexConstraint
  aOrderBy : List IndexOrderBy
  nConstraint : aConstraint.length < 2 ^ 31
  nOrderBy : aOrderBy.length < 2 ^ 31

namespace IndexQuery
variable (q : IndexQuery)

/-- The bytes of the estimate, before they are an `int`. -/
def total : ℤ := reserved q.aConstraint q.aOrderBy

/-- `slen`: an `int` that is turned into a `size_t`. -/
def slen : ℕ := sizeT (toInt32 q.total)

/-- `cloudsync_changesvtab_best_index`, when `sqlite3_malloc64` grants the buffer or
refuses it; `none` is `SQLITE_NOMEM`. -/
def bestIndex (granted : Bool) : Option IndexInfo :=
  if granted then some (bestIndexIn q.slen q.aConstraint q.aOrderBy) else none

end IndexQuery

/-- All that was printed and the terminator fit `slen` bytes, `slen - sindex` never went
below zero, and no text was cut. -/
structure Buffer.LargeEnough (slen : ℕ) (b : Buffer) : Prop where
  total : b.sindex + 1 ≤ slen
  remaining : b.overrun = false
  whole : b.text.length = b.sindex

theorem Buffer.Holds.largeEnough_iff {slen : ℕ} {full : List Char} {b : Buffer}
    (h : b.Holds slen full) : b.LargeEnough slen ↔ full.length < slen := by
  constructor
  · intro hlarge
    have htotal := hlarge.total
    rwa [h.sindex] at htotal
  · intro hlt
    refine ⟨?_, h.overrun (Nat.le_of_lt hlt), ?_⟩
    · rw [h.sindex]
      exact hlt
    · rw [h.text_eq hlt, h.sindex]

/-! ## What the terms take -/

/-- What an ORDER BY term takes above its 11 bytes, with the comma in front of it. -/
def IndexOrderBy.excess (o : IndexOrderBy) : ℤ :=
  (columnName o.iColumn).length - if o.desc then 3 else 4

def IndexConstraint.spare (c : IndexConstraint) : ℤ :=
  29 - c.condition.elim 0 fun k => 5 + (printedText k).length

/-- What the constraints leave of their bytes; the first has WHERE in front of it. -/
def spareBytes : List IndexConstraint → ℤ
  | [] => 0
  | c :: cs => 23 - (c.condition.elim 0 fun k => ((printedText k).length : ℤ)) +
      (cs.map IndexConstraint.spare).sum

theorem orderTermText_length (o : IndexOrderBy) :
    (2 + (orderTermText o).length : ℤ) = 11 + o.excess := by
  rw [orderTermText, IndexOrderBy.excess]
  cases o.desc <;> simp <;> ring

theorem orderedText_length (os : List IndexOrderBy) :
    ((orderedText true os).length : ℤ) =
      11 * os.length + (os.map IndexOrderBy.excess).sum := by
  induction os with
  | nil => rfl
  | cons o os ih =>
    have ho := orderTermText_length o
    simp only [orderedText, if_true, List.length_append, List.map_cons, List.sum_cons,
      List.length_cons, Nat.cast_add, Nat.cast_one, ih]
    have hcomma : (", ".toList.length : ℤ) = 2 := rfl
    linarith

theorem orderText_length {os : List IndexOrderBy} (h : os ≠ []) :
    ((orderText os).length : ℤ) =
      8 + 11 * os.length + (os.map IndexOrderBy.excess).sum := by
  obtain ⟨o, os, rfl⟩ := List.exists_cons_of_ne_nil h
  have hlen := orderedText_length (o :: os)
  rw [orderText_cons]
  simp only [orderedText, if_true, Bool.false_eq_true, if_false, List.nil_append,
    List.length_append, Nat.cast_add] at hlen ⊢
  have hcomma : (", ".toList.length : ℤ) = 2 := rfl
  have horder : (" ORDER BY ".toList.length : ℤ) = 10 := rfl
  linarith

theorem printed_spare (cs : List IndexConstraint) :
    ((printed true cs).length : ℤ) = 29 * cs.length - (cs.map IndexConstraint.spare).sum := by
  induction cs with
  | nil => rfl
  | cons c cs ih =>
    have hand : " AND ".toList.length = 5 := rfl
    rw [printed, List.length_append, List.map_cons, List.sum_cons, List.length_cons,
      IndexConstraint.spare]
    cases c.condition with
    | none =>
      simp only [List.length_nil, Option.elim_none, Nat.cast_add, Nat.cast_one, Nat.cast_zero, ih]
      ring
    | some k =>
      simp only [if_true, List.length_append, hand, Option.elim_some, Nat.cast_add, Nat.cast_one,
        Nat.cast_ofNat, ih]
      ring

theorem printedWhere_length (cs : List IndexConstraint) :
    ((printedWhere cs).length : ℤ) = 29 * cs.length - spareBytes cs := by
  cases cs with
  | nil => rfl
  | cons c cs =>
    have hrest := printed_spare cs
    have hwhere : "WHERE ".toList.length = 6 := rfl
    rw [printedWhere_cons, spareBytes, List.length_cons]
    cases c.condition with
    | none =>
      simp only [List.length_append, hwhere, Option.elim_none, Nat.cast_add, Nat.cast_one,
        Nat.cast_ofNat, hrest]
      ring
    | some k =>
      simp only [List.length_append, hwhere, Option.elim_some, Nat.cast_add, Nat.cast_one,
        Nat.cast_ofNat, hrest]
      ring

/-! ## What is at most taken -/

theorem columnName_length_le (i : ℤ) : (columnName i).length ≤ 11 := by
  have hnames : ∀ name ∈ cloudsyncChangesColumns, name.toList.length ≤ 11 := by decide
  rw [columnName]
  split_ifs with h
  · rw [colnameFromIndex, List.getD_eq_getElem?_getD]
    cases hname : cloudsyncChangesColumns[i.toNat]? with
    | none => exact Nat.zero_le _
    | some name => exact hnames name (List.mem_of_getElem? hname)
  · decide

theorem words_length_le (op : SqlOp) : ([' '].intercalate op.words).length ≤ 11 := by
  cases op <;> decide

theorem printedText_length_le (k : Condition ℤ) : (printedText k).length ≤ 23 := by
  have hword := words_length_le k.op
  have hname : (if 0 < k.column then (colnameFromIndex k.column).toList
      else "rowid".toList).length ≤ 11 := by
    split_ifs with h
    · have hle := columnName_length_le k.column
      rwa [columnName, if_pos h.le] at hle
    · decide
  rw [printedText, List.length_append, List.length_cons]
  omega

theorem IndexOrderBy.excess_le (o : IndexOrderBy) : o.excess ≤ 8 := by
  have hname := columnName_length_le o.iColumn
  rw [IndexOrderBy.excess]
  split_ifs <;> omega

theorem IndexConstraint.spare_pos (c : IndexConstraint) : 0 < c.spare := by
  rw [IndexConstraint.spare]
  cases c.condition with
  | none => norm_num
  | some k =>
    have hk := printedText_length_le k
    simp only [Option.elim_some]
    omega

theorem spareBytes_nonneg (cs : List IndexConstraint) : 0 ≤ spareBytes cs := by
  cases cs with
  | nil => exact le_rfl
  | cons c cs =>
    have hrest : 0 ≤ (cs.map IndexConstraint.spare).sum :=
      List.sum_nonneg fun x hx => by
        obtain ⟨d, -, rfl⟩ := List.mem_map.mp hx
        exact d.spare_pos.le
    rw [spareBytes]
    cases c.condition with
    | none => simpa using add_nonneg (by norm_num) hrest
    | some k =>
      have hk := printedText_length_le k
      simp only [Option.elim_some]
      omega

theorem excess_sum_le (os : List IndexOrderBy) :
    (os.map IndexOrderBy.excess).sum ≤ 8 * os.length := by
  induction os with
  | nil => exact le_rfl
  | cons o os ih =>
    have ho := o.excess_le
    rw [List.map_cons, List.sum_cons, List.length_cons]
    push_cast
    omega

namespace IndexQuery
variable (q : IndexQuery)

/-- No buffer is granted; or the estimate is a negative `int`, which as a `size_t` is
larger than any text; or what the ORDER BY terms take above their bytes, and what the
`int` loses of the total, are spare. -/
def Roomy (granted : Bool) : Prop :=
  granted = false ∨ toInt32 q.total < 0 ∨
    (q.aOrderBy.map IndexOrderBy.excess).sum + (q.total - toInt32 q.total) ≤
      (if q.aOrderBy = [] then 488 else 509) + spareBytes q.aConstraint

theorem total_eq : q.total = 29 * q.aConstraint.length + 11 * q.aOrderBy.length + 518 := by
  rw [total, reserved]
  push_cast
  ring

theorem text_length : ((printedWhere q.aConstraint ++ orderText q.aOrderBy).length : ℤ) + 1 =
    q.total - (if q.aOrderBy = [] then 488 else 509) - spareBytes q.aConstraint +
      (q.aOrderBy.map IndexOrderBy.excess).sum := by
  rw [List.length_append, Nat.cast_add, printedWhere_length, q.total_eq]
  by_cases hos : q.aOrderBy = []
  · have hdefault : " ORDER BY db_version, seq ASC".toList.length = 29 := rfl
    rw [hos, orderText, if_pos rfl, if_pos rfl, hdefault]
    simp only [List.length_nil, List.map_nil, List.sum_nil]
    push_cast
    ring
  · rw [orderText_length hos, if_neg hos]
    ring

theorem text_lt_of_neg (h : toInt32 q.total < 0) :
    (printedWhere q.aConstraint ++ orderText q.aOrderBy).length < q.slen := by
  have htext := q.text_length
  have hspare := spareBytes_nonneg q.aConstraint
  have hexcess := excess_sum_le q.aOrderBy
  have hconstraint := q.nConstraint
  have horder := q.nOrderBy
  have hlow : -2 ^ 31 ≤ toInt32 q.total := BitVec.le_toInt _
  have hslen : (q.slen : ℤ) = toInt32 q.total + 2 ^ 64 := by
    rw [slen, sizeT]
    omega
  rw [q.total_eq] at htext
  split_ifs at htext <;> omega

theorem slen_of_nonneg (h : 0 ≤ toInt32 q.total) : (q.slen : ℤ) = toInt32 q.total := by
  have hhigh := toInt32_lt q.total
  rw [slen, sizeT]
  omega

/-- The buffer is large enough exactly when the excess of the ORDER BY terms is spare. -/
theorem bestIndex_largeEnough_iff (granted : Bool) :
    (∀ info, q.bestIndex granted = some info → info.idxStr.LargeEnough q.slen) ↔
      q.Roomy granted := by
  cases granted with
  | false =>
    refine iff_of_true (fun info h => ?_) (.inl rfl)
    cases h
  | true =>
    have hholds := bestIndexIn_holds q.slen q.aConstraint q.aOrderBy
    have hlarge : (∀ info, q.bestIndex true = some info → info.idxStr.LargeEnough q.slen) ↔
        (printedWhere q.aConstraint ++ orderText q.aOrderBy).length < q.slen := by
      rw [← hholds.largeEnough_iff]
      constructor
      · intro h
        exact h _ rfl
      · rintro h info hinfo
        cases hinfo
        exact h
    rw [hlarge, Roomy]
    rcases lt_or_ge (toInt32 q.total) 0 with hneg | hnonneg
    · exact iff_of_true (q.text_lt_of_neg hneg) (.inr (.inl hneg))
    · have hslen := q.slen_of_nonneg hnonneg
      have htext := q.text_length
      constructor
      · intro hlt
        exact .inr (.inr (by omega))
      · rintro (hfalse | hneg | hle)
        · cases hfalse
        · omega
        · omega

/-- As long as the estimate is no more than an `int`, 63 terms leave it large enough;
SQLite drops an ORDER BY clause of more terms. -/
theorem roomy_of_orderBy (h : q.aOrderBy.length ≤ 63) (htotal : q.total < 2 ^ 31)
    (granted : Bool) : q.Roomy granted := by
  have hexcess := excess_sum_le q.aOrderBy
  have hspare := spareBytes_nonneg q.aConstraint
  have hexact : toInt32 q.total = q.total := toInt32_of_lt (by rw [q.total_eq]; omega) htotal
  right
  right
  rw [hexact]
  split_ifs with hos
  · rw [hos, List.map_nil, List.sum_nil]
    omega
  · omega

/-- Then the function is the one whose buffer is not counted in an `int`. -/
theorem bestIndex_eq (h : q.total < 2 ^ 31) :
    q.bestIndex true = some (cloudsyncChangesvtabBestIndex q.aConstraint q.aOrderBy) := by
  have hnonneg : 0 ≤ q.total := by
    rw [q.total_eq]
    omega
  have hslen : q.slen = reserved q.aConstraint q.aOrderBy := by
    rw [slen, toInt32_of_lt hnonneg h, total, sizeT_natCast]
    rw [total] at h
    omega
  rw [bestIndex, if_pos rfl, hslen, cloudsyncChangesvtabBestIndex]

def longOrderBy : IndexQuery :=
  ⟨[], List.replicate 64 ⟨4, true, by decide, by decide⟩, by decide, by simp⟩

theorem not_bestIndex_largeEnough : ¬ ∀ (q : IndexQuery) (granted : Bool) (info : IndexInfo),
    q.bestIndex granted = some info → info.idxStr.LargeEnough q.slen := by
  intro h
  have hlarge := h longOrderBy true _ rfl
  have htotal := hlarge.total
  rw [(bestIndexIn_holds _ _ _).sindex] at htotal
  have htext := longOrderBy.text_length
  have hexcess : (longOrderBy.aOrderBy.map IndexOrderBy.excess).sum = 512 := by decide
  have hslen : longOrderBy.slen = 1222 := by decide
  have hbytes : longOrderBy.total = 1222 := by decide
  rw [hexcess, hbytes, if_neg (by decide)] at htext
  have hspare : spareBytes longOrderBy.aConstraint = 0 := rfl
  omega

end IndexQuery
end SqliteSync.Vtab
