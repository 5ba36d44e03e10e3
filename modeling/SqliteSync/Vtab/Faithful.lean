import SqliteSync.Vtab.BestIndex

/-!
# Where the index is faithful

The text of the index is compared with the clause it stands for: the usable,
supported constraints and the ordering. It goes wrong where the first constraint is
skipped, where `tbl` or the rowid is constrained, and where it outgrows its buffer.
-/
namespace SqliteSync.Vtab
open Library

/-- The comparison that a constraint code of SQLite stands for, where a query can
spell it. -/
def opOf : ℕ → Option SqlOp
  | 2 => some .eq
  | 4 => some .gt
  | 8 => some .le
  | 16 => some .lt
  | 32 => some .ge
  | 65 => some .like
  | 66 => some .glob
  | 68 => some .ne
  | 69 => some .isNot
  | 70 => some .isNotNull
  | 71 => some .isNull
  | 72 => some .is
  | _ => none

def IndexConstraint.condition (c : IndexConstraint) : Option (Condition ℤ) :=
  if c.usable then (opOf c.op).map fun op => ⟨c.iColumn, op⟩ else none

def accepted (cs : List IndexConstraint) : List (Condition ℤ) :=
  cs.filterMap IndexConstraint.condition

def columnName (i : ℤ) : List Char :=
  if 0 ≤ i then (colnameFromIndex i).toList else "rowid".toList

def conditionText (k : Condition ℤ) : List Char :=
  columnName k.column ++ ' ' :: [' '].intercalate k.op.words

def whereText (ks : List (Condition ℤ)) : List Char :=
  if ks = [] then []
  else "WHERE ".toList ++ " AND ".toList.intercalate (ks.map conditionText)

def orderTermText (o : IndexOrderBy) : List Char :=
  columnName o.iColumn ++ ' ' :: (if o.desc then " DESC" else " ASC").toList

def orderText (os : List IndexOrderBy) : List Char :=
  if os = [] then " ORDER BY db_version, seq ASC".toList
  else " ORDER BY ".toList ++ ", ".toList.intercalate (os.map orderTermText)

def orderOf (os : List IndexOrderBy) : List (OrderTerm ℤ) :=
  if os = [] then [⟨5, false⟩, ⟨8, false⟩] else os.map fun o => ⟨o.iColumn, o.desc⟩

section Rows

variable {Row Value : Type} (cell : Row → ℤ → Value) (m : Meaning Value)

/-- The row satisfies a constraint with this value on its right, on the very column
that the constraint names. -/
def meets (how : Comparing) (r : Row) (k : Condition ℤ) (v : Value) : Bool :=
  m.sat how k.op (cell r k.column) (if k.op.unary then none else some v)

/-- The row satisfies every constraint that SQLite will not check again, each compared
in its own way. -/
def meetsOmitted (how : IndexConstraint → Comparing) (r : Row) (cs : List IndexConstraint)
    (usage : List ConstraintUsage) (values : List Value) : Bool :=
  (cs.zip (usage.zip values)).all fun x =>
    !x.2.1.omitted || x.1.condition.all fun k => meets cell m (how x.1) r k x.2.2

end Rows

/-- The text is whole and spells the accepted constraints, its parameters are the
numbered constraints in order, and the query returns what the omitted constraints ask
of the declared columns. -/
structure Faithful (tables : List String) (cs : List IndexConstraint) (os : List IndexOrderBy)
    (info : IndexInfo) : Prop where
  whole : info.idxStr.overrun = false ∧ info.idxStr.sindex = info.idxStr.text.length
  text : info.idxStr.text = whereText (accepted cs) ++ orderText os
  parses : parseClause columnOf info.idxStr.text = some ⟨accepted cs, orderOf os⟩
  omitted : info.aConstraintUsage.map (·.omitted) = cs.map fun c => c.condition.isSome
  params : (info.aConstraintUsage.map (·.argvIndex)).filter (0 < ·) =
    List.range' 1 ((accepted cs).countP fun k => !k.op.unary)
  rows : ∀ (Row Value : Type) (cell : Row → ℤ → Value) (m : Meaning Value) (null : Value)
    (feed : List Row) (values : List Value), values.length = cs.length →
    buildChangesSql cell m null tables feed info.idxStr.text
        (argvOf info.aConstraintUsage values) =
      some (feed.filter fun r =>
        meetsOmitted cell m IndexConstraint.comparing r cs info.aConstraintUsage values)

/-- The bytes of the text, with those of the WHERE clause counted from an AND before
every condition. -/
def neededBytes (cs : List IndexConstraint) (os : List IndexOrderBy) : ℕ :=
  (if accepted cs = [] then 0
    else (accepted cs).foldr (fun k n => 5 + (conditionText k).length + n) 1) +
  (orderText os).length

/-- There is a table of changes; the first constraint is usable and supported; no such
constraint is on `tbl` or the rowid, and none compares a column that has another affinity
in the query, or under another collation; and the text is shorter than the buffer. -/
structure WellPosed (tables : List String) (cs : List IndexConstraint) (os : List IndexOrderBy) :
    Prop where
  table : tables.any Store.likeCloudsync = true
  first : ∀ c, cs.head? = some c → c.condition.isSome
  columns : ∀ c ∈ cs, c.condition.isSome → 0 < c.iColumn
  comparing : ∀ c ∈ cs, ∀ k, c.condition = some k → k.op.compares = true →
    declaredAffinity c.iColumn = queryAffinity c.iColumn ∧ c.binary = true
  fits : neededBytes cs os < reserved cs os

section Operators

theorem opnameFromValue_none {v : ℕ} (h : opOf v = none) : opnameFromValue v = none := by
  revert h
  fun_cases opOf v <;> simp_all [opnameFromValue]

theorem opnameFromValue_some {v : ℕ} {op : SqlOp} (h : opOf v = some op) :
    ∃ opname, opnameFromValue v = some opname ∧
      (∀ colname, constraintText colname opname v =
        colname.toList ++ ' ' :: [' '].intercalate op.words) ∧
      ((v = SQLITE_INDEX_CONSTRAINT_ISNULL ∨ v = SQLITE_INDEX_CONSTRAINT_ISNOTNULL) ↔
        op.unary = true) := by
  revert h
  fun_cases opOf v
  all_goals
    intro h
    cases h
  all_goals
    refine ⟨_, rfl, fun colname => ?_, by decide⟩
    simp [constraintText, SQLITE_INDEX_CONSTRAINT_ISNULL, SQLITE_INDEX_CONSTRAINT_ISNOTNULL,
      SqlOp.words]

end Operators

/-- The buffer after all of `full` went to `snprintf`. -/
structure Buffer.Holds (slen : ℕ) (full : List Char) (b : Buffer) : Prop where
  sindex : b.sindex = full.length
  text : b.text = full.take (slen - 1)
  overrun : full.length ≤ slen → b.overrun = false

theorem Buffer.Holds.snprintf {slen : ℕ} {full : List Char} {b : Buffer}
    (h : b.Holds slen full) (t : List Char) : (b.snprintf slen t).Holds slen (full ++ t) := by
  constructor
  · simp [Buffer.snprintf, h.sindex]
  · rw [Buffer.snprintf, h.text]
    by_cases hfull : full.length ≤ slen - 1
    · rw [List.take_of_length_le hfull]
    · have hlen : (full.take (slen - 1)).length = slen - 1 := by
        rw [List.length_take]
        omega
      rw [List.take_append_of_le_length (by omega), List.take_take, Nat.min_self,
        List.take_append_of_le_length (by omega)]
  · intro hle
    rw [List.length_append] at hle
    have hover := h.overrun (by omega)
    simp only [Buffer.snprintf, h.sindex, hover, Bool.false_or, decide_eq_false_iff_not]
    omega

/-- The buffer holds all of the text exactly when it is larger. -/
theorem Buffer.Holds.whole_iff {slen : ℕ} {full : List Char} {b : Buffer}
    (h : b.Holds slen full) (hslen : 0 < slen) :
    (b.overrun = false ∧ b.sindex = b.text.length) ↔ full.length < slen := by
  have hlen : b.text.length = min (slen - 1) full.length := by
    rw [h.text, List.length_take]
  rw [h.sindex, hlen]
  constructor
  · rintro ⟨-, heq⟩
    omega
  · intro hlt
    exact ⟨h.overrun (Nat.le_of_lt hlt), by omega⟩

theorem Buffer.Holds.text_eq {slen : ℕ} {full : List Char} {b : Buffer}
    (h : b.Holds slen full) (hlt : full.length < slen) : b.text = full := by
  rw [h.text, List.take_of_length_le (by omega)]

/-- What the loop prints for a condition: the column 0 goes by the name of the rowid. -/
def printedText (k : Condition ℤ) : List Char :=
  (if 0 < k.column then (colnameFromIndex k.column).toList else "rowid".toList) ++
    ' ' :: [' '].intercalate k.op.words

theorem checkConstraint_none (slen i : ℕ) {c : IndexConstraint} (x : BestIndex)
    (hc : c.condition = none) :
    checkConstraint slen i c x =
      { x with aConstraintUsage := x.aConstraintUsage ++ [⟨0, false⟩] } := by
  rw [checkConstraint]
  cases husable : c.usable with
  | false => simp
  | true =>
    have hop : opOf c.op = none := by simpa [IndexConstraint.condition, husable] using hc
    simp [opnameFromValue_none hop]

theorem checkConstraint_some (slen i : ℕ) {c : IndexConstraint} (x : BestIndex)
    {k : Condition ℤ} (hc : c.condition = some k) :
    (checkConstraint slen i c x).buf =
        (if 0 < i then x.buf.snprintf slen " AND ".toList else x.buf).snprintf slen
          (printedText k) ∧
      (checkConstraint slen i c x).argIndex =
        (if k.op.unary then x.argIndex else x.argIndex + 1) ∧
      (checkConstraint slen i c x).aConstraintUsage =
        x.aConstraintUsage ++ [⟨if k.op.unary then 0 else x.argIndex, true⟩] := by
  unfold IndexConstraint.condition at hc
  split at hc
  case isFalse => simp at hc
  case isTrue husable =>
    rw [Option.map_eq_some_iff] at hc
    rcases hc with ⟨op, hop, rfl⟩
    rcases opnameFromValue_some hop with ⟨opname, hname, htext, hunary⟩
    have hcolumn : (if 0 < c.iColumn then colnameFromIndex c.iColumn else "rowid").toList =
        if 0 < c.iColumn then (colnameFromIndex c.iColumn).toList else "rowid".toList := by
      split_ifs <;> rfl
    simp only [checkConstraint, husable, Bool.not_true, Bool.false_eq_true, if_false, hname, htext,
      hunary, printedText, hcolumn, and_self]

/-- The text of the conditions, after others when `later`. -/
def printed (later : Bool) : List IndexConstraint → List Char
  | [] => []
  | c :: cs =>
    (match c.condition with
    | none => []
    | some k => (if later then " AND ".toList else []) ++ printedText k) ++ printed true cs

/-- The numbers given to the parameters, from `n` on. -/
def usageFrom : ℕ → List IndexConstraint → List ConstraintUsage
  | _, [] => []
  | n, c :: cs =>
    match c.condition with
    | none => ⟨0, false⟩ :: usageFrom n cs
    | some k =>
      if k.op.unary then ⟨0, true⟩ :: usageFrom n cs else ⟨n, true⟩ :: usageFrom (n + 1) cs

theorem checkConstraints_holds (slen i : ℕ) (cs : List IndexConstraint) (x : BestIndex)
    {full : List Char} (hx : x.buf.Holds slen full) :
    (checkConstraints slen i cs x).buf.Holds slen (full ++ printed (decide (0 < i)) cs) := by
  induction cs generalizing i x full with
  | nil => simpa [checkConstraints, printed] using hx
  | cons c cs ih =>
    rw [checkConstraints, printed]
    cases hc : c.condition with
    | none =>
      rw [checkConstraint_none slen i x hc]
      simpa using ih (i + 1) { x with aConstraintUsage := x.aConstraintUsage ++ [⟨0, false⟩] } hx
    | some k =>
      have hbuf : (checkConstraint slen i c x).buf.Holds slen
          (full ++ ((if decide (0 < i) then " AND ".toList else []) ++ printedText k)) := by
        rw [(checkConstraint_some slen i x hc).1, ← List.append_assoc]
        by_cases hi : 0 < i
        · simpa [hi] using (hx.snprintf " AND ".toList).snprintf (printedText k)
        · simpa [hi] using hx.snprintf (printedText k)
      have hrest := ih (i + 1) _ hbuf
      rw [List.append_assoc] at hrest
      simpa using hrest

theorem checkConstraints_usage (slen i : ℕ) (cs : List IndexConstraint) (x : BestIndex) :
    (checkConstraints slen i cs x).aConstraintUsage =
      x.aConstraintUsage ++ usageFrom x.argIndex cs := by
  induction cs generalizing i x with
  | nil => simp [checkConstraints, usageFrom]
  | cons c cs ih =>
    rw [checkConstraints, ih, usageFrom]
    cases hc : c.condition with
    | none =>
      rw [checkConstraint_none slen i x hc]
      simp
    | some k =>
      rcases checkConstraint_some slen i x hc with ⟨-, hindex, husage⟩
      rw [hindex, husage, List.append_assoc]
      cases hunary : k.op.unary <;> simp [hunary]

/-- The text of the ordering terms, after others when `later`. -/
def orderedText (later : Bool) : List IndexOrderBy → List Char
  | [] => []
  | o :: os => (if later then ", ".toList else []) ++ orderTermText o ++ orderedText true os

theorem checkOrderBy_holds (slen i : ℕ) (os : List IndexOrderBy) (b : Buffer)
    {full : List Char} (hb : b.Holds slen full) :
    (checkOrderBy slen i os b).Holds slen (full ++ orderedText (decide (0 < i)) os) := by
  induction os generalizing i b full with
  | nil => simpa [checkOrderBy, orderedText] using hb
  | cons o os ih =>
    have hname : columnName o.iColumn = (colnameFromIndex o.iColumn).toList := by
      rw [columnName, if_pos o.lower]
    rw [checkOrderBy, orderedText, orderTermText, hname]
    have hstep := (show (if 0 < i then b.snprintf slen ", ".toList else b).Holds slen
        (full ++ if decide (0 < i) then ", ".toList else []) by
      by_cases hi : 0 < i
      · simpa [hi] using hb.snprintf ", ".toList
      · simpa [hi] using hb).snprintf
        ((colnameFromIndex o.iColumn).toList ++ ' ' :: (if o.desc then " DESC" else " ASC").toList)
    have hrest := ih (i + 1) _ hstep
    simpa [List.append_assoc] using hrest

theorem orderedText_true (os : List IndexOrderBy) :
    orderedText true os = os.flatMap fun o => ", ".toList ++ orderTermText o := by
  induction os with
  | nil => rfl
  | cons o os ih => rw [orderedText, ih, if_pos rfl, List.flatMap_cons]

theorem orderText_cons (o : IndexOrderBy) (os : List IndexOrderBy) :
    orderText (o :: os) = " ORDER BY ".toList ++ orderedText false (o :: os) := by
  rw [orderText, if_neg (List.cons_ne_nil o os), List.map_cons, intercalate_cons, orderedText,
    orderedText_true, List.flatMap_map]
  rfl

def printedWhere (cs : List IndexConstraint) : List Char :=
  if cs = [] then [] else "WHERE ".toList ++ printed false cs

theorem bestIndexIn_holds (slen : ℕ) (cs : List IndexConstraint) (os : List IndexOrderBy) :
    (bestIndexIn slen cs os).idxStr.Holds slen (printedWhere cs ++ orderText os) := by
  have hempty : (⟨[], 0, false⟩ : Buffer).Holds slen [] := ⟨rfl, by simp, fun _ => rfl⟩
  have hstart : (if 0 < cs.length then
        (⟨[], 0, false⟩ : Buffer).snprintf slen "WHERE ".toList
      else ⟨[], 0, false⟩).Holds slen (if cs = [] then [] else "WHERE ".toList) := by
    cases cs with
    | nil => simpa using hempty
    | cons c cs => simpa using hempty.snprintf "WHERE ".toList
  have hprinted : (if cs = [] then [] else "WHERE ".toList) ++ printed (decide (0 < 0)) cs =
      printedWhere cs := by
    cases cs <;> simp [printedWhere, printed]
  simp only [bestIndexIn]
  generalize (if 0 < cs.length then
    (⟨[], 0, false⟩ : Buffer).snprintf slen "WHERE ".toList
    else ⟨[], 0, false⟩) = start at hstart ⊢
  have hwhere := checkConstraints_holds slen 0 cs ⟨start, 1, 0, []⟩ hstart
  rw [hprinted] at hwhere
  cases os with
  | nil => exact hwhere.snprintf _
  | cons o os =>
    rw [orderText_cons, ← List.append_assoc]
    exact checkOrderBy_holds slen 0 (o :: os) _ (hwhere.snprintf " ORDER BY ".toList)

theorem bestIndex_holds (cs : List IndexConstraint) (os : List IndexOrderBy) :
    (cloudsyncChangesvtabBestIndex cs os).idxStr.Holds (reserved cs os)
      (printedWhere cs ++ orderText os) :=
  bestIndexIn_holds (reserved cs os) cs os

theorem bestIndex_usage (cs : List IndexConstraint) (os : List IndexOrderBy) :
    (cloudsyncChangesvtabBestIndex cs os).aConstraintUsage = usageFrom 1 cs := by
  simp only [cloudsyncChangesvtabBestIndex, bestIndexIn, checkConstraints_usage, List.nil_append]

/-! The lengths tell the printed text from the expected one. -/

theorem printedText_length (k : Condition ℤ) :
    (printedText k).length = (conditionText k).length + if k.column = 0 then 2 else 0 := by
  rw [printedText, conditionText, columnName]
  rcases Int.lt_trichotomy k.column 0 with hneg | hzero | hpos
  · rw [if_neg (by omega), if_neg (by omega), if_neg (by omega), Nat.add_zero]
  · rw [if_neg (by omega), if_pos (by omega), if_pos hzero, hzero]
    simp only [List.length_append]
    have hrowid : "rowid".toList.length = (colnameFromIndex 0).toList.length + 2 := by decide
    omega
  · rw [if_pos hpos, if_pos (by omega), if_neg (by omega), Nat.add_zero]

theorem printed_true (cs : List IndexConstraint) :
    printed true cs = (accepted cs).flatMap fun k => " AND ".toList ++ printedText k := by
  induction cs with
  | nil => rfl
  | cons c cs ih =>
    rw [printed, ih, accepted]
    cases hc : c.condition with
    | none => simp [hc, accepted]
    | some k => simp [hc, accepted]

theorem printedWhere_cons (c : IndexConstraint) (cs : List IndexConstraint) :
    printedWhere (c :: cs) =
      match c.condition with
      | none => "WHERE ".toList ++ printed true cs
      | some k => "WHERE ".toList ++ printedText k ++ printed true cs := by
  rw [printedWhere, if_neg (List.cons_ne_nil c cs), printed]
  cases c.condition <;> simp

theorem whereText_cons (k : Condition ℤ) (ks : List (Condition ℤ)) :
    whereText (k :: ks) = "WHERE ".toList ++ conditionText k ++
      ks.flatMap fun k => " AND ".toList ++ conditionText k := by
  rw [whereText, if_neg (List.cons_ne_nil k ks), List.map_cons, intercalate_cons, List.flatMap_map,
    List.append_assoc]

theorem printedText_eq {k : Condition ℤ} (hk : k.column ≠ 0) : printedText k = conditionText k := by
  rw [printedText, conditionText, columnName]
  by_cases hpos : 0 < k.column
  · rw [if_pos hpos, if_pos (by omega)]
  · rw [if_neg hpos, if_neg (by omega)]

theorem printed_length (ks : List (Condition ℤ)) :
    (ks.flatMap fun k => " AND ".toList ++ printedText k).length =
      (ks.flatMap fun k => " AND ".toList ++ conditionText k).length +
        2 * ks.countP (fun k => k.column = 0) := by
  induction ks with
  | nil => rfl
  | cons k ks ih =>
    simp only [List.flatMap_cons, List.length_append, ih, printedText_length, List.countP_cons,
      decide_eq_true_eq]
    split_ifs <;> omega

/-- The text is the expected one exactly when its first constraint is accepted and
none is on the column 0. -/
theorem printedWhere_eq_iff (cs : List IndexConstraint) :
    printedWhere cs = whereText (accepted cs) ↔
      (∀ c, cs.head? = some c → c.condition.isSome) ∧ ∀ k ∈ accepted cs, k.column ≠ 0 := by
  cases cs with
  | nil => simp [printedWhere, whereText, accepted]
  | cons c cs =>
    rw [printedWhere_cons, printed_true]
    cases hc : c.condition with
    | none =>
      have haccepted : accepted (c :: cs) = accepted cs := by simp [accepted, hc]
      have hnot : ¬ ∀ d, (c :: cs).head? = some d → d.condition.isSome := fun h => by
        have hd := h c rfl
        rw [hc] at hd
        cases hd
      rw [haccepted]
      simp only [hnot, false_and, iff_false]
      intro heq
      have hlen := congrArg List.length heq
      have hprinted := printed_length (accepted cs)
      cases hks : accepted cs with
      | nil =>
        rw [hks, whereText, if_pos rfl] at heq
        simp at heq
      | cons k ks =>
        rw [hks, whereText_cons] at hlen
        rw [hks] at hprinted
        simp only [List.length_append, List.flatMap_cons] at hlen hprinted
        have hand : " AND ".toList.length = 5 := rfl
        omega
    | some k =>
      have haccepted : accepted (c :: cs) = k :: accepted cs := by simp [accepted, hc]
      have hfirst : ∀ d, (c :: cs).head? = some d → d.condition.isSome := by
        intro d hd
        rw [List.head?_cons, Option.some.injEq] at hd
        rw [← hd, hc]
        rfl
      rw [haccepted, whereText_cons, and_iff_right hfirst, List.forall_mem_cons]
      constructor
      · intro heq
        have hlen := congrArg List.length heq
        have hprinted := printed_length (accepted cs)
        have hk := printedText_length k
        simp only [List.length_append] at hlen
        have hcount : (accepted cs).countP (fun k => k.column = 0) = 0 := by omega
        have hcolumn : k.column ≠ 0 := fun h0 => by
          rw [if_pos h0] at hk
          omega
        rw [List.countP_eq_zero] at hcount
        exact ⟨hcolumn, fun k' hk' => by simpa using hcount k' hk'⟩
      · intro hcolumns
        have hrest : ((accepted cs).flatMap fun k => " AND ".toList ++ printedText k) =
            (accepted cs).flatMap fun k => " AND ".toList ++ conditionText k := by
          apply List.flatMap_congr
          intro k' hk'
          rw [printedText_eq (hcolumns.2 k' hk')]
        simp only [printedText_eq hcolumns.1, hrest]

theorem neededBytes_eq (cs : List IndexConstraint) (os : List IndexOrderBy) :
    neededBytes cs os = (whereText (accepted cs) ++ orderText os).length := by
  have hfoldr : ∀ ks : List (Condition ℤ),
      ks.foldr (fun k n => 5 + (conditionText k).length + n) 1 =
        1 + (ks.flatMap fun k => " AND ".toList ++ conditionText k).length := by
    intro ks
    induction ks with
    | nil => rfl
    | cons k ks ih =>
      rw [List.foldr_cons, ih, List.flatMap_cons, List.length_append, List.length_append]
      have hand : " AND ".toList.length = 5 := rfl
      omega
  rw [neededBytes, List.length_append]
  congr 1
  cases accepted cs with
  | nil => simp [whereText]
  | cons k ks =>
    rw [whereText_cons, if_neg (List.cons_ne_nil k ks), hfoldr, List.flatMap_cons]
    simp only [List.length_append]
    have hwhere : "WHERE ".toList.length = 6 := rfl
    have hand : " AND ".toList.length = 5 := rfl
    omega

/-! The expected text parses. -/

theorem columnName_spec {i : ℤ} (hlower : 0 ≤ i) (hupper : i ≤ 8) :
    words (columnName i) = [columnName i] ∧ columnOf (columnName i) = some i ∧
      columnName i ≠ "AND".toList ∧ columnName i ≠ "ORDER".toList ∧ columnName i ≠ [','] := by
  have hi : i = 0 ∨ i = 1 ∨ i = 2 ∨ i = 3 ∨ i = 4 ∨ i = 5 ∨ i = 6 ∨ i = 7 ∨ i = 8 := by omega
  rcases hi with rfl | rfl | rfl | rfl | rfl | rfl | rfl | rfl | rfl <;> decide

theorem words_condition {k : Condition ℤ} (hlower : 0 ≤ k.column) (hupper : k.column ≤ 8) :
    words (conditionText k) = columnName k.column :: k.op.words := by
  have hop : words ([' '].intercalate k.op.words) = k.op.words := by
    cases k.op <;> decide
  rw [conditionText, words_space, (columnName_spec hlower hupper).1, hop]
  rfl

theorem words_conditions (A B : List Char) (ks : List (Condition ℤ)) :
    words (A ++ (ks.flatMap fun k => " AND ".toList ++ conditionText k) ++ ' ' :: B) =
      words A ++ (ks.flatMap fun k => "AND".toList :: words (conditionText k)) ++ words B := by
  induction ks generalizing A with
  | nil => simp [words_space]
  | cons k ks ih =>
    have hsplit : A ++ ((k :: ks).flatMap fun k => " AND ".toList ++ conditionText k) ++ ' ' :: B =
        A ++ ' ' :: ("AND".toList ++ ' ' :: (conditionText k ++
          (ks.flatMap fun k => " AND ".toList ++ conditionText k) ++ ' ' :: B)) := by
      simp
    rw [hsplit, words_space, words_space, ih]
    simp [show words ['A', 'N', 'D'] = [['A', 'N', 'D']] by decide]

theorem words_orderTerm (o : IndexOrderBy) :
    words (orderTermText o) =
      [columnName o.iColumn, if o.desc then "DESC".toList else "ASC".toList] := by
  rw [orderTermText, words_space, (columnName_spec o.lower o.upper).1]
  cases o.desc <;> rfl

theorem words_orderTerms (A : List Char) (os : List IndexOrderBy) :
    words (A ++ os.flatMap fun o => ", ".toList ++ orderTermText o) =
      words A ++ os.flatMap fun o => [','] :: words (orderTermText o) := by
  induction os generalizing A with
  | nil => simp
  | cons o os ih =>
    have hsplit : A ++ ((o :: os).flatMap fun o => ", ".toList ++ orderTermText o) =
        A ++ ',' :: ([] ++ ' ' :: (orderTermText o ++
          os.flatMap fun o => ", ".toList ++ orderTermText o)) := by
      simp
    rw [hsplit, words_comma, words_space, ih]
    simp

def orderTail (os : List IndexOrderBy) : List Char := (orderText os).tail

theorem orderText_eq (os : List IndexOrderBy) : orderText os = ' ' :: orderTail os := by
  rw [orderTail, orderText]
  split_ifs <;> rfl

theorem parse_order (os : List IndexOrderBy) :
    ∃ ws, words (orderTail os) = "ORDER".toList :: ws ∧
      parseOrder columnOf ("ORDER".toList :: ws) = some (orderOf os) := by
  cases os with
  | nil => exact ⟨_, rfl, by decide⟩
  | cons o os =>
    have htail : orderTail (o :: os) = "ORDER".toList ++ ' ' :: ("BY".toList ++ ' ' ::
        (orderTermText o ++ os.flatMap fun o => ", ".toList ++ orderTermText o)) := by
      rw [orderTail, orderText, if_neg (List.cons_ne_nil o os), List.map_cons, intercalate_cons,
        List.flatMap_map]
      rfl
    have hterms : words (orderTail (o :: os)) = "ORDER".toList :: "BY".toList ::
        [[',']].intercalate ((o :: os).map fun o => words (orderTermText o)) := by
      rw [htail, words_space, words_space, words_orderTerms, List.map_cons, intercalate_cons,
        List.flatMap_map]
      rfl
    refine ⟨_, hterms, parseOrder_terms columnOf (by simp) ?_ ?_⟩
    · intro ws hws
      rw [List.mem_map] at hws
      rcases hws with ⟨o', -, rfl⟩
      rw [words_orderTerm]
      have hcomma := (columnName_spec o'.lower o'.upper).2.2.2.2
      cases o'.desc <;> simp [hcomma.symm]
    · rw [List.mapM_map, orderOf, if_neg (List.cons_ne_nil o os)]
      apply mapM_eq_some
      intro o' _
      rw [Function.comp_apply, words_orderTerm]
      have hcolumn := (columnName_spec o'.lower o'.upper).2.1
      cases o'.desc
      · simp [parseOrderTerm, hcolumn]
      · simp [parseOrderTerm, hcolumn]

theorem parse_expected {ks : List (Condition ℤ)}
    (hks : ∀ k ∈ ks, 0 ≤ k.column ∧ k.column ≤ 8) (os : List IndexOrderBy) :
    parseClause columnOf (whereText ks ++ orderText os) = some ⟨ks, orderOf os⟩ := by
  rcases parse_order os with ⟨ws, hws, horder⟩
  rw [parseClause, orderText_eq]
  cases ks with
  | nil =>
    have hwords : words (whereText [] ++ ' ' :: orderTail os) = "ORDER".toList :: ws := by
      rw [words_space, hws]
      rfl
    rw [hwords, parseWhere_none columnOf horder]
  | cons k ks =>
    have hsplit : whereText (k :: ks) ++ ' ' :: orderTail os = "WHERE".toList ++ ' ' ::
        (conditionText k ++ (ks.flatMap fun k => " AND ".toList ++ conditionText k) ++
          ' ' :: orderTail os) := by
      rw [whereText_cons]
      simp
    have hconds : ((k :: ks).map fun k => words (conditionText k)).mapM
        (parseCondition columnOf) = some (k :: ks) := by
      rw [List.mapM_map, ← List.map_id (k :: ks), List.mapM_map]
      apply mapM_eq_some
      intro k' hk'
      rcases hks k' hk' with ⟨hlower, hupper⟩
      simp [words_condition hlower hupper, parseCondition, (columnName_spec hlower hupper).2.1,
        SqlOp.parse_words]
    have hword : ∀ c ∈ (k :: ks).map fun k => words (conditionText k),
        ∀ w ∈ c, w ≠ "AND".toList ∧ w ≠ "ORDER".toList := by
      intro c hc w hw
      rw [List.mem_map] at hc
      rcases hc with ⟨k', hk', rfl⟩
      rcases hks k' hk' with ⟨hlower, hupper⟩
      rw [words_condition hlower hupper, List.mem_cons] at hw
      rcases hw with rfl | hw
      · exact ⟨(columnName_spec hlower hupper).2.2.1, (columnName_spec hlower hupper).2.2.2.1⟩
      · exact k'.op.words_ne w hw
    have hwords : words (whereText (k :: ks) ++ ' ' :: orderTail os) = "WHERE".toList ::
        (["AND".toList].intercalate ((k :: ks).map fun k => words (conditionText k)) ++
          "ORDER".toList :: ws) := by
      rw [hsplit, words_space, words_conditions, hws, List.map_cons, intercalate_cons,
        List.flatMap_map]
      rfl
    rw [hwords, parseWhere_conditions columnOf (by simp) hword hconds horder]

/-! The numbers of the parameters, and what the filter returns. -/

theorem usageFrom_omitted (n : ℕ) (cs : List IndexConstraint) :
    (usageFrom n cs).map (·.omitted) = cs.map fun c => c.condition.isSome := by
  induction cs generalizing n with
  | nil => rfl
  | cons c cs ih =>
    rw [usageFrom]
    cases hc : c.condition with
    | none => simp [ih, hc]
    | some k => cases hunary : k.op.unary <;> simp [ih, hc, hunary]

theorem usageFrom_params {n : ℕ} (hn : 0 < n) (cs : List IndexConstraint) :
    ((usageFrom n cs).map (·.argvIndex)).filter (0 < ·) =
      List.range' n ((accepted cs).countP fun k => !k.op.unary) := by
  induction cs generalizing n with
  | nil => rfl
  | cons c cs ih =>
    rw [usageFrom]
    cases hc : c.condition with
    | none => simpa [accepted, hc] using ih hn
    | some k =>
      cases hunary : k.op.unary with
      | true => simpa [accepted, hc, hunary] using ih hn
      | false =>
        have hrest := ih (Nat.succ_pos n)
        simp only [accepted] at hrest
        simp [accepted, hc, hunary, hn, hrest, List.range'_succ]

theorem condition_column {c : IndexConstraint} {k : Condition ℤ} (h : c.condition = some k) :
    k.column = c.iColumn := by
  unfold IndexConstraint.condition at h
  split at h
  case isTrue =>
    rw [Option.map_eq_some_iff] at h
    rcases h with ⟨op, -, rfl⟩
    rfl
  case isFalse => cases h

/-- The query meets the omitted constraints as it compares its own columns. -/
theorem satisfies_usageFrom {Row Value : Type} (cell : Row → ℤ → Value) (m : Meaning Value)
    (null : Value) (r : Row) {n : ℕ} (hn : 0 < n) {cs : List IndexConstraint}
    {values : List Value} (hlen : values.length = cs.length) :
    satisfies cell (fun i => m.sat (queryComparing i)) null r (accepted cs)
        (argvOf (usageFrom n cs) values) =
      meetsOmitted cell m (fun c => queryComparing c.iColumn) r cs (usageFrom n cs) values := by
  induction cs generalizing n values with
  | nil => rfl
  | cons c cs ih =>
    cases values with
    | nil => simp at hlen
    | cons v values =>
      have hlen' : values.length = cs.length := by simpa using hlen
      have hrest := fun (m : ℕ) (hm : 0 < m) => ih hm hlen'
      simp only [accepted, argvOf, meetsOmitted] at hrest
      simp only [accepted, argvOf, meetsOmitted, usageFrom]
      cases hc : c.condition with
      | none => simpa [hc] using hrest n hn
      | some k =>
        cases hunary : k.op.unary with
        | true => simp [hc, hunary, satisfies, meets, condition_column hc, hrest n hn]
        | false =>
          simp [hc, hunary, satisfies, meets, condition_column hc, hn,
            hrest (n + 1) (Nat.succ_pos n)]

/-- Constraints that compare in one way only are met by the same rows. -/
theorem meetsOmitted_congr {Row Value : Type} (cell : Row → ℤ → Value) (m : Meaning Value)
    (r : Row) {how how' : IndexConstraint → Comparing} {cs : List IndexConstraint}
    (h : ∀ c ∈ cs, ∀ k, c.condition = some k → k.op.compares = true → how c = how' c)
    (usage : List ConstraintUsage) (values : List Value) :
    meetsOmitted cell m how r cs usage values = meetsOmitted cell m how' r cs usage values := by
  rw [meetsOmitted, meetsOmitted, Bool.eq_iff_iff, List.all_eq_true, List.all_eq_true]
  refine forall₂_congr fun x hx => ?_
  cases hc : x.1.condition with
  | none => rfl
  | some k =>
    have hmeets : meets cell m (how x.1) r k x.2.2 = meets cell m (how' x.1) r k x.2.2 := by
      rw [meets, meets, Meaning.sat, Meaning.sat]
      by_cases hop : k.op.compares = true
      · rw [h x.1 (List.of_mem_zip hx).1 k hc hop]
      · rw [if_neg hop, if_neg hop]
    rw [Option.all_some, Option.all_some, hmeets]

theorem accepted_columns {cs : List IndexConstraint} {k : Condition ℤ} (hk : k ∈ accepted cs) :
    ∃ c ∈ cs, c.condition.isSome ∧ k.column = c.iColumn := by
  rw [accepted, List.mem_filterMap] at hk
  rcases hk with ⟨c, hc, hcond⟩
  exact ⟨c, hc, Option.isSome_iff_exists.mpr ⟨k, hcond⟩, condition_column hcond⟩

theorem mem_accepted {cs : List IndexConstraint} {c : IndexConstraint} (hc : c ∈ cs)
    (hsome : c.condition.isSome) : ∃ k ∈ accepted cs, k.column = c.iColumn := by
  rcases Option.isSome_iff_exists.mp hsome with ⟨k, hk⟩
  have hmem : k ∈ accepted cs := List.mem_filterMap.mpr ⟨c, hc, hk⟩
  refine ⟨k, hmem, ?_⟩
  have hone : k ∈ accepted [c] := List.mem_filterMap.mpr ⟨c, List.mem_singleton_self c, hk⟩
  rcases accepted_columns hone with ⟨c', hc', -, hcolumn⟩
  rw [hcolumn, List.mem_singleton.mp hc']

theorem columnOf_nonneg {w : Word} {i : ℤ} (h : columnOf w = some i) : 0 ≤ i := by
  rw [columnOf, Option.map_eq_some_iff] at h
  rcases h with ⟨n, -, rfl⟩
  exact Int.natCast_nonneg n

/-- A constraint that compares in two ways has rows and values that tell them apart,
whatever the other constraints are. -/
theorem meetsOmitted_differs {c : IndexConstraint} {cs : List IndexConstraint} (hc : c ∈ cs)
    {k : Condition ℤ} (hk : c.condition = some k) (hop : k.op.compares = true)
    (hne : queryComparing c.iColumn ≠ c.comparing) {usage : List ConstraintUsage}
    (husage : usage.map (·.omitted) = cs.map fun c => c.condition.isSome) :
    ∃ (m : Meaning Bool) (values : List Bool), values.length = cs.length ∧
      meetsOmitted (fun _ _ => true) m IndexConstraint.comparing () cs usage values = true ∧
      meetsOmitted (fun _ _ => true) m (fun c => queryComparing c.iColumn) () cs usage values
        = false := by
  -- the value of a constraint says whether it compares like this one
  let values := cs.map fun d => decide (d.comparing = c.comparing)
  let m : Meaning Bool :=
    ⟨fun how _ _ r => r != some true || decide (how = c.comparing), fun _ _ _ => true⟩
  refine ⟨m, values, List.length_map _, ?_, ?_⟩
  · rw [meetsOmitted, List.all_eq_true]
    rintro ⟨d, u, v⟩ hx
    have hv : v = decide (d.comparing = c.comparing) := by
      rcases List.mem_iff_getElem.mp hx with ⟨i, hi, hget⟩
      simp only [List.getElem_zip, Prod.mk.injEq, values, List.getElem_map] at hget
      rw [← hget.2.2, ← hget.1]
    cases hd : d.condition with
    | none => simp
    | some k' =>
      rw [Option.all_some, meets, Meaning.sat]
      simp only [m, hv]
      cases k'.op.unary <;> by_cases hsame : d.comparing = c.comparing <;> simp [hsame]
  · rcases List.mem_iff_getElem.mp hc with ⟨i, hi, rfl⟩
    have hlength : usage.length = cs.length := by
      simpa using congrArg List.length husage
    have homitted : (usage[i]).omitted = true := by
      have hget := congrArg (fun l => l[i]?) husage
      simpa [hi, hlength, hk] using hget
    have hvalues : i < values.length := by
      rwa [List.length_map]
    rw [meetsOmitted, List.all_eq_false]
    refine ⟨(cs[i], usage[i], values[i]), ?_, ?_⟩
    · exact List.mem_iff_getElem.mpr ⟨i, by simp [hi, hlength, values], by simp⟩
    · simp [homitted, hk, meets, Meaning.sat, hop, SqlOp.not_unary_of_compares hop, m, values, hne]

/-- What the filter is given selects the rows that meet the omitted constraints. -/
theorem WellPosed.rows {tables : List String} {cs : List IndexConstraint} {os : List IndexOrderBy}
    (h : WellPosed tables cs os) {Row Value : Type} (cell : Row → ℤ → Value) (m : Meaning Value)
    (null : Value) (feed : List Row) {values : List Value} (hlen : values.length = cs.length)
    {text : List Char} (htext : parseClause columnOf text = some ⟨accepted cs, orderOf os⟩) :
    buildChangesSql cell m null tables feed text (argvOf (usageFrom 1 cs) values) =
      some (feed.filter fun r =>
        meetsOmitted cell m IndexConstraint.comparing r cs (usageFrom 1 cs) values) := by
  rw [buildChangesSql, if_pos h.table, htext, Option.map_some]
  congr 1
  apply List.filter_congr
  intro r _
  rw [satisfies_usageFrom cell m null r Nat.one_pos hlen]
  apply meetsOmitted_congr
  intro c hc k hk hop
  rcases h.comparing c hc k hk hop with ⟨haffinity, hbinary⟩
  rw [queryComparing, IndexConstraint.comparing, haffinity, hbinary]

theorem WellPosed.text {tables : List String} {cs : List IndexConstraint} {os : List IndexOrderBy}
    (h : WellPosed tables cs os) :
    (printedWhere cs ++ orderText os).length < reserved cs os ∧
      (cloudsyncChangesvtabBestIndex cs os).idxStr.text = whereText (accepted cs) ++ orderText os ∧
      parseClause columnOf (cloudsyncChangesvtabBestIndex cs os).idxStr.text =
        some ⟨accepted cs, orderOf os⟩ := by
  have hcolumns : ∀ k ∈ accepted cs, 0 < k.column ∧ k.column ≤ 8 := by
    intro k hk
    rcases accepted_columns hk with ⟨c, hc, hsome, hcolumn⟩
    rw [hcolumn]
    exact ⟨h.columns c hc hsome, c.upper⟩
  have heq : printedWhere cs = whereText (accepted cs) := by
    rw [printedWhere_eq_iff]
    refine ⟨h.first, fun k hk => ?_⟩
    have hpos := (hcolumns k hk).1
    omega
  have hlt : (printedWhere cs ++ orderText os).length < reserved cs os := by
    rw [heq, ← neededBytes_eq]
    exact h.fits
  have htext := (bestIndex_holds cs os).text_eq hlt
  rw [heq] at htext
  refine ⟨hlt, htext, ?_⟩
  rw [htext]
  exact parse_expected (fun k hk => ⟨Int.le_of_lt (hcolumns k hk).1, (hcolumns k hk).2⟩) os

theorem WellPosed.bestIndex_rows {tables : List String} {cs : List IndexConstraint}
    {os : List IndexOrderBy} (h : WellPosed tables cs os) {Row Value : Type}
    (cell : Row → ℤ → Value) (m : Meaning Value) (null : Value) (feed : List Row)
    {values : List Value} (hlen : values.length = cs.length) :
    buildChangesSql cell m null tables feed (cloudsyncChangesvtabBestIndex cs os).idxStr.text
        (argvOf (cloudsyncChangesvtabBestIndex cs os).aConstraintUsage values) =
      some (feed.filter fun r => meetsOmitted cell m IndexConstraint.comparing r cs
        (cloudsyncChangesvtabBestIndex cs os).aConstraintUsage values) := by
  rw [bestIndex_usage]
  exact h.rows cell m null feed hlen h.text.2.2

/-- `cl = '1'`: the query compares COALESCE with a text, the declared column with a number. -/
example : ¬ WellPosed ["items_cloudsync"] [⟨7, 2, true, true, by decide, by decide⟩] [] :=
  fun h => absurd (h.comparing _ List.mem_cons_self _ rfl rfl).1 (by decide)

end SqliteSync.Vtab
