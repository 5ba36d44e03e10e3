import SqliteSync.Library.Quote
import SqliteSync.Config.SiteIdentity

/-!
# The triggers and the metadata table of a synchronised table

`cloudsync_init` creates them one after the other with statements it generates
from the name of the table, stops at the first that fails, and does not look at
the result.
-/
namespace SqliteSync.Config
open Library Store

/-- A trigger of the schema. -/
structure TriggerRow where
  name : String
  sql : String

/-- What the schema holds: the triggers, and whether the table has its metadata table. -/
structure Objects where
  triggers : List TriggerRow
  metatable : Bool

def Objects.find (o : Objects) (name : String) : Option TriggerRow :=
  o.triggers.find? fun t => lowered t.name == lowered name

/-- `dbutils_trigger_exists`, when the lookup succeeds. -/
def Objects.has (o : Objects) (name : String) : Bool := (o.find name).isSome

/-- The queries for the lists of columns in the calls of the triggers. -/
inductive ListQuery where
  | newPks
  | oldPks
  | updatePks
  | columns
deriving DecidableEq

/-- What the queries return, `none` for NULL. -/
abbrev Lists := ListQuery → Option String

/-- The names of the key columns and of the others. Both are in the order of
`pragma_table_info`: the ORDER BY stands outside `group_concat`. -/
structure Columns where
  pks : List String
  others : List String

/-- `group_concat` with a comma, NULL without a row. -/
def groupConcat : List String → Option String
  | [] => none
  | first :: rest => some (rest.foldl (fun acc item => acc ++ "," ++ item) first)

/-- A column of the row a trigger sees as `NEW` or as `OLD`. -/
def columnOf (row name : String) : String := row ++ ".\"" ++ formatW name ++ "\""

def Columns.lists (cols : Columns) : Lists
  | .newPks => groupConcat (cols.pks.map (columnOf "NEW"))
  | .oldPks => groupConcat (cols.pks.map (columnOf "OLD"))
  | .updatePks => (groupConcat (cols.pks.map (columnOf "NEW"))).bind fun new =>
      (groupConcat (cols.pks.map (columnOf "OLD"))).map fun old => new ++ "," ++ old
  | .columns => groupConcat (cols.others.map fun name =>
      columnOf "NEW" name ++ ", " ++ columnOf "OLD" name)

/-- How SQLite answers: whether a statement of the schema can be executed, and
whether the lookup of a trigger and each query for a list succeed. An allocation
that fails ends the function as the statement after it would. -/
structure Answers where
  exec : String → Bool
  lookup : String → Bool
  list : ListQuery → Bool

/-- The lists as the function gets them: `dbutils_text_select` returns NULL for a
query that fails too. -/
def Answers.read (ans : Answers) (cols : Columns) : Lists := fun q =>
  if ans.list q then cols.lists q else none

/-- A trigger of an algorithm, whose text has some of the lists in it. -/
structure Trigger where
  name : String
  reads : List ListQuery
  sql : Lists → String

section
variable (ans : Answers) (cols : Columns) (table : String)

def triggerWhen : String := "FOR EACH ROW WHEN cloudsync_is_sync('" ++ formatQ table ++ "') = 0"

/-- A trigger that records a change of a row after it was made. -/
def recordTrigger (op event : String) (reads : List ListQuery) (call : Lists → String) :
    Trigger where
  name := "cloudsync_after_" ++ op ++ "_" ++ table
  reads := reads
  sql lists := "CREATE TRIGGER \"" ++ formatW ("cloudsync_after_" ++ op ++ "_" ++ table) ++ "\" AFTER " ++
    event ++ " ON \"" ++ formatW table ++ "\" " ++ triggerWhen table ++ " BEGIN SELECT " ++
    call lists ++ "; END"

/-- A trigger that refuses a change. The message takes the name as `%w` writes
it, between single quotes. -/
def prohibitTrigger (op event : String) : Trigger where
  name := "cloudsync_before_" ++ op ++ "_" ++ table
  reads := []
  sql _ := "CREATE TRIGGER \"" ++ formatW ("cloudsync_before_" ++ op ++ "_" ++ table) ++
    "\" BEFORE " ++ event ++ " ON \"" ++ formatW table ++
    "\" FOR EACH ROW WHEN cloudsync_is_enabled('" ++ formatQ table ++
    "') = 1 BEGIN SELECT RAISE(ABORT, 'Error: " ++ event ++
    " operation is not allowed on table " ++ formatW table ++ ".'); END"

def insertTrigger : Trigger :=
  recordTrigger table "insert" "INSERT" [.newPks] fun lists =>
    "cloudsync_insert('" ++ formatQ table ++ "', " ++ (lists .newPks).getD "NEW.rowid" ++ ")"

def updateTrigger : Trigger :=
  recordTrigger table "update" "UPDATE" [.updatePks, .columns] fun lists =>
    "cloudsync_update('" ++ formatQ table ++ "'," ++
      (lists .updatePks).getD "NEW.rowid,OLD.rowid" ++
      (match lists .columns with
        | none => ""
        | some colvalues => "," ++ colvalues) ++ ")"

def deleteTrigger : Trigger :=
  recordTrigger table "delete" "DELETE" [.oldPks] fun lists =>
    "cloudsync_delete('" ++ formatQ table ++ "'," ++ (lists .oldPks).getD "OLD.rowid" ++ ")"

/-- The triggers of an algorithm, in the order of `dbutils_check_triggers`. -/
def triggers (algo : TableAlgo) : List Trigger :=
  if algo = .crdtGos then
    [insertTrigger table, prohibitTrigger table "update" "UPDATE",
      prohibitTrigger table "delete" "DELETE"]
  else [insertTrigger table, updateTrigger table, deleteTrigger table]

/-- One trigger of `dbutils_check_triggers`, with whether the function goes on. A
trigger that is there and was not found cannot be created. -/
def checkTrigger (o : Objects) (t : Trigger) : Bool × Objects :=
  if o.has t.name then (ans.lookup t.name, o)
  else if ans.exec (t.sql (ans.read cols)) then
    (true, { o with triggers := o.triggers ++ [⟨t.name, t.sql (ans.read cols)⟩] })
  else (false, o)

/-- `goto finalize` after the first failure. -/
def checkEach : List Trigger → Objects → Objects
  | [], o => o
  | t :: ts, o =>
    match checkTrigger ans cols o t with
    | (true, o) => checkEach ts o
    | (false, o) => o

def dbutilsCheckTriggers (algo : TableAlgo) (o : Objects) : Objects :=
  checkEach ans cols (triggers table algo) o

/-- The first statement of `dbutils_check_metatable`; the second creates an index. -/
def metatableSql : String :=
  "CREATE TABLE IF NOT EXISTS \"" ++ formatW table ++ "_cloudsync\" (pk BLOB NOT NULL, " ++
    "col_name TEXT NOT NULL, col_version INTEGER, db_version INTEGER, site_id INTEGER DEFAULT 0, " ++
    "seq INTEGER, PRIMARY KEY (pk, col_name)) WITHOUT ROWID;"

def dbutilsCheckMetatable (o : Objects) : Objects :=
  { o with metatable := o.metatable || ans.exec (metatableSql table) }

variable {ι : Type} [DecidableEq ι] (hash : String → UInt64)

/-- `cloudsync_init` with the objects it creates. Neither of the two functions has
its result checked; without the metadata table the statements prepared on it
afterwards fail. An error rolls everything back. -/
def cloudsyncInitObjects (s : Session ι) (o : Objects) (inp : InitInput ι) (sp : SavepointInput) :
    Outcome (Session ι × Objects) :=
  let created := dbutilsCheckMetatable ans table (dbutilsCheckTriggers ans cols table inp.algo o)
  match s.cloudsyncInit hash (.one { inp with
    addable := inp.addable && created.metatable
    refill := inp.refill && created.metatable }) sp with
  | (.ok (), t) => (.ok (), (t, created))
  | (.error err, t) => (.error err, (t, o))

end

/-- A trigger is there with the text it has when every query is answered; the case
of the name of the table makes no difference to it. -/
def Objects.Holds (o : Objects) (cols : Columns) (t : Trigger) : Prop :=
  ∃ u, o.find t.name = some u ∧ lowered u.sql = lowered (t.sql cols.lists)

/-- Everything the algorithm needs is there: local writes are recorded or refused. -/
structure Installed (cols : Columns) (table : String) (algo : TableAlgo) (o : Objects) : Prop where
  metatable : o.metatable = true
  triggers : ∀ t ∈ triggers table algo, o.Holds cols t

/-- The queries for the lists in the text of a trigger are answered, but for those
that would find no column. -/
def Trigger.Answered (ans : Answers) (cols : Columns) (t : Trigger) : Prop :=
  ∀ q ∈ t.reads, ans.list q = true ∨ cols.lists q = none

/-- A trigger is missing and can be created, with its lists. -/
@[mk_iff] structure Creates (ans : Answers) (cols : Columns) (o : Objects) (t : Trigger) : Prop where
  missing : o.has t.name = false
  exec : ans.exec (t.sql (ans.read cols)) = true
  answered : t.Answered ans cols

/-- The step for a trigger does not end `dbutils_check_triggers`. -/
def GoesOn (ans : Answers) (cols : Columns) (o : Objects) (t : Trigger) : Prop :=
  if o.has t.name then ans.lookup t.name = true else ans.exec (t.sql (ans.read cols)) = true

/-- Each trigger is there before, or it can be created and no step before it fails. -/
def Reaches (ans : Answers) (cols : Columns) (o : Objects) (l : List Trigger) : Prop :=
  ∀ before t after, l = before ++ t :: after →
    o.Holds cols t ∨ Creates ans cols o t ∧ ∀ u ∈ before, GoesOn ans cols o u

/-! ## The texts -/

theorem lowered_append (a b : String) : lowered (a ++ b) = lowered a ++ lowered b := by
  simp [lowered]

/-- What stands around a part of a text does not matter. -/
theorem lowered_around (a b x y : String) :
    lowered (a ++ x ++ b) = lowered (a ++ y ++ b) ↔ lowered x = lowered y := by
  simp only [lowered_append, List.append_cancel_left_eq, List.append_cancel_right_eq]

theorem foldl_append_eq (sep : String) (rest : List String) (first : String) :
    ∃ more, rest.foldl (fun acc item => acc ++ sep ++ item) first = first ++ more := by
  induction rest generalizing first with
  | nil => exact ⟨"", String.append_empty.symm⟩
  | cons item rest ih =>
    rcases ih (first ++ sep ++ item) with ⟨more, hmore⟩
    exact ⟨sep ++ item ++ more, by rw [List.foldl_cons, hmore]; simp only [String.append_assoc]⟩

theorem groupConcat_columnOf {row : String} {names : List String} {list : String}
    (h : groupConcat (names.map (columnOf row)) = some list) :
    ∃ more, list = row ++ ".\"" ++ more := by
  cases names with
  | nil => cases h
  | cons name names =>
    rcases foldl_append_eq "," (names.map (columnOf row)) (columnOf row name) with ⟨more, hmore⟩
    refine ⟨formatW name ++ "\"" ++ more, ?_⟩
    rw [← Option.some_inj.mp h, hmore, columnOf]
    simp only [String.append_assoc]

/-- The fifth letter of a list is the quote, that of the text written for a missing
list is not. -/
theorem lowered_ne_of_quote {row fallback more : String} (hrow : (lowered row).length = 3)
    (hfallback : (lowered fallback)[4]? = some 'r') (x y : List Char) :
    lowered fallback ++ x ≠ lowered (row ++ ".\"" ++ more) ++ y := by
  intro h
  have hfifth := congrArg (fun l => l[4]?) h
  simp only [lowered_append, List.append_assoc] at hfifth
  have hlength : 4 < (lowered fallback).length := by
    by_contra hle
    rw [List.getElem?_eq_none (not_lt.mp hle)] at hfallback
    cases hfallback
  rw [List.getElem?_append_left hlength, hfallback,
    List.getElem?_append_right (by omega), hrow] at hfifth
  have hquote : (lowered ".\"" ++ (lowered more ++ y))[4 - 3]? = some identifierQuote := rfl
  rw [hquote] at hfifth
  exact absurd (Option.some_inj.mp hfifth) (by decide)

section
variable {ans : Answers} {cols : Columns} {table : String}

theorem read_getD_iff {q : ListQuery} {fallback : String}
    (h : ∀ list, cols.lists q = some list →
      ∀ x y, lowered fallback ++ x ≠ lowered list ++ y) :
    lowered ((ans.read cols q).getD fallback) = lowered ((cols.lists q).getD fallback) ↔
      ans.list q = true ∨ cols.lists q = none := by
  rw [Answers.read]
  cases hanswer : ans.list q with
  | true => simp
  | false =>
    cases hlist : cols.lists q with
    | none => simp
    | some list =>
      have hne : lowered fallback ≠ lowered list := by
        simpa only [List.append_nil] using h list hlist [] []
      simp [hne]

theorem newPks_ne {list : String} (h : cols.lists .newPks = some list) (x y : List Char) :
    lowered "NEW.rowid" ++ x ≠ lowered list ++ y := by
  rcases groupConcat_columnOf h with ⟨more, rfl⟩
  exact lowered_ne_of_quote (by decide) (by decide) x y

theorem oldPks_ne {list : String} (h : cols.lists .oldPks = some list) (x y : List Char) :
    lowered "OLD.rowid" ++ x ≠ lowered list ++ y := by
  rcases groupConcat_columnOf h with ⟨more, rfl⟩
  exact lowered_ne_of_quote (by decide) (by decide) x y

theorem updatePks_ne {list : String} (h : cols.lists .updatePks = some list) (x y : List Char) :
    lowered "NEW.rowid,OLD.rowid" ++ x ≠ lowered list ++ y := by
  rw [Columns.lists, Option.bind_eq_some_iff] at h
  rcases h with ⟨new, hnew, hold⟩
  rcases Option.map_eq_some_iff.mp hold with ⟨old, -, rfl⟩
  rcases groupConcat_columnOf hnew with ⟨more, rfl⟩
  have hsplit : "NEW" ++ ".\"" ++ more ++ "," ++ old = "NEW" ++ ".\"" ++ (more ++ "," ++ old) := by
    simp only [String.append_assoc]
  rw [hsplit]
  exact lowered_ne_of_quote (by decide) (by decide) x y

theorem recordTrigger_text_iff (op event : String) (reads : List ListQuery) (call : Lists → String)
    (l l' : Lists) : lowered ((recordTrigger table op event reads call).sql l) =
      lowered ((recordTrigger table op event reads call).sql l') ↔
        lowered (call l) = lowered (call l') :=
  lowered_around _ _ _ _

theorem recordTrigger_answered (op event : String) (reads : List ListQuery)
    (call : Lists → String) : (recordTrigger table op event reads call).Answered ans cols ↔
      ∀ q ∈ reads, ans.list q = true ∨ cols.lists q = none := Iff.rfl

theorem insertTrigger_text_iff :
    lowered ((insertTrigger table).sql (ans.read cols)) =
        lowered ((insertTrigger table).sql cols.lists) ↔
      (insertTrigger table).Answered ans cols := by
  rw [insertTrigger, recordTrigger_text_iff, lowered_around,
    recordTrigger_answered, List.forall_mem_singleton]
  exact read_getD_iff fun list hlist => newPks_ne hlist

theorem deleteTrigger_text_iff :
    lowered ((deleteTrigger table).sql (ans.read cols)) =
        lowered ((deleteTrigger table).sql cols.lists) ↔
      (deleteTrigger table).Answered ans cols := by
  rw [deleteTrigger, recordTrigger_text_iff, lowered_around,
    recordTrigger_answered, List.forall_mem_singleton]
  exact read_getD_iff fun list hlist => oldPks_ne hlist

/-- Where the keys are read the text after them decides, and where they are not the
texts differ in them. -/
theorem updateTrigger_text_iff :
    lowered ((updateTrigger table).sql (ans.read cols)) =
        lowered ((updateTrigger table).sql cols.lists) ↔
      (updateTrigger table).Answered ans cols := by
  rw [updateTrigger, recordTrigger_text_iff, recordTrigger_answered, List.forall_mem_cons,
    List.forall_mem_singleton]
  simp only [lowered_append, List.append_assoc, List.append_cancel_left_eq]
  by_cases hpks : ans.list .updatePks = true ∨ cols.lists .updatePks = none
  · have hread : ans.read cols .updatePks = cols.lists .updatePks := by
      rw [Answers.read]
      rcases hpks with hlist | hnone
      · rw [if_pos hlist]
      · rw [hnone, ite_self]
    rw [and_iff_right hpks, hread, List.append_cancel_left_eq, List.append_cancel_right_eq,
      Answers.read]
    cases hanswer : ans.list .columns with
    | true => simp
    | false => cases cols.lists .columns <;> simp [lowered]
  · rw [not_or] at hpks
    rcases Option.ne_none_iff_exists'.mp hpks.2 with ⟨list, hlist⟩
    have hread : ans.read cols .updatePks = none := by
      rw [Answers.read, if_neg hpks.1]
    refine iff_of_false ?_ fun h => h.1.elim hpks.1 hpks.2
    rw [hread, hlist]
    exact updatePks_ne hlist _ _

/-- The text of a trigger is as it should be exactly when its lists were read. -/
theorem triggers_text_iff {algo : TableAlgo} {t : Trigger} (h : t ∈ triggers table algo) :
    lowered (t.sql (ans.read cols)) = lowered (t.sql cols.lists) ↔ t.Answered ans cols := by
  have hprohibit (op event : String) :
      lowered ((prohibitTrigger table op event).sql (ans.read cols)) =
          lowered ((prohibitTrigger table op event).sql cols.lists) ↔
        (prohibitTrigger table op event).Answered ans cols :=
    iff_of_true rfl fun q hq => by cases hq
  rw [triggers] at h
  split_ifs at h
  · simp only [List.mem_cons, List.not_mem_nil, or_false] at h
    rcases h with rfl | rfl | rfl
    · exact insertTrigger_text_iff
    · exact hprohibit "update" "UPDATE"
    · exact hprohibit "delete" "DELETE"
  · simp only [List.mem_cons, List.not_mem_nil, or_false] at h
    rcases h with rfl | rfl | rfl
    · exact insertTrigger_text_iff
    · exact updateTrigger_text_iff
    · exact deleteTrigger_text_iff

/-! ## The steps -/

theorem find_append (o : Objects) (u : TriggerRow) (name : String) :
    Objects.find { o with triggers := o.triggers ++ [u] } name =
      (o.find name).or (if lowered u.name = lowered name then some u else none) := by
  simp [Objects.find, List.find?_append, List.find?_singleton]

theorem checkTrigger_fst (o : Objects) (t : Trigger) :
    (checkTrigger ans cols o t).1 = true ↔ GoesOn ans cols o t := by
  rw [checkTrigger, GoesOn]
  by_cases hhas : o.has t.name
  · rw [if_pos hhas, if_pos hhas]
  · rw [if_neg hhas, if_neg hhas]
    by_cases hexec : ans.exec (t.sql (ans.read cols)) <;> simp [hexec]

theorem checkTrigger_holds_self (o : Objects) {t : Trigger}
    (htext : lowered (t.sql (ans.read cols)) = lowered (t.sql cols.lists) ↔ t.Answered ans cols) :
    (checkTrigger ans cols o t).2.Holds cols t ↔ o.Holds cols t ∨ Creates ans cols o t := by
  have hmissing {p : Objects} (hp : p.has t.name = false) : ¬ p.Holds cols t := by
    rintro ⟨u, hu, -⟩
    rw [Objects.has, hu] at hp
    cases hp
  rw [checkTrigger]
  cases hhas : o.has t.name with
  | true =>
    rw [if_pos rfl]
    refine ⟨.inl, fun h => h.resolve_right fun hcreates => ?_⟩
    rw [hcreates.missing] at hhas
    cases hhas
  | false =>
    rw [if_neg Bool.false_ne_true, or_iff_right (hmissing hhas)]
    by_cases hexec : ans.exec (t.sql (ans.read cols))
    · rw [if_pos hexec]
      have hfind : Objects.find { o with triggers := o.triggers ++
          [⟨t.name, t.sql (ans.read cols)⟩] } t.name = some ⟨t.name, t.sql (ans.read cols)⟩ := by
        have hnone : o.find t.name = none := by
          rwa [Objects.has, Option.isSome_eq_false_iff, Option.isNone_iff_eq_none] at hhas
        rw [find_append, hnone, if_pos rfl, Option.none_or]
      rw [Objects.Holds, hfind]
      constructor
      · rintro ⟨u, ⟨⟩, hsame⟩
        exact ⟨hhas, hexec, htext.mp hsame⟩
      · intro h
        exact ⟨_, rfl, htext.mpr h.answered⟩
    · rw [if_neg hexec]
      exact iff_of_false (hmissing hhas) fun h => hexec h.exec

theorem checkTrigger_find_of_ne (o : Objects) {t : Trigger} {name : String}
    (h : lowered t.name ≠ lowered name) : (checkTrigger ans cols o t).2.find name = o.find name := by
  rw [checkTrigger]
  split_ifs
  · rfl
  · rw [find_append, if_neg h, Option.or_none]
  · rfl

theorem checkEach_find_of_ne {l : List Trigger} {name : String}
    (h : ∀ t ∈ l, lowered t.name ≠ lowered name) (o : Objects) :
    (checkEach ans cols l o).find name = o.find name := by
  induction l generalizing o with
  | nil => rfl
  | cons t ts ih =>
    rw [List.forall_mem_cons] at h
    have hstep : (checkTrigger ans cols o t).2.find name = o.find name :=
      checkTrigger_find_of_ne o h.1
    rw [checkEach]
    generalize checkTrigger ans cols o t = x at hstep
    rcases x with ⟨_ | _, o'⟩
    · exact hstep
    · exact (ih h.2 o').trans hstep

theorem reaches_cons {o : Objects} {t : Trigger} {ts : List Trigger} :
    Reaches ans cols o (t :: ts) ↔ (o.Holds cols t ∨ Creates ans cols o t) ∧
      (GoesOn ans cols o t ∧ Reaches ans cols o ts ∨ ∀ u ∈ ts, o.Holds cols u) := by
  constructor
  · intro h
    refine ⟨(h [] t ts rfl).imp_right fun h => h.1, ?_⟩
    by_cases hgo : GoesOn ans cols o t
    · left
      refine ⟨hgo, ?_⟩
      intro before u after hsplit
      refine (h (t :: before) u after (by rw [hsplit]; rfl)).imp_right ?_
      rintro ⟨hcreates, hbefore⟩
      exact ⟨hcreates, fun x hx => hbefore x (.tail t hx)⟩
    · right
      intro u hu
      rcases List.append_of_mem hu with ⟨before, after, hsplit⟩
      refine (h (t :: before) u after (by rw [hsplit]; rfl)).resolve_right ?_
      rintro ⟨-, hbefore⟩
      exact hgo (hbefore t List.mem_cons_self)
  · rintro ⟨hself, hrest⟩ before u after hsplit
    cases before with
    | nil =>
      cases hsplit
      exact hself.imp_right fun hcreates => ⟨hcreates, fun x hx => by cases hx⟩
    | cons x before =>
      cases hsplit
      rcases hrest with ⟨hgo, hreach⟩ | hall
      · refine (hreach before u after rfl).imp_right ?_
        rintro ⟨hcreates, hbefore⟩
        refine ⟨hcreates, fun y hy => ?_⟩
        rcases List.mem_cons.mp hy with rfl | hy
        · exact hgo
        · exact hbefore y hy
      · exact .inl (hall u (by simp))

/-- What a step did to a trigger of another name is not seen by the rest. -/
theorem reaches_congr {o o' : Objects} {l : List Trigger}
    (h : ∀ t ∈ l, o'.find t.name = o.find t.name) :
    Reaches ans cols o' l ↔ Reaches ans cols o l := by
  have hhas : ∀ t ∈ l, o'.has t.name = o.has t.name := by
    intro t ht
    rw [Objects.has, Objects.has, h t ht]
  have hgo : ∀ t ∈ l, (GoesOn ans cols o' t ↔ GoesOn ans cols o t) := by
    intro t ht
    rw [GoesOn, GoesOn, hhas t ht]
  have hcreates : ∀ t ∈ l, (Creates ans cols o' t ↔ Creates ans cols o t) := by
    intro t ht
    rw [creates_iff, creates_iff, hhas t ht]
  apply forall_congr'
  intro before
  apply forall_congr'
  intro t
  apply forall_congr'
  intro after
  apply imp_congr_right
  rintro rfl
  rw [Objects.Holds, Objects.Holds, h t (by simp), hcreates t (by simp)]
  apply or_congr_right
  apply and_congr_right
  intro _
  apply forall_congr'
  intro u
  apply imp_congr_right
  intro hu
  exact hgo u (List.mem_append_left _ hu)

theorem reaches_of_forall_holds {o : Objects} {l : List Trigger}
    (h : ∀ t ∈ l, o.Holds cols t) : Reaches ans cols o l := by
  rintro before t after rfl
  exact .inl (h t (by simp))

/-- After `dbutils_check_triggers` every trigger is there exactly when each can be reached. -/
theorem checkEach_holds_iff {l : List Trigger}
    (hnames : l.Pairwise fun t u => lowered t.name ≠ lowered u.name)
    (htext : ∀ t ∈ l, lowered (t.sql (ans.read cols)) = lowered (t.sql cols.lists) ↔
      t.Answered ans cols) (o : Objects) :
    (∀ t ∈ l, (checkEach ans cols l o).Holds cols t) ↔ Reaches ans cols o l := by
  induction l generalizing o with
  | nil => exact iff_of_true (by simp) (fun before t after h => by simp at h)
  | cons t ts ih =>
    rw [List.pairwise_cons] at hnames
    rw [List.forall_mem_cons] at htext
    rw [reaches_cons, checkEach]
    have hself := checkTrigger_holds_self o htext.1
    have hother : ∀ u ∈ ts, (checkTrigger ans cols o t).2.find u.name = o.find u.name :=
      fun u hu => checkTrigger_find_of_ne o (hnames.1 u hu)
    have hgo : (checkTrigger ans cols o t).1 = true ↔ GoesOn ans cols o t := checkTrigger_fst o t
    generalize checkTrigger ans cols o t = x at hself hother hgo
    rcases x with ⟨_ | _, o'⟩
    · have hstop : ¬ GoesOn ans cols o t := by simpa using hgo
      rw [List.forall_mem_cons, hself]
      simp only [hstop, false_and, false_or]
      refine and_congr_right' (forall₂_congr fun u hu => ?_)
      rw [Objects.Holds, Objects.Holds, hother u hu]
    · have hgoes : GoesOn ans cols o t := by simpa using hgo
      rw [List.forall_mem_cons, ih hnames.2 htext.2, reaches_congr hother, and_iff_right hgoes,
        or_iff_left_of_imp reaches_of_forall_holds]
      -- the trigger of this step stays as the step has left it
      rw [Objects.Holds, checkEach_find_of_ne fun u hu => (hnames.1 u hu).symm, ← Objects.Holds,
        hself]

theorem triggers_differ (table : String) (algo : TableAlgo) :
    (triggers table algo).Pairwise fun t u => lowered t.name ≠ lowered u.name := by
  have hdiffer (a b : String) (h : lowered a ≠ lowered b) :
      lowered (a ++ table) ≠ lowered (b ++ table) := by
    rw [lowered_append, lowered_append]
    exact fun he => h (List.append_cancel_right he)
  have hthree (t u v : Trigger) (htu : lowered t.name ≠ lowered u.name)
      (htv : lowered t.name ≠ lowered v.name) (huv : lowered u.name ≠ lowered v.name) :
      [t, u, v].Pairwise fun t u => lowered t.name ≠ lowered u.name := by
    simp [htu, htv, huv]
  rw [triggers]
  split_ifs
  · exact hthree _ _ _ (hdiffer _ _ (by decide)) (hdiffer _ _ (by decide)) (hdiffer _ _ (by decide))
  · exact hthree _ _ _ (hdiffer _ _ (by decide)) (hdiffer _ _ (by decide)) (hdiffer _ _ (by decide))

theorem Session.cloudsyncInit_refill {ι : Type} [DecidableEq ι] (hash : String → UInt64)
    (s : Session ι) (inp : InitInput ι) (sp : SavepointInput) (h : inp.refill = false) :
    (s.cloudsyncInit hash (.one inp) sp).1 ≠ .ok () := by
  have hinternal : (s.cloudsyncInitInternal inp).1 ≠ .ok () := by
    rw [Session.cloudsyncInitInternal, h]
    rcases inp.sanity with err | ⟨⟩
    · exact fun he => by cases he
    · simp only [ne_eq, Outcome.andThen_fst_ok, not_and]
      rintro - - he
      cases hstmts : inp.stmts with
      | false =>
        rw [hstmts] at he
        cases he
      | true =>
        rw [hstmts, if_pos rfl, Outcome.andThen_fst_ok] at he
        cases he.2
  rw [Session.cloudsyncInit, Session.initTarget]
  by_cases hopened : sp.opened = false
  · rw [if_pos hopened]
    exact fun he => by cases he
  rw [if_neg hopened]
  generalize s.cloudsyncInitInternal inp = x at hinternal
  rcases x with ⟨err | ⟨⟩, t⟩
  · exact fun he => by cases he
  · exact absurd rfl hinternal

/-- What a call that reports no error leaves behind. -/
theorem cloudsyncInitObjects_ok {ι : Type} [DecidableEq ι] {hash : String → UInt64}
    {s : Session ι} {o : Objects} {inp : InitInput ι} {sp : SavepointInput}
    (h : (cloudsyncInitObjects ans cols table hash s o inp sp).1 = .ok ()) :
    (cloudsyncInitObjects ans cols table hash s o inp sp).2.2 =
        dbutilsCheckMetatable ans table (dbutilsCheckTriggers ans cols table inp.algo o) ∧
      (dbutilsCheckMetatable ans table (dbutilsCheckTriggers ans cols table inp.algo o)).metatable
        = true := by
  rw [cloudsyncInitObjects] at h ⊢
  generalize dbutilsCheckMetatable ans table (dbutilsCheckTriggers ans cols table inp.algo o) = created
    at h ⊢
  by_cases hmeta : created.metatable = true
  · refine ⟨?_, hmeta⟩
    generalize s.cloudsyncInit hash _ sp = x at h ⊢
    rcases x with ⟨err | ⟨⟩, t⟩
    · cases h
    · rfl
  · have hrefill := s.cloudsyncInit_refill hash
      { inp with addable := inp.addable && created.metatable,
                 refill := inp.refill && created.metatable } sp (by simp [hmeta])
    generalize s.cloudsyncInit hash _ sp = x at h hrefill
    rcases x with ⟨err | ⟨⟩, t⟩
    · cases h
    · exact absurd rfl hrefill

theorem installed_created_iff (o : Objects) (algo : TableAlgo) :
    Installed cols table algo
        (dbutilsCheckMetatable ans table (dbutilsCheckTriggers ans cols table algo o)) ↔
      (dbutilsCheckMetatable ans table (dbutilsCheckTriggers ans cols table algo o)).metatable = true ∧
        Reaches ans cols o (triggers table algo) := by
  rw [← checkEach_holds_iff (triggers_differ table algo) fun _ => triggers_text_iff]
  exact ⟨fun hinst => ⟨hinst.metatable, hinst.triggers⟩, fun h => ⟨h.1, h.2⟩⟩

/-- A call that reports no error has installed everything exactly when each
trigger was there, or could be created with its lists and no step before it failing. -/
theorem cloudsyncInit_installs_iff {ι : Type} [DecidableEq ι] {hash : String → UInt64}
    {s : Session ι} {o : Objects} {inp : InitInput ι} {sp : SavepointInput}
    (h : (cloudsyncInitObjects ans cols table hash s o inp sp).1 = .ok ()) :
    Installed cols table inp.algo (cloudsyncInitObjects ans cols table hash s o inp sp).2.2 ↔
      Reaches ans cols o (triggers table inp.algo) := by
  rcases cloudsyncInitObjects_ok h with ⟨hcreated, hmeta⟩
  rw [hcreated, installed_created_iff, and_iff_right hmeta]

/-- A statement that writes a name into two identifiers, a literal, and then as
`%w` into another literal. -/
theorem closesQuotes_of_pieces {create before on when raise message close event : String}
    (name : String) (hcreate : Scan.plain.run create.toList = .identifier)
    (hbefore : Scan.identifier.run before.toList = .plain)
    (hl : literalQuote ∉ event.toList) (hi : identifierQuote ∉ event.toList)
    (hon : Scan.plain.run on.toList = .identifier)
    (hwhen : Scan.identifier.run when.toList = .literal)
    (hraise : Scan.literal.run raise.toList = .literal)
    (hmessage : Scan.literal.run message.toList = .literal)
    (hclose : Scan.literal.run close.toList = .plain)
    (hopen : Scan.plain.run close.toList = .literal) :
    closesQuotes (create ++ formatW name ++ before ++ event ++ on ++ formatW table ++ when ++
        formatQ table ++ raise ++ event ++ message ++ formatW table ++ close) = true ↔
      Even (table.toList.count literalQuote) := by
  rw [closesQuotes, beq_iff_eq]
  simp only [String.toList_append, Scan.run_append, formatW, formatQ, String.toList_ofList, hcreate,
    hbefore, hon, hwhen, hraise, hmessage, Scan.run_plain_of_notMem hl hi,
    Scan.run_literal_of_notMem hl, Scan.run_identifier_doubled, Scan.run_literal_doubled,
    (Scan.run_doubled_identifierQuote _).1]
  by_cases heven : Even (table.toList.count literalQuote)
  · simp [heven, hclose]
  · simp [heven, hopen]

/-- The message of a prohibition closes its quotes when the single quotes of the
name come in pairs. -/
theorem prohibitTrigger_closes (op event : String) (hl : literalQuote ∉ event.toList)
    (hi : identifierQuote ∉ event.toList) :
    closesQuotes ((prohibitTrigger table op event).sql cols.lists) = true ↔
      Even (table.toList.count literalQuote) :=
  closesQuotes_of_pieces ("cloudsync_before_" ++ op ++ "_" ++ table) (by decide +kernel)
    (by decide +kernel) hl hi (by decide +kernel) (by decide +kernel) (by decide +kernel)
    (by decide +kernel) (by decide +kernel) (by decide +kernel)

/-- A tokenizer leaves a grow-only set without its prohibitions when the name
has an odd number of single quotes. -/
theorem not_reaches_of_odd {o : Objects}
    (htokens : ∀ sql, ans.exec sql = true → closesQuotes sql = true)
    (hodd : ¬ Even (table.toList.count literalQuote))
    (hnew : o.has (prohibitTrigger table "update" "UPDATE").name = false) :
    ¬ Reaches ans cols o (triggers table .crdtGos) := by
  intro h
  rcases h [insertTrigger table] (prohibitTrigger table "update" "UPDATE")
    [prohibitTrigger table "delete" "DELETE"] rfl with ⟨u, hu, -⟩ | ⟨hcreates, -⟩
  · rw [Objects.has, hu] at hnew
    cases hnew
  · have hcloses : closesQuotes ((prohibitTrigger table "update" "UPDATE").sql cols.lists) = true :=
      htokens _ hcreates.exec
    exact hodd ((prohibitTrigger_closes "update" "UPDATE" (by decide) (by decide)).mp hcloses)

theorem cloudsyncInitObjects_of_completes {ι : Type} [DecidableEq ι] (ans : Answers)
    (cols : Columns) (table : String) (hash : String → UInt64) {s : Session ι} (o : Objects)
    {inp : InitInput ι} (hs : s.Completes inp) (hmeta : ans.exec (metatableSql table) = true) :
    (cloudsyncInitObjects ans cols table hash s o inp .succeeds).1 = .ok () := by
  have hcreated : (dbutilsCheckMetatable ans table
      (dbutilsCheckTriggers ans cols table inp.algo o)).metatable = true := by
    simp [dbutilsCheckMetatable, hmeta]
  have hok := hs.ok
  rw [cloudsyncInitObjects]
  simp only [hcreated, Bool.and_true]
  rw [Session.cloudsyncInit, Session.initTarget,
    if_neg (by decide : ¬ SavepointInput.succeeds.opened = false)]
  generalize s.cloudsyncInitInternal inp = x at hok
  rcases x with ⟨err | ⟨⟩, t⟩
  · cases hok
  · rfl

end

/-- A configured connection without tables. -/
def configured : Session Unit where
  db := ⟨some (some ⟨1, fun _ => 0⟩), some fun _ => none, some [], []⟩
  data := ⟨⟨1, fun _ => 0⟩, fun _ => none, 0⟩
  saves := []
  returned := []

def initCall (algo : TableAlgo) : InitInput Unit :=
  ⟨(), algo, .ok (), ⟨true, none, true, fun _ => true, true⟩, true, true, true, true⟩

theorem configured_completes (algo : TableAlgo) (h : algo ≠ .none) :
    configured.Completes (initCall algo) where
  sanity := rfl
  context := .inl ⟨by decide, Option.some_ne_none _⟩
  algo := h
  current := .inl rfl
  stmts := rfl
  addable := .inr rfl
  refill := rfl

/-- A connection that answers as `exec` does, and every query. -/
def answering (exec : String → Bool) : Answers := ⟨exec, fun _ => true, fun _ => true⟩

def orderColumns : Columns := ⟨["customer", "number"], ["amount"]⟩

/-- A grow-only set called `it's` can be updated and deleted from, and the call
that made it reported no error. -/
theorem cloudsyncInit_omits_prohibitions :
    ¬ ∀ (ans : Answers) (cols : Columns) (table : String) (hash : String → UInt64)
      (s : Session Unit) (o : Objects) (inp : InitInput Unit) (sp : SavepointInput),
      (cloudsyncInitObjects ans cols table hash s o inp sp).1 = .ok () →
        Installed cols table inp.algo (cloudsyncInitObjects ans cols table hash s o inp sp).2.2 := by
  intro h
  have hok := cloudsyncInitObjects_of_completes (answering closesQuotes) ⟨["id"], []⟩ "it's"
    (fun _ => 0) ⟨[], false⟩ (configured_completes .crdtGos (by decide)) (by decide +kernel)
  have hinst := h _ _ _ _ _ _ _ _ hok
  rw [(cloudsyncInitObjects_ok hok).1, installed_created_iff] at hinst
  exact not_reaches_of_odd (fun _ hsql => hsql) (by decide) rfl hinst.2

theorem reaches_answering (cols : Columns) (l : List Trigger) :
    Reaches (answering fun _ => true) cols ⟨[], false⟩ l :=
  fun _ _ _ _ => .inr ⟨⟨rfl, rfl, fun _ _ => .inl rfl⟩, fun _ _ => rfl⟩

theorem cloudsyncInit_installs_orders :
    Installed orderColumns "orders" .crdtCls (cloudsyncInitObjects (answering fun _ => true)
      orderColumns "orders" (fun _ => 0) configured ⟨[], false⟩ (initCall .crdtCls)
        .succeeds).2.2 := by
  have hok := cloudsyncInitObjects_of_completes (answering fun _ => true) orderColumns "orders"
    (fun _ => 0) ⟨[], false⟩ (configured_completes .crdtCls (by decide)) (by simp [answering])
  exact (cloudsyncInit_installs_iff hok).mpr (reaches_answering orderColumns _)

end SqliteSync.Config
