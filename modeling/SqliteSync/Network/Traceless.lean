import SqliteSync.Causal.Run
import SqliteSync.Network.Logout

/-!
# What a logout leaves behind

A table that the cleanup does not find keeps its triggers while its rows are deleted,
so the deletions are recorded, and stay. One that another connection has augmented is
not in the context, so the cleanup leaves its metadata alone.
-/
namespace SqliteSync.Network
open Library Clock Store Config

section
variable {n : ℕ} {schema : Fin n → TableContext}

/-! ## Deleting the rows of a table -/

theorem baseEmpty_iff {table : TableContext} {t : Table table} :
    BaseEmpty t ↔ ∀ pk, t.base.get pk = none := by
  rw [BaseEmpty]
  constructor
  · intro h pk
    rw [Keyed.get_eq_none_iff, h]
    exact fun _ hmem => nomatch hmem
  · intro h
    by_contra hne
    rcases List.exists_mem_of_ne_nil _ hne with ⟨⟨pk, row⟩, hmem⟩
    have hget := (Keyed.get_eq_some_iff t.base pk row).mpr hmem
    rw [h pk] at hget
    cases hget

theorem not_metaEmpty_of_get {table : TableContext} {t : Table table} {k : Pk × String}
    {m : MetaRow} (h : t.metadata.get k = some m) : ¬ MetaEmpty t := by
  intro hempty
  have hmem := (Keyed.get_eq_some_iff t.metadata k m).mp h
  rw [MetaEmpty] at hempty
  rw [hempty] at hmem
  cases hmem

def Connection.Records (x : Connection schema) (i : Fin n) : Prop :=
  x.deleteTrigger i = some .record ∧ x.replica.data.insync = false ∧ x.registered i ≠ none ∧
    x.replica.enabled i = true

/-- A table other than `i`, and the switches, are as they were. -/
structure Beside (i : Fin n) (r r' : Replica schema) : Prop where
  table : ∀ j ≠ i, r'.table j = r.table j
  enabled : r'.enabled = r.enabled
  insync : r'.data.insync = r.data.insync

theorem Beside.refl (i : Fin n) (r : Replica schema) : Beside i r r := ⟨fun _ _ => rfl, rfl, rfl⟩

theorem Beside.trans {i : Fin n} {r r' r'' : Replica schema} (h : Beside i r r')
    (h' : Beside i r' r'') : Beside i r r'' :=
  ⟨fun j hj => (h'.table j hj).trans (h.table j hj), h'.enabled.trans h.enabled,
    h'.insync.trans h.insync⟩

theorem Beside.setTable (i : Fin n) (r : Replica schema) (t : Table (schema i)) :
    Beside i r (r.setTable i t) :=
  ⟨fun _ hj => r.setTable_table_of_ne hj t, rfl, rfl⟩

/-- A tombstone is written and the other rows of the key are dropped, whatever version the
tombstone has. -/
theorem localDropMeta_markDelete_spec (r : Replica schema) (i : Fin n) (pk : Pk) (version : ℤ) :
    Beside i r (localDropMeta (withSeq r fun r seq => localMarkDeleteMeta r i pk version seq) i pk) ∧
      ((localDropMeta (withSeq r fun r seq =>
        localMarkDeleteMeta r i pk version seq) i pk).table i).base = (r.table i).base ∧
      ∃ m, ((localDropMeta (withSeq r fun r seq =>
        localMarkDeleteMeta r i pk version seq) i pk).table i).metadata.get
          (pk, CLOUDSYNC_TOMBSTONE_VALUE) = some m := by
  refine ⟨⟨fun j hj => ?_, rfl, rfl⟩, ?_, ?_⟩
  · rw [localDropMeta, Replica.setTable_table_of_ne _ hj, withSeq, localMarkDeleteMeta,
      localMarkInsertOrUpdateMetaImpl, Replica.setTable_table_of_ne _ hj]
    rfl
  · simp [localDropMeta, withSeq, localMarkDeleteMeta, localMarkInsertOrUpdateMetaImpl,
      Table.metaRowDrop, Table.metaRowInsertUpdate]
  · simp [localDropMeta, withSeq, localMarkDeleteMeta, localMarkInsertOrUpdateMetaImpl,
      Table.metaRowDrop, Table.metaRowInsertUpdate, Table.isColumnOf]

theorem recordDelete_spec (version : Bool) (r : Replica schema) (i : Fin n) (pk : Pk) :
    Beside i r (Connection.recordDelete version r i pk) ∧
      ((Connection.recordDelete version r i pk).table i).base = (r.table i).base ∧
      ∃ m, ((Connection.recordDelete version r i pk).table i).metadata.get
        (pk, CLOUDSYNC_TOMBSTONE_VALUE) = some m := by
  cases version with
  | true =>
    have hnext : Beside i r (r.dbVersionNext CLOUDSYNC_VALUE_NOTSET).2 :=
      ⟨fun _ _ => rfl, rfl, dbVersionCheckUptodate_insync r.view r.data⟩
    rcases localDropMeta_markDelete_spec (r.dbVersionNext CLOUDSYNC_VALUE_NOTSET).2 i pk
      (r.dbVersionNext CLOUDSYNC_VALUE_NOTSET).1 with ⟨hbeside, hbase, htombstone⟩
    exact ⟨hnext.trans hbeside, hbase, htombstone⟩
  | false =>
    rcases localDropMeta_markDelete_spec
      { r with data := { r.data with dataVersion := r.view.dataVersion } } i pk (-1) with
      ⟨hbeside, hbase, htombstone⟩
    exact ⟨⟨hbeside.table, hbeside.enabled, hbeside.insync⟩, hbase, htombstone⟩

/-- Rows of table `i` under the keys `pks` have been deleted. -/
structure Deleted (x : Connection schema) (i : Fin n) (pks : List Pk) (r r' : Replica schema) :
    Prop where
  beside : Beside i r r'
  base : ∀ pk, (r'.table i).base.get pk = if pk ∈ pks then none else (r.table i).base.get pk
  recorded : { x with replica := r }.Records i → pks ≠ [] → ¬ MetaEmpty (r'.table i)
  kept : ¬ { x with replica := r }.Records i → (r'.table i).metadata = (r.table i).metadata

theorem deleteRow_deleted {x : Connection schema} {i : Fin n} {version : Pk → Bool}
    {r r' : Replica schema} {pk : Pk} (h : x.deleteRow i version r pk = some r') :
    Deleted x i [pk] r r' := by
  let written := r.setTable i ((r.table i).realMergeDelete pk)
  have hbase : ∀ pk', (written.table i).base.get pk' =
      if pk' ∈ [pk] then none else (r.table i).base.get pk' := by
    intro pk'
    rw [Replica.setTable_table_self, Table.realMergeDelete, Keyed.get_deleteWhere]
    by_cases hpk : pk' = pk
    · simp [hpk]
    · cases (r.table i).base.get pk' <;> simp [hpk]
  have hwritten : ¬ { x with replica := r }.Records i → r' = written → Deleted x i [pk] r r' := by
    rintro hoff rfl
    refine ⟨.setTable i r _, hbase, fun hon => absurd hon hoff, fun _ => ?_⟩
    rw [Replica.setTable_table_self, Table.realMergeDelete]
  rw [Connection.deleteRow] at h
  cases htrigger : x.deleteTrigger i with
  | none =>
    rw [htrigger] at h
    exact hwritten (fun hon => by simp [Connection.Records, htrigger] at hon)
      (Option.some_inj.mp h).symm
  | some trigger =>
    cases trigger with
    | prohibit =>
      rw [htrigger] at h
      dsimp only at h
      rw [Option.ite_none_left_eq_some, Option.some_inj] at h
      exact hwritten (fun hon => by simp [Connection.Records, htrigger] at hon) h.2.symm
    | record =>
      rw [htrigger] at h
      dsimp only at h
      split_ifs at h with hinsync hnone hoff hmeta
      · exact hwritten (fun hon => by simp [Connection.Records, hinsync] at hon)
          (Option.some_inj.mp h).symm
      · exact hwritten (fun hon => by simp [Connection.Records, hoff] at hon)
          (Option.some_inj.mp h).symm
      · rw [Option.some_inj] at h
        subst h
        rcases recordDelete_spec (version pk) written i pk with ⟨hbeside, hkept, m, hm⟩
        refine ⟨(Beside.setTable i r _).trans hbeside, fun pk' => ?_, fun _ _ =>
          not_metaEmpty_of_get hm, fun hnot => ?_⟩
        · rw [hkept, hbase]
        · refine absurd ⟨htrigger, ?_, hnone, ?_⟩ hnot
          · simpa using hinsync
          · simpa using hoff

theorem deleteRows_deleted {x : Connection schema} {i : Fin n} {version : Pk → Bool}
    {pks : List Pk} {r r' : Replica schema} (h : pks.foldlM (x.deleteRow i version) r = some r') :
    Deleted x i pks r r' := by
  induction pks generalizing r with
  | nil =>
    cases h
    exact ⟨.refl i _, fun pk => by simp, fun _ hne => absurd rfl hne, fun _ => rfl⟩
  | cons pk pks ih =>
    rw [List.foldlM_cons, Option.bind_eq_bind, Option.bind_eq_some_iff] at h
    rcases h with ⟨u, hu, hrest⟩
    have hfirst := deleteRow_deleted hu
    have hlater := ih hrest
    have hrecords : { x with replica := u }.Records i ↔ { x with replica := r }.Records i := by
      simp only [Connection.Records, hfirst.beside.enabled, hfirst.beside.insync]
    refine ⟨hfirst.beside.trans hlater.beside, fun pk' => ?_, fun hon _ => ?_, fun hoff => ?_⟩
    · rw [hlater.base, hfirst.base]
      by_cases hpk : pk' = pk
      · simp [hpk]
      · simp [hpk]
    · by_cases hnil : pks = []
      · subst hnil
        cases hrest
        exact hfirst.recorded hon (List.cons_ne_nil pk [])
      · exact hlater.recorded (hrecords.mpr hon) hnil
    · rw [hlater.kept (mt hrecords.mp hoff), hfirst.kept hoff]

/-! ## One table, and the others -/

/-- Nothing about a table has changed. -/
structure SameAt (i : Fin n) (x y : Connection schema) : Prop where
  table : y.replica.table i = x.replica.table i
  enabled : y.replica.enabled i = x.replica.enabled i
  registered : y.registered i = x.registered i
  metatable : y.metatable i = x.metatable i
  deleteTrigger : y.deleteTrigger i = x.deleteTrigger i
  insync : y.replica.data.insync = x.replica.data.insync

namespace SameAt
variable {i : Fin n} {x y z : Connection schema}

theorem refl (i : Fin n) (x : Connection schema) : SameAt i x x := ⟨rfl, rfl, rfl, rfl, rfl, rfl⟩

theorem trans (h : SameAt i x y) (h' : SameAt i y z) : SameAt i x z :=
  ⟨h'.table.trans h.table, h'.enabled.trans h.enabled, h'.registered.trans h.registered,
    h'.metatable.trans h.metatable, h'.deleteTrigger.trans h.deleteTrigger,
    h'.insync.trans h.insync⟩

theorem records_iff (h : SameAt i x y) : y.Records i ↔ x.Records i := by
  rw [Connection.Records, h.deleteTrigger, h.insync, h.registered, h.enabled, Connection.Records]

end SameAt

theorem outcome_andThen_ok {σ : Type} {x : Outcome σ} {f : σ → Outcome σ} {y : σ}
    (h : x.andThen f = (.ok (), y)) : ∃ u, x = (.ok (), u) ∧ f u = (.ok (), y) := by
  rcases x with ⟨err | ⟨⟩, u⟩
  · cases h
  · exact ⟨u, rfl, h⟩

theorem outcome_describe_ok {σ : Type} {x : Outcome σ} {message : String} {y : σ}
    (h : x.describe message = (.ok (), y)) : x = (.ok (), y) := by
  rcases x with ⟨err | ⟨⟩, s⟩
  · cases h
  · exact h

/-! ## The cleanup -/

variable {name : Fin n → String}

/-- A table that was synchronised is so no more. -/
structure CleanedUp (i : Fin n) (y : Connection schema) : Prop where
  registered : y.registered i = none
  metatable : y.metatable i = false
  metadata : MetaEmpty (y.replica.table i)
  deleteTrigger : y.deleteTrigger i = none

theorem CleanedUp.sameAt {i : Fin n} {x y : Connection schema} (h : CleanedUp i x)
    (h' : SameAt i x y) : CleanedUp i y := by
  refine ⟨h'.registered.trans h.registered, h'.metatable.trans h.metatable, ?_,
    h'.deleteTrigger.trans h.deleteTrigger⟩
  rw [h'.table]
  exact h.metadata

theorem cleanupInternal_spec {x y : Connection schema} {i : Fin n} {drop : Bool}
    (h : x.cloudsyncCleanupInternal name i drop = (.ok (), y)) :
    (∀ j, j ≠ i ∨ x.registered j = none → SameAt j x y) ∧
      (x.registered i ≠ none → CleanedUp i y) := by
  rw [Connection.cloudsyncCleanupInternal] at h
  split_ifs at h with hnone hdrop
  · cases h
    exact ⟨fun j _ => .refl j _, fun hne => absurd hnone hne⟩
  · cases h
    refine ⟨fun j hj => ?_, fun _ => ⟨Function.update_self i none x.registered,
      Function.update_self i false x.metatable, ?_, Function.update_self i none x.deleteTrigger⟩⟩
    · have hne : j ≠ i := hj.elim id fun hunregistered heq => hnone (heq ▸ hunregistered)
      exact ⟨Replica.setTable_table_of_ne _ hne _, rfl, Function.update_of_ne hne _ _,
        Function.update_of_ne hne _ _, Function.update_of_ne hne _ _, rfl⟩
    · rw [MetaEmpty, Replica.setTable_table_self]
      rfl
  · cases h

theorem cleanupEach_spec {drop : Fin n → Bool} {x y : Connection schema} {tables : List (Fin n)}
    (hnodup : tables.Nodup) (h : Connection.cleanupEach name drop x tables = (.ok (), y)) :
    (∀ i, i ∉ tables ∨ x.registered i = none → SameAt i x y) ∧
      ∀ i ∈ tables, x.registered i ≠ none → CleanedUp i y := by
  induction tables generalizing x with
  | nil =>
    cases h
    exact ⟨fun i _ => .refl i _, fun i hi => nomatch hi⟩
  | cons i tables ih =>
    rw [List.nodup_cons] at hnodup
    rw [Connection.cleanupEach] at h
    cases hrest : Connection.cleanupEach name drop
        (x.cloudsyncCleanupInternal name i (drop i)).2 tables with
    | mk code z =>
      rw [hrest] at h
      cases code with
      | error err => cases h
      | ok =>
        rw [Prod.mk.injEq] at h
        rcases h with ⟨hfirst, rfl⟩
        rcases cleanupInternal_spec (Prod.ext hfirst rfl) with ⟨hbeside, hcleaned⟩
        rcases ih hnodup.2 hrest with ⟨hsame, htables⟩
        refine ⟨fun j hj => ?_, fun j hj hreg => ?_⟩
        · rw [List.mem_cons, not_or] at hj
          have hfirst := hbeside j (hj.imp_left And.left)
          exact hfirst.trans (hsame j (hj.imp And.right hfirst.registered.trans))
        · rcases List.mem_cons.mp hj with rfl | hj
          · exact (hcleaned hreg).sameAt (hsame j (.inl hnodup.1))
          · have hne : j ≠ i := fun heq => hnodup.1 (heq ▸ hj)
            exact htables j hj (by rwa [(hbeside j (.inl hne)).registered])

theorem mem_cleanupTables {i : Fin n} :
    i ∈ Connection.cleanupTables name ↔ skipped (name i) = false := by
  simp [Connection.cleanupTables]

/-- What `cloudsync_cleanup('*')` does to the tables it finds, to the others, and to the
settings. -/
theorem cleanupAll_spec {drop : Fin n → Bool} {x y : Connection schema}
    (h : x.cloudsyncCleanupAll name drop = (.ok (), y)) :
    (∀ i, skipped (name i) = true ∨ x.registered i = none → SameAt i x y) ∧
      (∀ i, skipped (name i) = false → x.registered i ≠ none → CleanedUp i y) ∧
      ((∃ i, skipped (name i) = false) → y.stored = none) ∧
      ((∀ i, skipped (name i) = true) → y.stored = x.stored) := by
  rw [Connection.cloudsyncCleanupAll] at h
  split_ifs at h with hnil
  · cases h
    have hall : ∀ i, skipped (name i) = true := by
      intro i
      by_contra hfound
      have hmem := mem_cleanupTables.mpr (Bool.not_eq_true _ ▸ hfound)
      rw [hnil] at hmem
      cases hmem
    refine ⟨fun i _ => .refl i _, fun i hi => ?_, fun hex => ?_, fun _ => rfl⟩
    · rw [hall i] at hi
      cases hi
    · rcases hex with ⟨i, hi⟩
      rw [hall i] at hi
      cases hi
  · rcases outcome_andThen_ok h with ⟨u, heach, hlast⟩
    have hnodup : (Connection.cleanupTables name).Nodup := (List.nodup_finRange n).filter _
    rcases cleanupEach_spec hnodup heach with ⟨hsame, hcleaned⟩
    cases hlast
    refine ⟨fun i hi => ?_, fun i hi hreg => ?_, fun _ => rfl, fun hall => ?_⟩
    · have hs := hsame i (hi.imp_left fun hskipped hmem => by
        rw [mem_cleanupTables, hskipped] at hmem
        cases hmem)
      exact ⟨hs.table, hs.enabled, hs.registered, hs.metatable, hs.deleteTrigger, hs.insync⟩
    · have hc := hcleaned i (mem_cleanupTables.mpr hi) hreg
      exact ⟨hc.registered, hc.metatable, hc.metadata, hc.deleteTrigger⟩
    · refine absurd (List.eq_nil_iff_forall_not_mem.mpr fun i hmem => ?_) hnil
      rw [mem_cleanupTables, hall i] at hmem
      cases hmem

/-! ## Initialising a table again -/

def SameCursors (x y : Connection schema) : Prop :=
  ∀ (d : Reader), ∀ key ∈ cursorKeys, y.cursor d key = x.cursor d key

theorem SameCursors.of_settings {x y : Connection schema}
    (h : y.stored.map Prod.fst = x.stored.map Prod.fst) : SameCursors x y := by
  intro d key _
  rw [Connection.cursor, Connection.cursor]
  cases hy : y.stored <;> cases hx : x.stored <;> simp_all

theorem cursor_initialSettings (d : Reader) (version : ℤ) {key : String} (hkey : key ∈ cursorKeys) :
    d.int (initialSettings version) key = 0 := by
  apply Reader.int_of_missing
  have hne : lowered key ≠ lowered "schemaversion" ∧
      lowered key ≠ lowered CLOUDSYNC_KEY_LIBVERSION := by
    simp only [cursorKeys, List.mem_cons, List.not_mem_nil, or_false] at hkey
    rcases hkey with rfl | rfl | rfl | rfl <;> decide
  rw [initialSettings, dbutilsSettingsSetKeyValue, Keyed.get_replace, if_neg hne.1,
    dbutilsSettingsSetKeyValue, Keyed.get_replace, if_neg hne.2]
  rfl

theorem contextInit_spec {x y : Connection schema} {inp : InitCall}
    (h : x.cloudsyncContextInit inp = (.ok (), y)) :
    (∀ i, SameAt i x y) ∧ SameCursors x y := by
  rw [Connection.cloudsyncContextInit] at h
  cases hstored : x.stored with
  | some stored =>
    rw [hstored] at h
    cases h
    exact ⟨fun i => .refl i _, fun _ _ _ => rfl⟩
  | none =>
    rw [hstored] at h
    dsimp only at h
    split_ifs at h
    · cases h
      refine ⟨fun i => ⟨rfl, rfl, rfl, rfl, rfl, rfl⟩, fun d key hkey => ?_⟩
      rw [Connection.cursor, Connection.cursor, hstored]
      exact cursor_initialSettings d _ hkey
    · cases h

theorem initAlgo_ok {s : TableSettings} {table : String} {algoName : CString} {alloc : Bool}
    {stack : List UInt8} {checked : TableAlgo × TableSettings}
    (h : initAlgo s table (some algoName) alloc stack = .ok checked) :
    checked.1 = crdtAlgoFromName algoName := by
  rw [initAlgo] at h
  dsimp only at h
  split_ifs at h <;> cases h <;> rfl

/-- What a successful call does to a table without rows, and to what it reads. -/
structure Initialised (i : Fin n) (algo : TableAlgo) (x y : Connection schema) : Prop where
  beside : ∀ j ≠ i, SameAt j x y
  table : y.replica.table i = x.replica.table i
  registered : y.registered i = (x.registered i).or (some algo)
  metatable : x.metatable i = true ∨ x.registered i = none → y.metatable i = true
  cursors : SameCursors x y

theorem tableAddToContext_spec {x y : Connection schema} {i : Fin n} {algo : TableAlgo}
    {addable : Bool} (h : x.tableAddToContext i algo addable = (.ok (), y)) :
    (∀ j ≠ i, SameAt j x y) ∧ y.replica.table = x.replica.table ∧ y.metatable = x.metatable ∧
      y.stored = x.stored ∧ y.registered i = (x.registered i).or (some algo) ∧
      (x.registered i = none → y.metatable i = true) := by
  rw [Connection.tableAddToContext] at h
  split_ifs at h with hreg hadd
  · cases h
    refine ⟨fun j _ => .refl j _, rfl, rfl, rfl, ?_, fun hnone => absurd hnone hreg⟩
    rcases Option.ne_none_iff_exists'.mp hreg with ⟨a, ha⟩
    rw [ha]
    rfl
  · cases h
    rw [not_not] at hreg
    rw [Bool.and_eq_true] at hadd
    refine ⟨fun j hj => ?_, rfl, rfl, rfl, ?_, fun _ => hadd.2⟩
    · exact ⟨rfl, Function.update_of_ne hj _ _, Function.update_of_ne hj _ _, rfl, rfl, rfl⟩
    · rw [hreg]
      exact Function.update_self i _ _
  · cases h

theorem initInternal_spec {fill : Fin n → Replica schema → Replica schema} {x y : Connection schema}
    {i : Fin n} {tableName : String} {algoName : CString} {inp : InitCall}
    (hbase : BaseEmpty (x.replica.table i))
    (h : x.cloudsyncInitInternal fill i tableName algoName inp = (.ok (), y)) :
    Initialised i (crdtAlgoFromName algoName) x y := by
  rw [Connection.cloudsyncInitInternal] at h
  cases hsanity : inp.sanity with
  | error err =>
    rw [hsanity] at h
    cases h
  | ok =>
    rw [hsanity] at h
    rcases outcome_andThen_ok h with ⟨u, hctx, hrest⟩
    rcases contextInit_spec hctx with ⟨hsame, hcursors⟩
    cases hstored : u.stored with
    | none =>
      rw [hstored] at hrest
      cases hrest
    | some stored =>
      rw [hstored] at hrest
      dsimp only at hrest
      cases halgo : initAlgo stored.2 tableName (some algoName) inp.alloc inp.stack with
      | error err =>
        rw [halgo] at hrest
        cases hrest
      | ok checked =>
        rw [halgo] at hrest
        dsimp only at hrest
        have hname := initAlgo_ok halgo
        cases hstmts : inp.stmts with
        | false =>
          rw [hstmts, if_neg Bool.false_ne_true] at hrest
          cases hrest
        | true =>
          rw [hstmts, if_pos rfl] at hrest
          rcases outcome_andThen_ok hrest with ⟨w, hadd, hlast⟩
          rcases tableAddToContext_spec hadd with
            ⟨hbeside, htable, hmeta, hsettings, hregistered, hadded⟩
          have htable' : w.replica.table = u.replica.table := htable
          have hempty : (w.replica.table i).base.rows = [] := by
            rw [htable', (hsame i).table]
            exact hbase
          rw [Connection.cloudsyncRefillMetatable, if_pos hempty] at hlast
          cases hrefill : inp.refill with
          | false =>
            rw [hrefill, if_neg Bool.false_ne_true] at hlast
            cases hlast
          | true =>
            rw [hrefill, if_pos rfl] at hlast
            cases hlast
            refine ⟨fun j hj => ?_, ?_, ?_, ?_, ?_⟩
            · have hj' := hbeside j hj
              refine (hsame j).trans ⟨hj'.table, hj'.enabled, hj'.registered, ?_, ?_, hj'.insync⟩
              · exact hj'.metatable.trans (Function.update_of_ne hj _ _)
              · exact hj'.deleteTrigger.trans (Function.update_of_ne hj _ _)
            · rw [htable', (hsame i).table]
            · rw [hregistered, hname]
              exact congrArg (Option.or · _) (hsame i).registered
            · rintro (hold | hnone)
              · rw [hmeta]
                dsimp only
                rw [Function.update_self, (hsame i).metatable, hold]
                rfl
              · exact hadded ((hsame i).registered.trans hnone)
            · intro d key hkey
              rw [← hcursors d key hkey]
              refine SameCursors.of_settings ?_ d key hkey
              rw [hsettings, hstored]
              rfl

/-! ## The loop over the settings -/

/-- A table has been emptied and initialised. What its trigger recorded meanwhile stays. -/
structure ResetAt (i : Fin n) (algo : TableAlgo) (x y : Connection schema) : Prop where
  base : BaseEmpty (y.replica.table i)
  recorded : x.Records i → ¬ BaseEmpty (x.replica.table i) → ¬ MetaEmpty (y.replica.table i)
  kept : ¬ x.Records i ∨ BaseEmpty (x.replica.table i) →
    (y.replica.table i).metadata = (x.replica.table i).metadata
  registered : y.registered i = (x.registered i).or (some algo)
  metatable : x.metatable i = true ∨ x.registered i = none → y.metatable i = true

theorem SameAt.resetAt {i : Fin n} {algo : TableAlgo} {x u y : Connection schema}
    (h : SameAt i x u) (h' : ResetAt i algo u y) : ResetAt i algo x y := by
  refine ⟨h'.base, fun hon hrows => ?_, fun hoff => ?_, ?_, ?_⟩
  · rw [← h.records_iff] at hon
    rw [← h.table] at hrows
    exact h'.recorded hon hrows
  · rw [← h.records_iff, ← h.table] at hoff
    rw [h'.kept hoff, h.table]
  · rw [h'.registered, h.registered]
  · rw [← h.metatable, ← h.registered]
    exact h'.metatable

theorem ResetAt.sameAt {i : Fin n} {algo : TableAlgo} {x u y : Connection schema}
    (h : ResetAt i algo x u) (h' : SameAt i u y) : ResetAt i algo x y := by
  refine ⟨?_, fun hon hrows => ?_, fun hoff => ?_, ?_, fun hold => ?_⟩
  · rw [h'.table]
    exact h.base
  · rw [h'.table]
    exact h.recorded hon hrows
  · rw [h'.table, h.kept hoff]
  · rw [h'.registered, h.registered]
  · rw [h'.metatable, h.metatable hold]

theorem deleteFrom_spec {x y : Connection schema} {i : Fin n} {delete : Bool}
    {version : Pk → Bool} (h : x.deleteFrom i delete version = (.ok (), y)) :
    ∃ r, y = { x with replica := r } ∧
      Deleted x i ((x.replica.table i).base.rows.map Prod.fst) x.replica r := by
  rw [Connection.deleteFrom] at h
  split_ifs at h
  · cases hrows : ((x.replica.table i).base.rows.map Prod.fst).foldlM (x.deleteRow i version)
        x.replica with
    | none =>
      rw [hrows] at h
      cases h
    | some r =>
      rw [hrows] at h
      cases h
      exact ⟨r, rfl, deleteRows_deleted hrows⟩
  · cases h

theorem resetAt_of_steps {fill : Fin n → Replica schema → Replica schema}
    {x u y : Connection schema} {i : Fin n} {delete : Bool} {version : Pk → Bool}
    {tableName : String} {algoName : CString} {inp : InitCall}
    (hdelete : x.deleteFrom i delete version = (.ok (), u))
    (hinit : u.cloudsyncInitInternal fill i tableName algoName inp = (.ok (), y)) :
    (∀ j ≠ i, SameAt j x y) ∧ ResetAt i (crdtAlgoFromName algoName) x y ∧ SameCursors x y := by
  rcases deleteFrom_spec hdelete with ⟨r, rfl, hdeleted⟩
  have hempty : BaseEmpty (r.table i) := by
    rw [baseEmpty_iff]
    intro pk
    rw [hdeleted.base]
    split_ifs with hmem
    · rfl
    · rw [Keyed.get_eq_none_iff]
      exact fun row hrow => hmem (List.mem_map_of_mem (f := Prod.fst) hrow)
  have hcall := initInternal_spec hempty hinit
  have hbeside : ∀ j ≠ i, SameAt j x { x with replica := r } := fun j hj =>
    ⟨hdeleted.beside.table j hj, congrFun hdeleted.beside.enabled j, rfl, rfl, rfl,
      hdeleted.beside.insync⟩
  refine ⟨fun j hj => (hbeside j hj).trans (hcall.beside j hj), ⟨?_, ?_, ?_, ?_, ?_⟩, ?_⟩
  · rw [hcall.table]
    exact hempty
  · intro hon hrows
    rw [hcall.table]
    refine hdeleted.recorded hon fun hnil => hrows ?_
    rwa [List.map_eq_nil_iff] at hnil
  · rintro (hoff | hnone)
    · rw [hcall.table]
      exact hdeleted.kept hoff
    · rw [BaseEmpty] at hnone
      rw [hcall.table]
      rw [Connection.deleteFrom, hnone] at hdelete
      split_ifs at hdelete
      · cases hdelete
        rfl
      · cases hdelete
  · exact hcall.registered
  · exact hcall.metatable
  · exact hcall.cursors

variable {rest : Connection.Unfollowed schema} {inp : LogoutInput n}

def algoKey (name : Fin n → String) (i : Fin n) : List Char × String := (lowered (name i), "algo")

theorem logoutRow_spec {x y : Connection schema} {row : (List Char × String) × TableSetting}
    (hname : Function.Injective fun i => lowered (name i)) (hstar : row.1 ≠ (['*'], "algo"))
    (h : x.logoutRow name rest inp row = (.ok (), y)) :
    (∀ i, row.1 ≠ algoKey name i → SameAt i x y) ∧
      (∀ i, row.1 = algoKey name i →
        ResetAt i (crdtAlgoFromName (Connection.algoPrinted row.2)) x y) ∧
      SameCursors x y := by
  rw [Connection.logoutRow] at h
  by_cases hkey : row.1.2 = "algo"
  · rw [if_neg (not_not.mpr hkey)] at h
    cases hof : Connection.tableOf name row.1.1 with
    | none =>
      rw [hof] at h
      cases h
    | some i =>
      rw [hof] at h
      have htable : lowered (name i) = row.1.1 := by
        simpa using List.find?_some hof
      rcases outcome_andThen_ok h with ⟨u, hdelete, hinit⟩
      have hplain : ¬ dbutilsIsStarTable row.1.1 = true := by
        intro hs
        exact hstar (Prod.ext (by simpa [dbutilsIsStarTable] using hs) hkey)
      replace hinit := outcome_describe_ok hinit
      rw [if_neg hplain] at hinit
      rcases resetAt_of_steps (outcome_describe_ok hdelete) hinit with
        ⟨hbeside, hreset, hcursors⟩
      refine ⟨fun j hj => hbeside j ?_, fun j hj => ?_, hcursors⟩
      · rintro rfl
        exact hj (Prod.ext htable.symm hkey)
      · have heq : j = i := hname ((congrArg Prod.fst hj).symm.trans htable.symm)
        rw [heq]
        exact hreset
  · rw [if_pos hkey] at h
    cases h
    exact ⟨fun i _ => .refl i _, fun i hi => absurd (congrArg Prod.snd hi) hkey, fun _ _ _ => rfl⟩

theorem logoutEach_spec {x y : Connection schema}
    {rows : List ((List Char × String) × TableSetting)}
    (hname : Function.Injective fun i => lowered (name i))
    (hnodup : (rows.map Prod.fst).Nodup) (hstar : (['*'], "algo") ∉ rows.map Prod.fst)
    (h : Connection.logoutEach name rest inp x rows = (.ok (), y)) :
    (∀ i, algoKey name i ∉ rows.map Prod.fst → SameAt i x y) ∧
      (∀ i setting, (algoKey name i, setting) ∈ rows →
        ResetAt i (crdtAlgoFromName (Connection.algoPrinted setting)) x y) ∧
      SameCursors x y := by
  induction rows generalizing x with
  | nil =>
    cases h
    exact ⟨fun i _ => .refl i _, fun _ _ hmem => absurd hmem List.not_mem_nil, fun _ _ _ => rfl⟩
  | cons row rows ih =>
    rw [List.map_cons, List.nodup_cons] at hnodup
    rw [List.map_cons, List.mem_cons, not_or] at hstar
    rcases outcome_andThen_ok h with ⟨u, hrow, hrest⟩
    rcases logoutRow_spec hname (Ne.symm hstar.1) hrow with ⟨hsame, hreset, hcursors⟩
    rcases ih hnodup.2 hstar.2 hrest with ⟨hsame', hreset', hcursors'⟩
    refine ⟨fun i hi => ?_, fun i setting hmem => ?_, fun d key hkey => ?_⟩
    · rw [List.map_cons, List.mem_cons, not_or] at hi
      exact (hsame i (Ne.symm hi.1)).trans (hsame' i hi.2)
    · rcases List.mem_cons.mp hmem with rfl | hmem
      · exact (hreset i rfl).sameAt (hsame' i hnodup.1)
      · have hne : row.1 ≠ algoKey name i := by
          intro heq
          rw [heq] at hnodup
          exact hnodup.1 (List.mem_map_of_mem (f := Prod.fst) hmem)
        exact (hsame i hne).resetAt (hreset' i setting hmem)
    · rw [hcursors' d key hkey, hcursors d key hkey]

/-! ## The whole call -/

/-- Each synchronised table of the context that the cleanup finds has its algorithm in the
settings, each other one has nothing that a logout could leave; and the cleanup takes the
cursors. -/
structure Connection.Wipes (name : Fin n → String) (d : Reader) (x : Connection schema) : Prop where
  found : ∀ i algo, x.Augmented name i algo → skipped (name i) = false → x.registered i ≠ none →
    x.algoStored name i = some algo
  unfound : ∀ i algo, x.Augmented name i algo → skipped (name i) = true ∨ x.registered i = none →
    MetaEmpty (x.replica.table i) ∧ (BaseEmpty (x.replica.table i) ∨
      x.algoSetting (lowered (name i)) ≠ none ∧ ¬ x.Records i)
  cursors : (∃ i, skipped (name i) = false) ∨ ∀ key ∈ cursorKeys, x.cursor d key = 0

theorem logout_snapshot {x y : Connection schema}
    (h : x.cloudsyncNetworkLogout name rest inp = (.ok (), y)) :
    ∃ stored, x.stored = some stored ∧ inp.snapshot = true := by
  rw [Connection.cloudsyncNetworkLogout] at h
  cases hstored : x.stored with
  | none =>
    rw [hstored] at h
    cases h
  | some stored =>
    rw [hstored] at h
    dsimp only at h
    cases hsnapshot : inp.snapshot with
    | false =>
      rw [hsnapshot, if_pos rfl] at h
      cases h
    | true => exact ⟨stored, rfl, rfl⟩

/-- A logout that succeeds cleans up, and goes over the settings as they were. -/
theorem logout_run {x y : Connection schema}
    (h : x.cloudsyncNetworkLogout name rest inp = (.ok (), y)) (hsavepoint : inp.savepoint = true) :
    ∃ stored u, x.stored = some stored ∧ x.cloudsyncCleanupAll name inp.drop = (.ok (), u) ∧
      Connection.logoutEach name rest inp u stored.2.rows = (.ok (), y) := by
  obtain ⟨stored, hstored, hsnapshot⟩ := logout_snapshot h
  rw [Connection.cloudsyncNetworkLogout, hstored] at h
  dsimp only at h
  rw [hsnapshot, if_neg Bool.false_ne_true.symm, hsavepoint, if_neg Bool.false_ne_true.symm] at h
  split at h
  · rcases outcome_andThen_ok h with ⟨u, hcleanup, heach⟩
    exact ⟨stored, u, hstored, outcome_describe_ok hcleanup, heach⟩
  · cases h

theorem algoKey_notMem {x : Connection schema} {stored : Settings × TableSettings}
    {key : List Char} (hstored : x.stored = some stored) (h : x.algoSetting key = none) :
    (key, "algo") ∉ stored.2.rows.map Prod.fst := by
  rw [Connection.algoSetting, hstored] at h
  have hget := (Keyed.get_eq_none_iff stored.2 (key, "algo")).mp h
  intro hmem
  rcases List.mem_map.mp hmem with ⟨⟨_, setting⟩, hrow, rfl⟩
  exact hget setting hrow

theorem algoKey_mem {x : Connection schema} {stored : Settings × TableSettings} {i : Fin n}
    {setting : TableSetting} (hstored : x.stored = some stored)
    (h : x.algoSetting (lowered (name i)) = some setting) :
    (algoKey name i, setting) ∈ stored.2.rows := by
  rw [Connection.algoSetting, hstored] at h
  exact (Keyed.get_eq_some_iff stored.2 (lowered (name i), "algo") setting).mp h

/-- What a table looks like after a logout, by what the cleanup left of it. -/
theorem logoutEach_at {x u y : Connection schema} {stored : Settings × TableSettings}
    (hname : Function.Injective fun i => lowered (name i)) (hstored : x.stored = some stored)
    (hstar : x.algoSetting ['*'] = none)
    (h : Connection.logoutEach name rest inp u stored.2.rows = (.ok (), y)) :
    (∀ i, x.algoSetting (lowered (name i)) = none → SameAt i u y) ∧
      (∀ i setting, x.algoSetting (lowered (name i)) = some setting →
        ResetAt i (crdtAlgoFromName (Connection.algoPrinted setting)) u y) ∧
      SameCursors u y := by
  have hplain : (['*'], "algo") ∉ stored.2.rows.map Prod.fst := algoKey_notMem hstored hstar
  rcases logoutEach_spec hname stored.2.nodup hplain h with ⟨hsame, hreset, hcursors⟩
  exact ⟨fun i hi => hsame i (algoKey_notMem hstored hi),
    fun i setting hi => hreset i setting (algoKey_mem hstored hi), hcursors⟩

/-- A table is as a logout should leave it. -/
structure BlankAt (name : Fin n → String) (i : Fin n) (algo : TableAlgo) (y : Connection schema) :
    Prop where
  base : BaseEmpty (y.replica.table i)
  metadata : MetaEmpty (y.replica.table i)
  augmented : y.Augmented name i algo

theorem blankAt_found_iff {x u y : Connection schema} {i : Fin n} {algo : TableAlgo}
    (hclean : CleanedUp i u)
    (hsame : x.algoSetting (lowered (name i)) = none → SameAt i u y)
    (hreset : ∀ setting, x.algoSetting (lowered (name i)) = some setting →
      ResetAt i (crdtAlgoFromName (Connection.algoPrinted setting)) u y) :
    BlankAt name i algo y ↔ x.algoStored name i = some algo := by
  have hoff : ¬ u.Records i := by
    rintro ⟨htrigger, _⟩
    rw [hclean.deleteTrigger] at htrigger
    cases htrigger
  rw [Connection.algoStored]
  cases hsetting : x.algoSetting (lowered (name i)) with
  | none =>
    refine iff_of_false (fun hblank => ?_) nofun
    have hmeta := hblank.augmented.metatable
    rw [(hclean.sameAt (hsame hsetting)).metatable] at hmeta
    cases hmeta
  | some setting =>
    have hr := hreset setting hsetting
    have hreg : y.registered i = some (crdtAlgoFromName (Connection.algoPrinted setting)) := by
      rw [hr.registered, hclean.registered]
      rfl
    rw [Option.map_some, Option.some_inj]
    constructor
    · intro hblank
      rcases hblank.augmented.algo with halgo | ⟨hnone, -⟩
      · exact Option.some_inj.mp (hreg.symm.trans halgo)
      · rw [hreg] at hnone
        cases hnone
    · rintro rfl
      refine ⟨hr.base, ?_, ⟨hr.metatable (.inr hclean.registered), .inl hreg⟩⟩
      rw [MetaEmpty, hr.kept (.inl hoff)]
      exact hclean.metadata

/-- A table that the cleanup does not find, or that is not in its context. -/
theorem blankAt_unfound_iff {x u y : Connection schema} {i : Fin n} {algo : TableAlgo}
    (haugmented : x.Augmented name i algo) (hkept : SameAt i x u)
    (hsame : x.algoSetting (lowered (name i)) = none → SameAt i u y)
    (hreset : ∀ setting, x.algoSetting (lowered (name i)) = some setting →
      ResetAt i (crdtAlgoFromName (Connection.algoPrinted setting)) u y) :
    BlankAt name i algo y ↔ MetaEmpty (x.replica.table i) ∧ (BaseEmpty (x.replica.table i) ∨
      x.algoSetting (lowered (name i)) ≠ none ∧ ¬ x.Records i) := by
  have halgo := haugmented.algo
  rw [Connection.algoStored] at halgo
  cases hsetting : x.algoSetting (lowered (name i)) with
  | none =>
    have hs := hkept.trans (hsame hsetting)
    have hreg : x.registered i = some algo := by
      refine halgo.resolve_right fun hstored => ?_
      rw [hsetting] at hstored
      cases hstored.2
    have haug : y.Augmented name i algo :=
      ⟨hs.metatable.trans haugmented.metatable, .inl (hs.registered.trans hreg)⟩
    constructor
    · intro hblank
      rw [← hs.table]
      exact ⟨hblank.metadata, .inl hblank.base⟩
    · rintro ⟨hmeta, hbase | ⟨habsurd, _⟩⟩
      · rw [← hs.table] at hmeta hbase
        exact ⟨hbase, hmeta, haug⟩
      · exact absurd rfl habsurd
  | some setting =>
    have hr := hkept.resetAt (hreset setting hsetting)
    have haug : y.Augmented name i algo := by
      refine ⟨hr.metatable (.inl haugmented.metatable), .inl ?_⟩
      rw [hr.registered]
      rcases halgo with hreg | ⟨hnone, hstored⟩
      · rw [hreg]
        rfl
      · rw [hsetting, Option.map_some, Option.some_inj] at hstored
        rw [hnone, hstored]
        rfl
    have hsettled : ¬ x.Records i ∨ BaseEmpty (x.replica.table i) →
        (MetaEmpty (y.replica.table i) ↔ MetaEmpty (x.replica.table i)) := by
      intro h
      rw [MetaEmpty, hr.kept h, MetaEmpty]
    constructor
    · intro hblank
      by_cases hbase : BaseEmpty (x.replica.table i)
      · exact ⟨(hsettled (.inr hbase)).mp hblank.metadata, .inl hbase⟩
      · have hoff : ¬ x.Records i := fun hon => hr.recorded hon hbase hblank.metadata
        exact ⟨(hsettled (.inl hoff)).mp hblank.metadata,
          .inr ⟨Option.some_ne_none setting, hoff⟩⟩
    · rintro ⟨hmeta, hquiet⟩
      have hdone : ¬ x.Records i ∨ BaseEmpty (x.replica.table i) := by
        rcases hquiet with hbase | ⟨_, hoff⟩
        · exact .inr hbase
        · exact .inl hoff
      exact ⟨hr.base, (hsettled hdone).mpr hmeta, haug⟩

theorem leavesNoTrace_iff_blankAt {d : Reader} {x y : Connection schema} :
    LeavesNoTrace name d x y ↔ (∀ i algo, x.Augmented name i algo → BlankAt name i algo y) ∧
      ∀ key ∈ cursorKeys, y.cursor d key = 0 := by
  constructor
  · intro h
    exact ⟨fun i algo hi => ⟨h.base i algo hi, h.metadata i algo hi, h.augmented i algo hi⟩,
      h.cursors⟩
  · rintro ⟨hblank, hcursors⟩
    exact ⟨fun i algo hi => (hblank i algo hi).base, fun i algo hi => (hblank i algo hi).metadata,
      fun i algo hi => (hblank i algo hi).augmented, hcursors⟩

theorem logout_without_savepoint {x y : Connection schema}
    (h : x.cloudsyncNetworkLogout name rest inp = (.ok (), y))
    (hsavepoint : inp.savepoint = false) : y = x := by
  obtain ⟨stored, hstored, hsnapshot⟩ := logout_snapshot h
  rw [Connection.cloudsyncNetworkLogout, hstored] at h
  dsimp only at h
  rw [hsnapshot, if_neg Bool.false_ne_true.symm, if_pos hsavepoint] at h
  cases h
  rfl

theorem logout_cursors_iff {d : Reader} {x u y : Connection schema} {drop : Fin n → Bool}
    (hcleanup : x.cloudsyncCleanupAll name drop = (.ok (), u)) (hcursors : SameCursors u y) :
    (∀ key ∈ cursorKeys, y.cursor d key = 0) ↔
      (∃ i, skipped (name i) = false) ∨ ∀ key ∈ cursorKeys, x.cursor d key = 0 := by
  rcases cleanupAll_spec hcleanup with ⟨_, _, hgone, hleft⟩
  have hread : (∀ key ∈ cursorKeys, y.cursor d key = 0) ↔ ∀ key ∈ cursorKeys, u.cursor d key = 0 :=
    forall₂_congr fun key hkey => by rw [hcursors d key hkey]
  rw [hread]
  by_cases hfound : ∃ i, skipped (name i) = false
  · refine iff_of_true (fun key _ => ?_) (.inl hfound)
    rw [Connection.cursor, hgone hfound]
  · rw [or_iff_right hfound]
    refine forall₂_congr fun key _ => ?_
    rw [Connection.cursor, hleft fun i => ?_, Connection.cursor]
    rw [← Bool.not_eq_false]
    exact fun hi => hfound ⟨i, hi⟩

end

/-! ## A table called `cloudsyncs` -/

def andNotes (first : String) : Fin 2 → String := fun i => if i.val = 0 then first else "notes"

def insertOne (i : Fin 2) (r : Replica fun _ : Fin 2 => singleColumn) :
    Option (Replica fun _ : Fin 2 => singleColumn) :=
  applyRowChange r i (.insert false [.integer 1] fun _ => .integer 1)

/-- Both tables are synchronised, and a row is written to each. -/
def signedIn (name : Fin 2 → String) : Connection fun _ : Fin 2 => singleColumn where
  replica := ((insertOne 0 (.empty _ [1])).bind (insertOne 1)).getD (.empty _ [1])
  registered := fun _ => some .crdtCls
  metatable := fun _ => true
  deleteTrigger := fun _ => some .record
  stored := some (initialSettings 1, (List.finRange 2).foldl
    (fun s i => dbutilsTableSettingsSetKeyValue s
      ⟨some (name i), some "*", some "algo", some (ascii "cls")⟩) Keyed.empty)

def uncalled : Connection.Unfollowed fun _ : Fin 2 => singleColumn :=
  ⟨fun _ r => r, fun _ x => (.ok (), x)⟩

end SqliteSync.Network
