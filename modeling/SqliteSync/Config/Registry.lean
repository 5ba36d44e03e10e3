import SqliteSync.Config.SiteIdentity

/-!
# The registered tables and the schema hash

A context registers the tables it has augmented and keeps the hash of their
schema, both of which the database stores as well. The two agree in every run
where no rollback takes back a table that stays registered, and no failing call
drops a table that stays configured.
-/
namespace SqliteSync.Config
open Library Store

variable {ι : Type}

/-- The hash with the largest `seq`, when `cloudsync_schema_versions` has any. -/
def Db.lastHash (db : Db ι) : Option UInt64 := db.schemaVersions.bind List.getLast?

/-- A database agrees with a context: the registered tables are those with an
`algo` row, and the hash is the last one. -/
structure Context.Matches (data : Context ι) (db : Db ι) : Prop where
  registered : ∀ t, data.tables t ≠ none ↔ (db.algo t).isSome
  hash : ∀ h, db.lastHash = some h → data.schemaHash = h

namespace Session
variable [DecidableEq ι] (s : Session ι)

/-- The context agrees with its own database. -/
def Matches (s : Session ι) : Prop := s.data.Matches s.db

/-- The schema hash is kept or read again. -/
structure SameHash (s t : Session ι) : Prop where
  stored : t.db.lastHash = s.db.lastHash
  cached : t.data.schemaHash = s.data.schemaHash ∨ t.data.schemaHash = s.db.schemaHash

namespace SameHash
variable {s t u : Session ι}

omit [DecidableEq ι] in
theorem refl (s : Session ι) : SameHash s s := ⟨rfl, .inl rfl⟩

omit [DecidableEq ι] in
theorem trans (h : SameHash s t) (h' : SameHash t u) : SameHash s u := by
  refine ⟨h'.stored.trans h.stored, ?_⟩
  rcases h'.cached with hkept | hread
  · rw [hkept]
    exact h.cached
  · right
    rw [hread]
    exact congrArg (fun hash => hash.getD 0) h.stored

omit [DecidableEq ι] in
theorem hash (h : SameHash s t) {value : UInt64} (hs : s.db.lastHash = some value)
    (hcached : s.data.schemaHash = value) : t.data.schemaHash = value := by
  rcases h.cached with hkept | hread
  · rw [hkept, hcached]
  · rw [hread]
    change s.db.lastHash.getD 0 = value
    rw [hs, Option.getD_some]

end SameHash

omit [DecidableEq ι] in
theorem createSiteId_schemaVersions (inp : ContextInput ι) :
    (s.createSiteId inp).2.db.schemaVersions = s.db.schemaVersions := by
  rw [createSiteId]
  cases s.db.siteId <;> cases inp.uuid <;> rfl

omit [DecidableEq ι] in
theorem dbutilsSettingsInit_hash (inp : ContextInput ι) :
    SameHash s (s.dbutilsSettingsInit inp).2 := by
  rw [dbutilsSettingsInit]
  cases inp.settings with
  | false => exact .refl s
  | true =>
    rw [if_pos rfl]
    have hsite : SameHash s (s.createSiteId inp).2 :=
      ⟨congrArg (fun hashes => hashes.bind List.getLast?) (s.createSiteId_schemaVersions inp),
        .inl (congrArg Context.schemaHash (s.createSiteId_data inp))⟩
    refine Outcome.andThen_keeps (SameHash s) hsite fun t ht => ?_
    cases inp.tables with
    | false => exact ht
    | true =>
      refine ht.trans ⟨?_, .inl rfl⟩
      change (some (t.db.schemaVersions.getD [])).bind List.getLast? = t.db.lastHash
      rw [Db.lastHash]
      cases t.db.schemaVersions <;> rfl

omit [DecidableEq ι] in
theorem cloudsyncContextInit_hash (inp : ContextInput ι) :
    SameHash s (s.cloudsyncContextInit inp).2 := by
  rw [cloudsyncContextInit]
  refine Outcome.andThen_keeps (SameHash s) ?_ fun _ h => h.trans ⟨rfl, .inl rfl⟩
  by_cases hinit : ¬ s.data.siteId.IsSet ∨ s.db.siteId = none
  · rw [if_pos hinit]
    refine Outcome.andThen_keeps (SameHash s) (s.dbutilsSettingsInit_hash inp) fun t ht => ?_
    cases inp.stmts with
    | false => exact ht
    | true =>
      refine ht.trans ⟨?_, .inr ?_⟩
      · change t.cloudsyncLoadSiteid.db.lastHash = _
        rw [t.cloudsyncLoadSiteid_db]
      · change t.cloudsyncLoadSiteid.db.schemaHash = _
        rw [t.cloudsyncLoadSiteid_db]
  · rw [if_neg hinit]
    exact .refl s

omit [DecidableEq ι] in
theorem dbutilsSettingsLoad_tables {s : Session ι}
    (hs : ∀ t, (s.db.algo t).isSome → s.data.tables t ≠ none) (inp : ContextInput ι) :
    (s.dbutilsSettingsLoad inp).data.tables = s.data.tables := by
  funext t
  change (s.data.tables t).or _ = _
  cases htable : s.data.tables t with
  | some table => rfl
  | none =>
    rw [Option.none_or, if_neg]
    rintro ⟨halgo, -⟩
    exact hs t halgo htable

omit [DecidableEq ι] in
theorem contextInit_tables_eq {s : Session ι}
    (hs : ∀ t, (s.db.algo t).isSome → s.data.tables t ≠ none) (inp : ContextInput ι) :
    (s.cloudsyncContextInit inp).2.data.tables = s.data.tables := by
  rcases s.cloudsyncContextInit_tables inp with hsame | hload
  · exact hsame
  · rw [hload, dbutilsSettingsLoad_tables hs]

omit [DecidableEq ι] in
theorem Matches.contextInit {s : Session ι} (hs : s.Matches) (inp : ContextInput ι) :
    (s.cloudsyncContextInit inp).2.Matches := by
  have hhash := s.cloudsyncContextInit_hash inp
  refine ⟨fun t => ?_, fun h hlast => ?_⟩
  · rw [contextInit_tables_eq (fun t => (hs.registered t).mpr), cloudsyncContextInit_algo]
    exact hs.registered t
  · rw [hhash.stored] at hlast
    exact hhash.hash hlast (hs.hash h hlast)

def Configured (s : Session ι) : Prop :=
  s.data.siteId.IsSet → s.db.siteId ≠ none → s.db.algos ≠ none

omit [DecidableEq ι] in
theorem dbutilsSettingsInit_algos {s : Session ι} {inp : ContextInput ι}
    (h : (s.dbutilsSettingsInit inp).1 = .ok ()) : (s.dbutilsSettingsInit inp).2.db.algos ≠ none := by
  rw [dbutilsSettingsInit] at h ⊢
  cases hsettings : inp.settings with
  | false =>
    rw [hsettings] at h
    cases h
  | true =>
    rw [hsettings, if_pos rfl] at h
    rw [if_pos rfl]
    generalize s.createSiteId inp = x at h ⊢
    rcases x with ⟨err | ⟨⟩, t⟩
    · cases h
    · cases htables : inp.tables with
      | false =>
        rw [htables] at h
        cases h
      | true => exact Option.some_ne_none _

omit [DecidableEq ι] in
theorem Configured.contextInit {s : Session ι} (hs : s.Configured) {inp : ContextInput ι}
    (h : (s.cloudsyncContextInit inp).1 = .ok ()) :
    (s.cloudsyncContextInit inp).2.db.algos ≠ none := by
  rw [cloudsyncContextInit] at h ⊢
  by_cases hinit : ¬ s.data.siteId.IsSet ∨ s.db.siteId = none
  · rw [if_pos hinit, Outcome.andThen_fst_ok, Outcome.andThen_fst_ok] at h
    rw [if_pos hinit]
    have halgos := dbutilsSettingsInit_algos h.1.1
    refine Outcome.andThen_keeps (fun t : Session ι => t.db.algos ≠ none) ?_ fun _ h => h
    refine Outcome.andThen_keeps (fun t : Session ι => t.db.algos ≠ none) halgos fun t ht => ?_
    cases inp.stmts with
    | false => exact ht
    | true =>
      change t.cloudsyncLoadSiteid.db.algos ≠ none
      rwa [t.cloudsyncLoadSiteid_db]
  · rw [if_neg hinit]
    rw [not_or, not_not] at hinit
    exact hs hinit.1 hinit.2

/-- What a call of `cloudsync_init_internal` leaves of the registry and of the
settings, whether it succeeds or not. -/
structure InitLeaves (inp : InitInput ι) (s t : Session ι) : Prop where
  kept : ∀ i, s.data.tables i ≠ none → t.data.tables i ≠ none
  registered : ∀ i, t.data.tables i ≠ none → s.data.tables i ≠ none ∨ (s.db.algo i).isSome ∨
    i = inp.table ∧ s.Completes { inp with refill := true }
  algo_ne : ∀ i ≠ inp.table, t.db.algo i = s.db.algo i
  hash : SameHash s t

theorem setTable_tables_self (t : ι) (table : Option Bool) :
    (s.setTable t table).data.tables t = table := by
  rw [Session.setTable]
  exact Function.update_self t table s.data.tables

theorem setTable_tables_ne {i t : ι} (h : i ≠ t) (table : Option Bool) :
    (s.setTable t table).data.tables i = s.data.tables i := by
  rw [Session.setTable]
  exact Function.update_of_ne h table s.data.tables

theorem setAlgo_algo_ne {i t : ι} (h : i ≠ t) (algo : Option TableAlgo) :
    (s.setAlgo t algo).db.algo i = s.db.algo i := by
  change ((s.db.algos.map _).bind _ : Option TableAlgo) = s.db.algos.bind _
  cases s.db.algos with
  | none => rfl
  | some algos => exact Function.update_of_ne h algo algos

theorem setAlgo_algo_self {s : Session ι} (h : s.db.algos ≠ none) (t : ι)
    (algo : Option TableAlgo) : (s.setAlgo t algo).db.algo t = algo := by
  rcases Option.ne_none_iff_exists'.mp h with ⟨algos, halgos⟩
  change ((s.db.algos.map _).bind _ : Option TableAlgo) = _
  rw [halgos]
  exact Function.update_self t algo algos

theorem checkAlgo_algo_ne {inp : InitInput ι} {i : ι} (h : i ≠ inp.table) :
    (s.checkAlgo inp).2.db.algo i = s.db.algo i := by
  rw [checkAlgo]
  split_ifs
  · rfl
  · rfl
  · exact s.setAlgo_algo_ne h (some inp.algo)
  · rfl
  · rfl

/-- A table that passes the check has an `algo` row, unless the row is missing and
cannot be written. -/
theorem checkAlgo_algo_self {s : Session ι} (hs : s.db.algos ≠ none) {inp : InitInput ι}
    (h : (s.checkAlgo inp).1 = .ok ()) (hrow : (s.db.algo inp.table).isSome ∨ inp.written) :
    ((s.checkAlgo inp).2.db.algo inp.table).isSome := by
  rw [checkAlgo_fst] at h
  rw [checkAlgo, if_neg h.1]
  split_ifs with hsame hnone hwritten
  · by_contra hmissing
    apply h.1
    rw [hsame, Db.getAlgo, Option.not_isSome_iff_eq_none.mp hmissing, Option.getD_none]
  · change ((s.setAlgo inp.table (some inp.algo)).db.algo inp.table).isSome
    rw [setAlgo_algo_self hs]
    rfl
  · exact hrow.resolve_right hwritten
  · exact (h.2.elim hnone hsame).elim

theorem checkAlgo_hash (inp : InitInput ι) : SameHash s (s.checkAlgo inp).2 := by
  rw [checkAlgo]
  split_ifs <;> exact ⟨rfl, .inl rfl⟩

omit [DecidableEq ι] in
/-- `cloudsync_context_init` registers no table that is not in the settings. -/
theorem contextInit_only (inp : ContextInput ι) {i : ι}
    (h : (s.cloudsyncContextInit inp).2.data.tables i ≠ none) :
    s.data.tables i ≠ none ∨ (s.db.algo i).isSome := by
  rcases s.cloudsyncContextInit_tables inp with hsame | hload
  · exact .inl (hsame ▸ h)
  · rw [hload] at h
    by_cases htable : s.data.tables i = none
    · right
      by_contra hmissing
      apply h
      change (s.data.tables i).or _ = none
      rw [htable, Option.none_or, if_neg fun h => hmissing h.1]
    · exact .inl htable

omit [DecidableEq ι] in
theorem contextInit_leaves (inp : InitInput ι) :
    InitLeaves inp s (s.cloudsyncContextInit inp.context).2 := by
  refine ⟨fun i => s.contextInit_registered inp.context, fun i hi => ?_, fun i _ => ?_,
    s.cloudsyncContextInit_hash inp.context⟩
  · exact (s.contextInit_only inp.context hi).imp_right .inl
  · rw [cloudsyncContextInit_algo]

namespace InitLeaves
variable {s t : Session ι} {inp : InitInput ι}

omit [DecidableEq ι] in
theorem refl (s : Session ι) (inp : InitInput ι) : InitLeaves inp s s :=
  ⟨fun _ h => h, fun _ h => .inl h, fun _ _ => rfl, .refl s⟩

theorem checkAlgo (h : InitLeaves inp s t) : InitLeaves inp s (t.checkAlgo inp).2 := by
  refine ⟨fun i hi => ?_, fun i hi => ?_, fun i hi => ?_, h.hash.trans (t.checkAlgo_hash inp)⟩
  · rw [checkAlgo_tables]
    exact h.kept i hi
  · rw [checkAlgo_tables] at hi
    exact h.registered i hi
  · rw [checkAlgo_algo_ne t hi, h.algo_ne i hi]

theorem setTable (h : InitLeaves inp s t) (hs : s.Completes { inp with refill := true })
    (b : Bool) : InitLeaves inp s (t.setTable inp.table (some b)) := by
  refine ⟨fun i hi => ?_, fun i hi => ?_, h.algo_ne, h.hash.trans ⟨rfl, .inl rfl⟩⟩
  · by_cases heq : i = inp.table
    · rw [heq, setTable_tables_self]
      exact Option.some_ne_none b
    · rw [setTable_tables_ne _ heq]
      exact h.kept i hi
  · by_cases heq : i = inp.table
    · exact .inr (.inr ⟨heq, hs⟩)
    · rw [setTable_tables_ne _ heq] at hi
      exact h.registered i hi

end InitLeaves

/-- One more table may be registered, when all the checks before are passed. -/
theorem initInternal_leaves (inp : InitInput ι) :
    InitLeaves inp s (s.cloudsyncInitInternal inp).2 := by
  rw [cloudsyncInitInternal]
  rcases hsanity : inp.sanity with err | ⟨⟩
  · exact .refl s inp
  have hctx := s.contextInit_leaves inp
  have hinits := s.cloudsyncContextInit_fst inp.context
  have halgo := s.cloudsyncContextInit_algo inp.context
  dsimp only
  generalize s.cloudsyncContextInit inp.context = x at hctx hinits halgo ⊢
  rcases x with ⟨err | ⟨⟩, u⟩
  · exact hctx
  have hcheck := u.checkAlgo_fst inp
  have hleaves := hctx.checkAlgo
  rw [Outcome.andThen_ok]
  generalize u.checkAlgo inp = y at hcheck hleaves ⊢
  rcases y with ⟨err | ⟨⟩, v⟩
  · exact hleaves
  rw [Outcome.andThen_ok]
  cases hstmts : inp.stmts with
  | false => exact hleaves
  | true =>
    rw [if_pos rfl, tableAddToContext]
    by_cases hreg : v.data.tables inp.table ≠ none
    · rw [if_pos hreg]
      cases inp.refill <;> exact hleaves
    rw [if_neg hreg]
    cases hadd : inp.addable with
    | false => exact hleaves
    | true =>
      have hcompletes : s.Completes { inp with refill := true } := by
        rcases hcheck.mp rfl with ⟨hnone, hcurrent⟩
        rw [Db.getAlgo, halgo] at hcurrent
        exact ⟨hsanity, hinits.mp rfl, hnone, hcurrent, hstmts, .inr hadd, rfl⟩
      have hset := hleaves.setTable hcompletes false
      cases inp.refill <;> exact hset

/-- A call that succeeds leaves its table registered, and in the settings if the
`algo` row is there or can be written. -/
theorem initInternal_ok {inp : InitInput ι} (h : (s.cloudsyncInitInternal inp).1 = .ok ()) :
    (s.cloudsyncInitInternal inp).2.data.tables inp.table ≠ none ∧
      (s.Configured → (s.db.algo inp.table).isSome ∨ inp.written →
        ((s.cloudsyncInitInternal inp).2.db.algo inp.table).isSome) := by
  rw [cloudsyncInitInternal] at h ⊢
  rcases hsanity : inp.sanity with err | ⟨⟩
  · rw [hsanity] at h
    cases h
  rw [hsanity] at h
  dsimp only at h ⊢
  have halgos := fun hs : s.Configured => @Configured.contextInit ι s hs inp.context
  have hstored := s.cloudsyncContextInit_algo inp.context
  generalize s.cloudsyncContextInit inp.context = x at h halgos hstored ⊢
  rcases x with ⟨err | ⟨⟩, u⟩
  · cases h
  rw [Outcome.andThen_ok] at h ⊢
  have halgo := fun hu : u.db.algos ≠ none => @checkAlgo_algo_self ι _ u hu inp
  rw [hstored] at halgo
  generalize u.checkAlgo inp = y at h halgo ⊢
  rcases y with ⟨err | ⟨⟩, v⟩
  · cases h
  rw [Outcome.andThen_ok] at h ⊢
  cases hstmts : inp.stmts with
  | false =>
    rw [hstmts] at h
    cases h
  | true =>
    rw [hstmts, if_pos rfl, tableAddToContext] at h
    rw [if_pos rfl, tableAddToContext]
    have hrow := fun (hs : s.Configured) hwritten => halgo (halgos hs rfl) rfl hwritten
    by_cases hreg : v.data.tables inp.table ≠ none
    · rw [if_pos hreg] at h ⊢
      cases inp.refill <;> exact ⟨hreg, hrow⟩
    · rw [if_neg hreg] at h ⊢
      cases hadd : inp.addable with
      | false =>
        rw [hadd] at h
        cases h
      | true =>
        have hset : (v.setTable inp.table (some false)).data.tables inp.table ≠ none := by
          rw [setTable_tables_self]
          exact Option.some_ne_none false
        cases inp.refill <;> exact ⟨hset, hrow⟩

/-- What is left does not depend on whether the metadata could be refilled. -/
theorem initInternal_refill (inp : InitInput ι) : (s.cloudsyncInitInternal inp).2 =
    (s.cloudsyncInitInternal { inp with refill := true }).2 := by
  rcases inp with ⟨table, algo, err | ⟨⟩, context, written, stmts, addable, refill⟩
  · rfl
  have hcheck (u : Session ι) :
      u.checkAlgo ⟨table, algo, .ok (), context, written, stmts, addable, true⟩ =
        u.checkAlgo ⟨table, algo, .ok (), context, written, stmts, addable, refill⟩ := rfl
  have hadd (u : Session ι) :
      u.tableAddToContext ⟨table, algo, .ok (), context, written, stmts, addable, true⟩ =
        u.tableAddToContext ⟨table, algo, .ok (), context, written, stmts, addable, refill⟩ := rfl
  simp only [cloudsyncInitInternal, hcheck, hadd]
  rcases s.cloudsyncContextInit context with ⟨err | ⟨⟩, u⟩
  · rfl
  rw [Outcome.andThen_ok, Outcome.andThen_ok]
  rcases u.checkAlgo ⟨table, algo, .ok (), context, written, stmts, addable, refill⟩
    with ⟨err | ⟨⟩, v⟩
  · rfl
  rw [Outcome.andThen_ok, Outcome.andThen_ok]
  cases stmts with
  | false => rfl
  | true =>
    rw [if_pos rfl, if_pos rfl]
    rcases v.tableAddToContext _ with ⟨err | ⟨⟩, w⟩
    · rfl
    · cases refill <;> rfl

/-- A call that fails only when it refills the metadata has registered its table, too. -/
theorem initInternal_added (inp : InitInput ι) (h : s.Completes { inp with refill := true }) :
    (s.cloudsyncInitInternal inp).2.data.tables inp.table ≠ none ∧
      (s.Configured → (s.db.algo inp.table).isSome ∨ inp.written →
        ((s.cloudsyncInitInternal inp).2.db.algo inp.table).isSome) := by
  rw [initInternal_refill]
  exact s.initInternal_ok h.ok

omit [DecidableEq ι] in
theorem completes_of_refill (inp : InitInput ι) (h : s.Completes { inp with refill := true })
    (hrefill : inp.refill) : s.Completes inp :=
  ⟨h.sanity, h.context, h.algo, h.current, h.stmts, h.addable, hrefill⟩

section
variable {s : Session ι}

/-- After a call that registers its table and configures it all agrees again. -/
theorem InitLeaves.matches {t : Session ι} {inp : InitInput ι} (h : InitLeaves inp s t)
    (hs : ∀ i ≠ inp.table, s.data.tables i ≠ none ↔ (s.db.algo i).isSome)
    (hhash : ∀ value, s.db.lastHash = some value → s.data.schemaHash = value)
    (hself : t.data.tables inp.table ≠ none ∧ (t.db.algo inp.table).isSome) : t.Matches := by
  refine ⟨fun i => ?_, fun value hvalue => ?_⟩
  · by_cases heq : i = inp.table
    · rw [heq]
      exact iff_of_true hself.1 hself.2
    · rw [h.algo_ne i heq, ← hs i heq]
      refine ⟨fun hi => ?_, h.kept i⟩
      rcases h.registered i hi with hreg | halgo | ⟨htable, -⟩
      · exact hreg
      · exact (hs i heq).mpr halgo
      · exact (heq htable).elim
  · rw [h.hash.stored] at hvalue
    exact h.hash.hash hvalue (hhash value hvalue)

theorem Matches.initInternal_ok (hs : s.Matches) (hconf : s.Configured) {inp : InitInput ι}
    (h : (s.cloudsyncInitInternal inp).1 = .ok ())
    (hrow : s.data.tables inp.table ≠ none ∨ inp.written) :
    (s.cloudsyncInitInternal inp).2.Matches := by
  rcases s.initInternal_ok h with ⟨hreg, halgo⟩
  exact (s.initInternal_leaves inp).matches (fun i _ => hs.registered i) hs.hash
    ⟨hreg, halgo hconf (hrow.imp_left (hs.registered inp.table).mp)⟩

/-- A call that fails is undone in the database; the context still agrees with
it unless the call has registered a table. -/
theorem Matches.initInternal_rollback (hs : s.Matches) {inp : InitInput ι}
    (h : s.Completes { inp with refill := true } → s.data.tables inp.table ≠ none) :
    (s.cloudsyncInitInternal inp).2.data.Matches s.db := by
  have hleaves := s.initInternal_leaves inp
  refine ⟨fun i => ?_, fun value hvalue => hleaves.hash.hash hvalue (hs.hash value hvalue)⟩
  rw [← hs.registered i]
  refine ⟨fun hi => ?_, hleaves.kept i⟩
  rcases hleaves.registered i hi with hreg | halgo | ⟨rfl, hcompletes⟩
  · exact hreg
  · exact (hs.registered i).mpr halgo
  · exact h hcompletes

omit [DecidableEq ι] in
theorem Matches.updateSchemaHash (hs : s.Matches) (hash : String → UInt64) :
    (s.dbutilsUpdateSchemaHash hash).Matches := by
  rw [dbutilsUpdateSchemaHash]
  cases s.db.schemaText with
  | none => exact hs
  | some text =>
    dsimp only
    split_ifs
    · exact hs
    · cases hversions : s.db.schemaVersions with
      | none => exact hs
      | some hashes =>
        refine ⟨hs.registered, fun value hvalue => ?_⟩
        change (some (_ ++ [hash text])).bind List.getLast? = _ at hvalue
        rw [Option.bind_some, List.getLast?_append_of_ne_nil _ (List.cons_ne_nil _ _),
          List.getLast?_singleton] at hvalue
        exact Option.some_inj.mp hvalue

theorem setAlgo_none_algo (t : ι) : (s.setAlgo t none).db.algo t = none := by
  change ((s.db.algos.map _).bind _ : Option TableAlgo) = _
  cases s.db.algos with
  | none => rfl
  | some algos => exact Function.update_self t none algos

/-- What a call of `cloudsync_cleanup_internal` leaves of the registry. -/
structure CleanupLeaves (inp : CleanupInput ι) (s t : Session ι) : Prop where
  kept : ∀ i ≠ inp.table, s.data.tables i ≠ none → t.data.tables i ≠ none
  registered : ∀ i, t.data.tables i ≠ none → s.data.tables i ≠ none ∨ (s.db.algo i).isSome
  dropped : s.ContextInits inp.context → t.data.tables inp.table = none
  failed : ¬ s.ContextInits inp.context → s.data.tables inp.table ≠ none →
    t.data.tables inp.table ≠ none
  hash : SameHash s t

theorem cleanupInternal_leaves (s : Session ι) (inp : CleanupInput ι) :
    CleanupLeaves inp s (s.cloudsyncCleanupInternal inp).2 := by
  rw [cloudsyncCleanupInternal]
  have hinits := s.cloudsyncContextInit_fst inp.context
  have hkept := fun i => s.contextInit_registered inp.context (t := i)
  have hhash := s.cloudsyncContextInit_hash inp.context
  have honly := fun i => s.contextInit_only inp.context (i := i)
  generalize s.cloudsyncContextInit inp.context = x at hinits hkept hhash honly ⊢
  rcases x with ⟨err | ⟨⟩, u⟩
  · refine ⟨fun i _ => hkept i, honly, fun h => ?_, fun _ => hkept inp.table, hhash⟩
    cases hinits.mpr h
  rw [Outcome.andThen_ok]
  by_cases hnone : u.data.tables inp.table = none
  · rw [if_pos hnone]
    exact ⟨fun i _ => hkept i, honly, fun _ => hnone, fun _ => hkept inp.table, hhash⟩
  · rw [if_neg hnone]
    have hset : CleanupLeaves inp s (u.setTable inp.table none) := by
      refine ⟨fun i hi h => ?_, fun i hi => ?_, fun _ => u.setTable_tables_self inp.table none,
        fun hfail => (hfail (hinits.mp rfl)).elim, hhash.trans ⟨rfl, .inl rfl⟩⟩
      · rw [setTable_tables_ne _ hi]
        exact hkept i h
      · by_cases heq : i = inp.table
        · rw [heq, setTable_tables_self] at hi
          exact (hi rfl).elim
        · rw [setTable_tables_ne _ heq] at hi
          exact honly i hi
    cases inp.drop with
    | false => exact hset
    | true =>
      cases inp.deleted with
      | false => exact hset
      | true => exact ⟨hset.kept, hset.registered, hset.dropped, hset.failed,
          hset.hash.trans ⟨rfl, .inl rfl⟩⟩

/-- The table leaves the registry and the settings, unless its metadata cannot be
dropped or its settings cannot be deleted. -/
theorem Matches.cleanupInternal (hs : s.Matches) {inp : CleanupInput ι}
    (h : (inp.drop ∧ inp.deleted) ∨ s.data.tables inp.table = none ∨
      ¬ s.ContextInits inp.context) :
    (s.cloudsyncCleanupInternal inp).2.Matches := by
  have hctx := hs.contextInit inp.context
  have htables := contextInit_tables_eq (fun t => (hs.registered t).mpr) inp.context
  have hinits := s.cloudsyncContextInit_fst inp.context
  rw [cloudsyncCleanupInternal]
  generalize s.cloudsyncContextInit inp.context = x at hctx htables hinits ⊢
  rcases x with ⟨err | ⟨⟩, u⟩
  · exact hctx
  rw [Outcome.andThen_ok]
  by_cases hnone : u.data.tables inp.table = none
  · rw [if_pos hnone]
    exact hctx
  · rw [if_neg hnone]
    have hdrop : inp.drop ∧ inp.deleted := by
      rcases h with hdrop | hmissing | hfail
      · exact hdrop
      · exact (hnone (htables ▸ hmissing)).elim
      · exact (hfail (hinits.mp rfl)).elim
    rw [hdrop.1, hdrop.2]
    refine ⟨fun i => ?_, fun value hvalue => hctx.hash value hvalue⟩
    by_cases heq : i = inp.table
    · rw [heq]
      refine iff_of_false (fun hne => hne (u.setTable_tables_self inp.table none)) ?_
      rw [if_pos rfl, if_pos rfl]
      change ¬ (((u.setTable inp.table none).setAlgo inp.table none).db.algo inp.table).isSome
      rw [setAlgo_none_algo]
      exact Bool.false_ne_true
    · change (u.setTable inp.table none).data.tables i ≠ none ↔ _
      rw [setTable_tables_ne _ heq, if_pos rfl, if_pos rfl]
      change _ ↔ (((u.setTable inp.table none).setAlgo inp.table none).db.algo i).isSome
      rw [setAlgo_algo_ne _ heq]
      exact hctx.registered i

theorem cleanupInternal_inits (s : Session ι) (inp : CleanupInput ι)
    (h : (s.cloudsyncCleanupInternal inp).1 = .ok ()) : s.ContextInits inp.context := by
  rw [cloudsyncCleanupInternal, Outcome.andThen_fst_ok] at h
  exact (s.cloudsyncContextInit_fst inp.context).mp h.1

/-- The loop keeps the agreement, and where it cleans up every table of its
list none of them stays registered. -/
theorem Matches.cleanupEach (hs : s.Matches) {rows : List (CleanupInput ι)}
    (h : ∀ row ∈ rows, (row.drop ∧ row.deleted) ∨ s.data.tables row.table = none) :
    (cleanupEach s rows).2.Matches ∧
      (∀ i, (cleanupEach s rows).2.data.tables i ≠ none → s.data.tables i ≠ none) ∧
      ((cleanupEach s rows).1 = true →
        ∀ row ∈ rows, (cleanupEach s rows).2.data.tables row.table = none) := by
  induction rows generalizing s with
  | nil => exact ⟨hs, fun _ hi => hi, fun _ _ hrow => by cases hrow⟩
  | cons row rows ih =>
    have hrow := hs.cleanupInternal ((h row List.mem_cons_self).imp_right .inl)
    have hleaves := cleanupInternal_leaves s row
    have hinits := s.cleanupInternal_inits row
    have honly : ∀ i, (s.cloudsyncCleanupInternal row).2.data.tables i ≠ none →
        s.data.tables i ≠ none :=
      fun i hi => (hleaves.registered i hi).elim id (hs.registered i).mpr
    have hrest : ∀ r ∈ rows, (r.drop ∧ r.deleted) ∨
        (s.cloudsyncCleanupInternal row).2.data.tables r.table = none := by
      intro r hr
      refine (h r (List.mem_cons_of_mem row hr)).imp_right fun hmissing => ?_
      by_contra hne
      exact honly r.table hne hmissing
    have hdropped := hleaves.dropped
    rw [Session.cleanupEach]
    generalize s.cloudsyncCleanupInternal row = x at hrow hinits honly hrest hdropped ⊢
    rcases x with ⟨err | ⟨⟩, t⟩
    · rcases ih hrow hrest with ⟨hmatches, hsub, -⟩
      exact ⟨hmatches, fun i hi => honly i (hsub i hi), fun hfalse => by cases hfalse⟩
    · rcases ih hrow hrest with ⟨hmatches, hsub, hall⟩
      refine ⟨hmatches, fun i hi => honly i (hsub i hi), fun htrue => ?_⟩
      refine List.forall_mem_cons.mpr ⟨?_, hall htrue⟩
      by_contra hne
      exact hsub row.table hne (hdropped (hinits rfl))

/-- Where no table is registered any more it does not matter how many of the tables
of the extension can be dropped. -/
theorem Matches.cleanupAll (hs : s.Matches) {rows : List (CleanupInput ι)} (drops : ℕ)
    (h : ∀ row ∈ rows, (row.drop ∧ row.deleted) ∨ s.data.tables row.table = none)
    (hall : rows ≠ [] → ∀ i, s.data.tables i ≠ none → ∃ row ∈ rows, row.table = i) :
    (s.cloudsyncCleanupAll rows drops).Matches := by
  rcases hs.cleanupEach h with ⟨hmatches, hsub, hdropped⟩
  rw [cloudsyncCleanupAll]
  by_cases hrows : rows = []
  · rw [hrows]
    exact hs
  rw [if_neg (mt List.isEmpty_iff.mp hrows)]
  generalize Session.cleanupEach s rows = x at hmatches hsub hdropped ⊢
  rcases x with ⟨_ | _, t⟩
  · exact hmatches
  · have hnone : ∀ i, t.data.tables i = none := by
      intro i
      by_contra hi
      rcases hall hrows i (hsub i hi) with ⟨row, hrow, rfl⟩
      exact hi (hdropped rfl row hrow)
    refine ⟨fun i => iff_of_false (fun hi => hi (hnone i)) ?_, fun value hvalue => ?_⟩
    · change ¬ ((if 3 ≤ drops then none else t.db.algos).bind fun algos => algos i).isSome
      split_ifs
      · exact Bool.false_ne_true
      · exact mt (hmatches.registered i).mpr (not_not.mpr (hnone i))
    · change (if 4 ≤ drops then none else t.db.schemaVersions).bind List.getLast? = _ at hvalue
      split_ifs at hvalue
      · cases hvalue
      · exact hmatches.hash value hvalue

theorem Matches.cleanup (hash : String → UInt64) {target : CleanupTarget ι}
    (h : (s.cleanupTarget target).Matches) : (s.cloudsyncCleanup hash target).Matches := by
  rw [cloudsyncCleanup]
  split_ifs
  · exact h
  · exact h.updateSchemaHash hash

/-- A call of `cloudsync_init_all` fails, or its savepoint is not `released`, and
leaves the registry as it was: the tables it had completed were registered before,
and the one that fails was not, if the cleanup gets to remove it from the registry. -/
def FailsClean (registered : ι → Option Bool) (released : Bool) :
    Session ι → List (InitAllRow ι) → Prop
  | _, [] => released = false
  | s, row :: rows =>
    let t := (s.cloudsyncInitInternal row.toInitInput).2
    s.Completes row.toInitInput ∧ registered row.table ≠ none ∧
        FailsClean registered released t rows ∨
      ¬ s.Completes row.toInitInput ∧
        (registered row.table = none → t.ContextInits row.cleanupContext ∨
          ¬ (row.sanity = .ok () ∧ s.ContextInits row.context)) ∧
        (registered row.table ≠ none → ¬ t.ContextInits row.cleanupContext)

theorem Matches.completes_of_ok (hs : s.Matches) {inp : InitInput ι}
    (h : (s.cloudsyncInitInternal inp).1 = .ok ()) : s.Completes inp := by
  have htables := contextInit_tables_eq (fun t => (hs.registered t).mpr) inp.context
  have hinits := s.cloudsyncContextInit_fst inp.context
  have halgo := s.cloudsyncContextInit_algo inp.context
  rw [cloudsyncInitInternal] at h
  rcases hsanity : inp.sanity with err | ⟨⟩
  · rw [hsanity] at h
    cases h
  rw [hsanity] at h
  dsimp only at h
  generalize s.cloudsyncContextInit inp.context = x at h htables hinits halgo
  rw [Outcome.andThen_fst_ok, Outcome.andThen_fst_ok, checkAlgo_fst, Db.getAlgo, halgo] at h
  rcases h with ⟨hctx, ⟨hnone, hcurrent⟩, h⟩
  cases hstmts : inp.stmts with
  | false =>
    rw [hstmts] at h
    cases h
  | true =>
    rw [hstmts, if_pos rfl, Outcome.andThen_fst_ok, tableAddToContext, checkAlgo_tables,
      htables] at h
    refine ⟨hsanity, hinits.mp hctx, hnone, hcurrent, hstmts, ?_, ?_⟩
    · rw [or_iff_not_imp_left]
      intro hreg
      rw [if_neg hreg] at h
      by_contra hadd
      rw [if_neg hadd] at h
      cases h.1
    · by_contra hrefill
      rw [if_neg hrefill] at h
      cases h.2

omit [DecidableEq ι] in
theorem configured_of_algo {t : ι} (h : (s.db.algo t).isSome) : s.Configured := by
  intro _ _ hnone
  rw [Db.algo, hnone] at h
  cases h

theorem Matches.initAll_ok (hs : s.Matches) (hconf : s.Configured) {rows : List (InitAllRow ι)}
    (h : s.CompletesAll rows)
    (hwritten : ∀ row ∈ rows, s.data.tables row.table ≠ none ∨ row.written) :
    (cloudsyncInitAll s rows).2.Matches := by
  induction rows generalizing s with
  | nil => exact hs
  | cons row rows ih =>
    have hok := h.1.ok
    have hself := hwritten row List.mem_cons_self
    have hrow := hs.initInternal_ok hconf hok hself
    have halgo := (s.initInternal_ok hok).2 hconf
      (hself.imp_left (hs.registered row.table).mp)
    have hkept := (s.initInternal_leaves row.toInitInput).kept
    have hrest := h.2
    rw [cloudsyncInitAll]
    generalize s.cloudsyncInitInternal row.toInitInput = x at hok hrow halgo hkept hrest ⊢
    rcases x with ⟨_, t⟩
    cases hok
    exact ih hrow (configured_of_algo halgo) hrest fun r hr =>
      (hwritten r (List.mem_cons_of_mem row hr)).imp_left (hkept r.table)

/-- A call that fails before it has a context changes neither side. -/
theorem Matches.initInternal_not_inits (hs : s.Matches) {inp : InitInput ι}
    (h : ¬ (inp.sanity = .ok () ∧ s.ContextInits inp.context)) :
    (s.cloudsyncInitInternal inp).2.data.tables = s.data.tables ∧
      (s.cloudsyncInitInternal inp).2.db.algo = s.db.algo := by
  have htables := contextInit_tables_eq (fun t => (hs.registered t).mpr) inp.context
  have hinits := s.cloudsyncContextInit_fst inp.context
  have halgo := s.cloudsyncContextInit_algo inp.context
  rw [cloudsyncInitInternal]
  rcases hsanity : inp.sanity with err | ⟨⟩
  · exact ⟨rfl, rfl⟩
  dsimp only
  generalize s.cloudsyncContextInit inp.context = x at htables hinits halgo ⊢
  rcases x with ⟨err | ⟨⟩, u⟩
  · exact ⟨htables, halgo⟩
  · exact (h ⟨hsanity, hinits.mp rfl⟩).elim

/-- The table that fails, after its cleanup: the others are as they were, and it
is registered if it was before. -/
theorem Matches.cleanup_failed (hs : s.Matches) {row : InitAllRow ι}
    (hnew : s.data.tables row.table = none →
      (s.cloudsyncInitInternal row.toInitInput).2.ContextInits row.cleanupContext ∨
        ¬ (row.sanity = .ok () ∧ s.ContextInits row.context))
    (hold : s.data.tables row.table ≠ none →
      ¬ (s.cloudsyncInitInternal row.toInitInput).2.ContextInits row.cleanupContext) (i : ι) :
    ((s.cloudsyncInitInternal row.toInitInput).2.cloudsyncCleanupInternal
      row.cleanup).2.data.tables i ≠ none ↔
        s.data.tables i ≠ none := by
  have hinit := s.initInternal_leaves row.toInitInput
  have hcleanup := cleanupInternal_leaves (s.cloudsyncInitInternal row.toInitInput).2 row.cleanup
  by_cases heq : i = row.table
  · subst heq
    by_cases htable : s.data.tables row.table = none
    · refine iff_of_false (fun hne => ?_) (fun hne => hne htable)
      rcases hnew htable with hinits | hfail
      · exact hne (hcleanup.dropped hinits)
      · rcases hs.initInternal_not_inits hfail with ⟨htables, halgo⟩
        have hreg := hcleanup.registered row.table hne
        rw [htables, halgo, ← hs.registered, or_self] at hreg
        exact hreg htable
    · exact iff_of_true (hcleanup.failed (hold htable) (hinit.kept row.table htable)) htable
  · refine ⟨fun hne => ?_, fun hne => hcleanup.kept i heq (hinit.kept i hne)⟩
    rcases hcleanup.registered i hne with hreg | halgo
    · rcases hinit.registered i hreg with hreg | halgo | ⟨htable, -⟩
      · exact hreg
      · exact (hs.registered i).mpr halgo
      · exact (heq htable).elim
    · rw [hinit.algo_ne i heq] at halgo
      exact (hs.registered i).mpr halgo

theorem Matches.initAll_fails (hs : s.Matches) (hconf : s.Configured) {s₀ : Session ι}
    (h₀ : s₀.Matches) (hreg : ∀ i, s.data.tables i ≠ none ↔ s₀.data.tables i ≠ none)
    (hhash : SameHash s₀ s) {rows : List (InitAllRow ι)} {released : Bool}
    (h : FailsClean s₀.data.tables released s rows) :
    ((cloudsyncInitAll s rows).1 = .ok () → released = false) ∧
      (cloudsyncInitAll s rows).2.data.Matches s₀.db := by
  induction rows generalizing s with
  | nil =>
    refine ⟨fun _ => h, fun i => (hreg i).trans (h₀.registered i), fun value hvalue => ?_⟩
    exact hhash.hash hvalue (h₀.hash value hvalue)
  | cons row rows ih =>
    have hleaves := s.initInternal_leaves row.toInitInput
    rcases h with ⟨hrow, htable, hrest⟩ | ⟨hrow, hnew, hold⟩
    · have hok := hrow.ok
      have hself := (hreg row.table).mpr htable
      have hmatches := hs.initInternal_ok hconf hok (.inl hself)
      have halgo := (s.initInternal_ok hok).2 hconf (.inl ((hs.registered row.table).mp hself))
      have hsame : ∀ i, (s.cloudsyncInitInternal row.toInitInput).2.data.tables i ≠ none ↔
          s₀.data.tables i ≠ none := by
        intro i
        rw [← hreg i]
        refine ⟨fun hi => ?_, hleaves.kept i⟩
        rcases hleaves.registered i hi with hi | hi | ⟨rfl, -⟩
        · exact hi
        · exact (hs.registered i).mpr hi
        · exact hself
      have hnext := hhash.trans hleaves.hash
      rw [cloudsyncInitAll]
      generalize s.cloudsyncInitInternal row.toInitInput = x
        at hok hmatches halgo hsame hnext hrest ⊢
      rcases x with ⟨_, t⟩
      cases hok
      exact ih hmatches (configured_of_algo halgo) hsame hnext hrest
    · have hne := fun hok => hrow (hs.completes_of_ok hok)
      have hafter := hs.cleanup_failed (fun hnone => hnew (not_not.mp fun hsome =>
        (hreg row.table).mpr hsome hnone)) fun hsome => hold ((hreg row.table).mp hsome)
      have hleft := hhash.trans (hleaves.hash.trans (cleanupInternal_leaves
        (s.cloudsyncInitInternal row.toInitInput).2
          row.cleanup).hash)
      rw [cloudsyncInitAll]
      generalize s.cloudsyncInitInternal row.toInitInput = x at hne hafter hleft ⊢
      rcases x with ⟨err | ⟨⟩, t⟩
      · refine ⟨(fun h => by cases h), fun i => ?_, fun value hvalue => ?_⟩
        · rw [hafter i, hreg i]
          exact h₀.registered i
        · exact hleft.hash hvalue (h₀.hash value hvalue)
      · exact (hne rfl).elim

theorem cloudsyncInit_matches {hash : String → UInt64} {target : InitTarget ι}
    {sp : SavepointInput} (hs : s.Matches)
    (hok : sp.opened → (s.initTarget target).1 = .ok () ∧ sp.released →
      (s.initTarget target).2.Matches)
    (hfail : sp.opened → ¬ ((s.initTarget target).1 = .ok () ∧ sp.released) →
      (s.initTarget target).2.data.Matches s.db) :
    (s.cloudsyncInit hash target sp).2.Matches := by
  rw [cloudsyncInit]
  cases hopened : sp.opened with
  | false => exact hs
  | true =>
    specialize hok hopened
    specialize hfail hopened
    rw [if_neg (Bool.noConfusion : ¬ true = false)]
    generalize s.initTarget target = x at hok hfail ⊢
    rcases x with ⟨err | ⟨⟩, t⟩
    · exact hfail fun h => by cases h.1
    · dsimp only
      by_cases hreleased : sp.released
      · rw [if_pos hreleased]
        exact (hok ⟨rfl, hreleased⟩).updateSchemaHash hash
      · rw [if_neg hreleased]
        exact hfail fun h => hreleased h.2

/-- The table is registered again when `cloudsync_commit_alter` reloads it, even
if its metadata cannot be refilled. -/
def Reloads (s : Session ι) (inp : CommitAlterInput ι) : Prop :=
  let u := (s.cloudsyncContextInit inp.context).2
  (u.setTable inp.table none).Completes
    { inp.init with table := inp.table, algo := u.currentAlgo inp.table, refill := true }

def ReachesReload (s : Session ι) (inp : CommitAlterInput ι) : Prop :=
  s.ContextInits inp.context ∧ s.data.tables inp.table = some true ∧ inp.finalize

/-- The innermost savepoint `cloudsync_alter` holds the tables of the context and its hash. -/
def RestoresRegistry (s : Session ι) : Prop :=
  ∀ save ∈ s.alterSaves.head?,
    s.data.Matches save.2 ∧ (s.db.lastHash = none → save.2.lastHash = none)

/-- No step takes a table out of one side only: a rollback leads to a database
that has the tables of the context and its hash, a call that fails has
registered no table, a table that is registered gets its `algo` row, and one that
leaves the registry is dropped and loses it. -/
def KeepsRegistry (s : Session ι) : Event ι → Prop
  | .begin | .commit | .contextInit _ | .alterSchema _ => True
  | .terminate => ∀ t, s.data.tables t = none
  | .rollback => ∀ save ∈ s.saves.getLast?, s.data.Matches save.2
  | .init (.one inp) sp => sp.opened → s.Configured ∧
      (s.Completes { inp with refill := true } →
        s.data.tables inp.table ≠ none ∨ inp.refill ∧ sp.released ∧ inp.written)
  | .init (.all rows) sp => sp.opened → s.Configured ∧
      (s.CompletesAll rows ∧ sp.released ∧
          (∀ row ∈ rows, s.data.tables row.table ≠ none ∨ row.written) ∨
        FailsClean s.data.tables sp.released s rows)
  | .cleanup (.one inp) =>
      (inp.drop ∧ inp.deleted) ∨ s.data.tables inp.table = none ∨ ¬ s.ContextInits inp.context
  | .cleanup (.all rows _) =>
      (∀ row ∈ rows, (row.drop ∧ row.deleted) ∨ s.data.tables row.table = none) ∧
        (rows ≠ [] → ∀ i, s.data.tables i ≠ none → ∃ row ∈ rows, row.table = i)
  | .beginAlter inp => s.ContextInits inp.context → inp.opened ∨ s.RestoresRegistry
  | .commitAlter inp => s.Configured ∧ (s.ReachesReload inp → s.Reloads inp) ∧
      (s.ReachesReload inp ∧ inp.init.refill ∧ inp.released ∨ s.RestoresRegistry)

theorem Matches.init_one {hash : String → UInt64} (hs : s.Matches) {inp : InitInput ι}
    {sp : SavepointInput} (h : s.KeepsRegistry (.init (.one inp) sp)) :
    (s.cloudsyncInit hash (.one inp) sp).2.Matches := by
  apply cloudsyncInit_matches hs
  · rintro hopened ⟨hok, -⟩
    rcases h hopened with ⟨hconf, hkeeps⟩
    have hcompletes := hs.completes_of_ok hok
    refine hs.initInternal_ok hconf hok ((hkeeps ?_).imp_right fun hrest => hrest.2.2)
    exact ⟨hcompletes.sanity, hcompletes.context, hcompletes.algo, hcompletes.current,
      hcompletes.stmts, hcompletes.addable, rfl⟩
  · intro hopened hfail
    apply hs.initInternal_rollback
    intro hcompletes
    refine ((h hopened).2 hcompletes).resolve_right fun hrest => ?_
    exact hfail ⟨(s.completes_of_refill inp hcompletes hrest.1).ok, hrest.2.1⟩

theorem Matches.init_all {hash : String → UInt64} (hs : s.Matches) {rows : List (InitAllRow ι)}
    {sp : SavepointInput} (h : s.KeepsRegistry (.init (.all rows) sp)) :
    (s.cloudsyncInit hash (.all rows) sp).2.Matches := by
  apply cloudsyncInit_matches hs
  · rintro hopened ⟨hok, hreleased⟩
    rcases h hopened with ⟨hconf, ⟨hall, -, hwritten⟩ | hfails⟩
    · exact hs.initAll_ok hconf hall hwritten
    · have hno := (hs.initAll_fails hconf hs (fun _ => Iff.rfl) (.refl s) hfails).1 hok
      rw [hno] at hreleased
      cases hreleased
  · intro hopened hfail
    rcases h hopened with ⟨hconf, ⟨hall, hreleased, -⟩ | hfails⟩
    · exact (hfail ⟨hall.ok, hreleased⟩).elim
    · exact (hs.initAll_fails hconf hs (fun _ => Iff.rfl) (.refl s) hfails).2

omit [DecidableEq ι] in
theorem Matches.of_sameHash (hs : s.Matches) {t : Session ι} {db : Db ι}
    (hdb : s.data.Matches db ∧ (s.db.lastHash = none → db.lastHash = none))
    (hreg : ∀ i, t.data.tables i ≠ none ↔ s.data.tables i ≠ none) (hhash : SameHash s t) :
    t.data.Matches db := by
  refine ⟨fun i => (hreg i).trans (hdb.1.registered i), fun value hvalue => ?_⟩
  have hcached := hdb.1.hash value hvalue
  cases hlast : s.db.lastHash with
  | none =>
    rw [hdb.2 hlast] at hvalue
    cases hvalue
  | some last =>
    exact hhash.hash (hlast.trans (congrArg some ((hs.hash last hlast).symm.trans hcached))) hcached

omit [DecidableEq ι] in
theorem rollbackAlter_matches (released : Bool) (hnone : s.alterSaves = [] → s.Matches)
    (hsave : ∀ save ∈ s.alterSaves.head?, s.data.Matches save.2) :
    (s.rollbackAlter released).Matches := by
  rw [rollbackAlter]
  generalize s.alterSaves = saves at hnone hsave ⊢
  cases saves with
  | nil => exact hnone rfl
  | cons save saves => exact hsave save rfl

theorem Matches.setTable_some (hs : s.Matches) {t : ι} (h : s.data.tables t ≠ none) (b : Bool) :
    (s.setTable t (some b)).Matches := by
  refine ⟨fun i => ?_, hs.hash⟩
  by_cases heq : i = t
  · rw [heq, setTable_tables_self]
    exact iff_of_true (Option.some_ne_none b) ((hs.registered t).mp h)
  · rw [setTable_tables_ne _ heq]
    exact hs.registered i

theorem Matches.beginAlter (hs : s.Matches) {inp : BeginAlterInput ι}
    (h : s.KeepsRegistry (.beginAlter inp)) : (s.cloudsyncBeginAlter inp).2.Matches := by
  have hctx := hs.contextInit inp.context
  have htables := contextInit_tables_eq (fun t => (hs.registered t).mpr) inp.context
  have hinits := s.cloudsyncContextInit_fst inp.context
  have hsaves := (s.cloudsyncContextInit_site inp.context).saves_eq
  have hhash := s.cloudsyncContextInit_hash inp.context
  rw [cloudsyncBeginAlter]
  generalize s.cloudsyncContextInit inp.context = x at hctx htables hinits hsaves hhash ⊢
  rcases x with ⟨err | ⟨⟩, t⟩
  · exact hctx
  rw [Outcome.andThen_ok]
  by_cases hopened : inp.opened = false
  · rw [if_pos hopened]
    apply rollbackAlter_matches inp.releasedAfter fun _ => hctx
    intro save hsave
    rw [alterSaves, hsaves] at hsave
    have hrestores := (h (hinits.mp rfl)).resolve_left (Bool.not_eq_true _ ▸ hopened)
    exact hs.of_sameHash (hrestores save hsave) (fun i => by rw [htables]) hhash
  rw [if_neg hopened]
  have hpush : Matches { t with saves := (.cloudsyncAlter, t.db) :: t.saves } := hctx
  have hback : (rollbackAlter { t with saves := (.cloudsyncAlter, t.db) :: t.saves }
      inp.releasedAfter).Matches := by
    apply rollbackAlter_matches inp.releasedAfter fun _ => hpush
    rintro save ⟨⟩
    exact hctx
  dsimp only
  split_ifs with hnone
  · exact hback
  · exact hpush.setTable_some hnone true
  · exact hback

theorem initInternal_saves (s : Session ι) (inp : InitInput ι) :
    (s.cloudsyncInitInternal inp).2.saves = s.saves := by
  have hsite := congrArg (fun x => x.2.2.1) (s.cloudsyncInitInternal_site inp)
  refine hsite.trans ?_
  split_ifs
  · exact (s.cloudsyncContextInit_site inp.context).saves_eq
  · rfl

theorem reloadTable_saves (s : Session ι) (inp : CommitAlterInput ι) :
    (s.reloadTable inp).2.saves = s.saves := by
  rw [reloadTable]
  split_ifs
  · rfl
  · exact initInternal_saves (s.setTable inp.table none) _
  · rfl

/-- What the reload of a table leaves: the tables are the same ones, and the
context agrees with the database that is not rolled back. -/
theorem Matches.reloadTable (hs : s.Matches) (hconf : s.Configured) (inp : CommitAlterInput ι)
    (h : s.data.tables inp.table = some true → inp.finalize →
      (s.setTable inp.table none).Completes
        { inp.init with table := inp.table, algo := s.currentAlgo inp.table, refill := true }) :
    (s.reloadTable inp).2.Matches ∧ SameHash s (s.reloadTable inp).2 ∧
      (∀ i, (s.reloadTable inp).2.data.tables i ≠ none ↔ s.data.tables i ≠ none) ∧
      (s.data.tables inp.table = some true → inp.finalize → inp.init.refill →
        (s.reloadTable inp).1 = .ok ()) := by
  rw [Session.reloadTable]
  by_cases htable : s.data.tables inp.table ≠ some true
  · rw [if_pos htable]
    exact ⟨hs, .refl s, fun _ => Iff.rfl, fun htrue => (htable htrue).elim⟩
  rw [if_neg htable]
  have htrue := not_not.mp htable
  have hreg : s.data.tables inp.table ≠ none := by
    rw [htrue]
    exact Option.some_ne_none true
  by_cases hfinal : inp.finalize
  swap
  · rw [if_neg hfinal]
    refine ⟨hs.setTable_some hreg false, ⟨rfl, .inl rfl⟩, fun i => ?_,
      fun _ hfinalize => (hfinal hfinalize).elim⟩
    change (s.setTable inp.table (some false)).data.tables i ≠ none ↔ _
    by_cases heq : i = inp.table
    · rw [heq, setTable_tables_self]
      exact iff_of_true (Option.some_ne_none false) hreg
    · rw [setTable_tables_ne _ heq]
  rw [if_pos hfinal]
  have hcompletes := h htrue hfinal
  have hleaves := (s.setTable inp.table none).initInternal_leaves
    { inp.init with table := inp.table, algo := s.currentAlgo inp.table }
  have hadded := (s.setTable inp.table none).initInternal_added
    { inp.init with table := inp.table, algo := s.currentAlgo inp.table } hcompletes
  have halgo := hadded.2 hconf (.inl ((hs.registered inp.table).mp hreg))
  have hothers : ∀ i ≠ inp.table,
      (s.setTable inp.table none).data.tables i ≠ none ↔ (s.db.algo i).isSome := by
    intro i hi
    rw [setTable_tables_ne _ hi]
    exact hs.registered i
  have hmatches := hleaves.matches hothers hs.hash ⟨hadded.1, halgo⟩
  refine ⟨hmatches, ⟨hleaves.hash.stored, hleaves.hash.cached⟩, fun i => ?_, fun _ _ hrefill => ?_⟩
  · rw [hmatches.registered i, hs.registered i]
    by_cases heq : i = inp.table
    · rw [heq]
      exact iff_of_true halgo ((hs.registered _).mp hreg)
    · rw [hleaves.algo_ne i heq]
      rfl
  · exact ((s.setTable inp.table none).completes_of_refill
      { inp.init with table := inp.table, algo := s.currentAlgo inp.table } hcompletes hrefill).ok

theorem Matches.commitAlter {hash : String → UInt64} (hs : s.Matches) {inp : CommitAlterInput ι}
    (h : s.KeepsRegistry (.commitAlter inp)) : (s.cloudsyncCommitAlter hash inp).2.Matches := by
  rcases h with ⟨hconf, hreloads, hback⟩
  have hctx := hs.contextInit inp.context
  have htables := contextInit_tables_eq (fun t => (hs.registered t).mpr) inp.context
  have hinits := s.cloudsyncContextInit_fst inp.context
  have hsaves := (s.cloudsyncContextInit_site inp.context).saves_eq
  have hhash := s.cloudsyncContextInit_hash inp.context
  have hconfigured := @Configured.contextInit ι s hconf inp.context
  rw [Reloads] at hreloads
  -- the state before the savepoint is released or rolled back
  obtain ⟨hmatches, hsame, hreg, hrun, hkept⟩ :
      let x := (s.cloudsyncContextInit inp.context).andThen fun s => s.reloadTable inp
      x.2.Matches ∧ SameHash s x.2 ∧ (∀ i, x.2.data.tables i ≠ none ↔ s.data.tables i ≠ none) ∧
        (s.ReachesReload inp ∧ inp.init.refill → x.1 = .ok ()) ∧ x.2.saves = s.saves := by
    generalize s.cloudsyncContextInit inp.context = x
      at hctx htables hinits hsaves hhash hconfigured hreloads ⊢
    rcases x with ⟨err | ⟨⟩, u⟩
    · refine ⟨hctx, hhash, fun i => ?_, fun hreach => ?_, hsaves⟩
      · rw [← htables]
        rfl
      · exact hinits.mpr hreach.1.1
    · have hreload := hctx.reloadTable (fun _ _ => hconfigured rfl) inp
        fun htrue hfinal => hreloads ⟨hinits.mp rfl, htables ▸ htrue, hfinal⟩
      rcases hreload with ⟨hmatches, hsame, hreg, hrun⟩
      refine ⟨hmatches, hhash.trans hsame, fun i => ?_, fun hreach => ?_,
        (reloadTable_saves u inp).trans hsaves⟩
      · rw [← htables]
        exact hreg i
      · refine hrun ?_ hreach.1.2.2 hreach.2
        rw [← hreach.1.2.1, ← htables]
  have hrestored : ((s.cloudsyncContextInit inp.context).andThen fun s =>
      s.reloadTable inp).1 ≠ .ok () ∨ s.alterSaves = [] ∨ inp.released = false →
      (((s.cloudsyncContextInit inp.context).andThen fun s =>
        s.reloadTable inp).2.rollbackAlter inp.releasedAfter).Matches := by
    intro hfail
    apply rollbackAlter_matches inp.releasedAfter fun _ => hmatches
    intro save hsave
    rw [alterSaves, hkept] at hsave
    rcases hback with hreach | hsaved
    · rcases hfail with hne | hnone | hno
      · exact (hne (hrun ⟨hreach.1, hreach.2.1⟩)).elim
      · rw [← alterSaves, hnone] at hsave
        cases hsave
      · rw [hno] at hreach
        cases hreach.2.2
    · exact hs.of_sameHash (hsaved save hsave) hreg hsame
  rw [cloudsyncCommitAlter]
  generalize (s.cloudsyncContextInit inp.context).andThen (fun s => s.reloadTable inp) = x
    at hmatches hkept hrestored ⊢
  rcases x with ⟨err | ⟨⟩, t⟩
  · apply hrestored
    left
    rintro ⟨⟩
  · simp only [releaseAlter]
    cases hsave : t.alterSaves with
    | nil =>
      apply hrestored
      right
      left
      rwa [alterSaves, ← hkept]
    | cons save saves =>
      cases hreleased : inp.released with
      | false => exact hrestored (.inr (.inr hreleased))
      | true =>
        have hreleased : Matches { t with saves := saves } := hmatches
        exact hreleased.updateSchemaHash hash

theorem Matches.step {hash : String → UInt64} (hs : s.Matches) {e : Event ι}
    (he : s.KeepsRegistry e) {t : Session ι} (ht : s.step hash e = some t) : t.Matches := by
  cases e with
  | begin =>
    cases ht
    rw [begin]
    split_ifs <;> exact hs
  | commit =>
    cases ht
    exact hs
  | rollback =>
    cases ht
    rw [rollback]
    cases hsave : s.saves.getLast? with
    | none => exact hs
    | some save => exact he save hsave
  | contextInit inp =>
    cases ht
    exact hs.contextInit inp
  | init target sp =>
    cases ht
    cases target with
    | one inp => exact hs.init_one he
    | all rows => exact hs.init_all he
  | cleanup target =>
    cases ht
    cases target with
    | one inp => exact Matches.cleanup hash (hs.cleanupInternal he)
    | all rows drops => exact Matches.cleanup hash (hs.cleanupAll drops he.1 he.2)
  | terminate =>
    cases ht
    refine ⟨fun i => ?_, hs.hash⟩
    have hi := he i
    exact iff_of_false (fun hne => hne rfl) fun halgo => (hs.registered i).mpr halgo hi
  | beginAlter inp =>
    cases ht
    exact hs.beginAlter he
  | commitAlter inp =>
    cases ht
    exact hs.commitAlter he
  | alterSchema schema =>
    cases ht
    exact ⟨hs.registered, hs.hash⟩

/-- A connection that opens a database without the extension, or one whose
configuration it can load. -/
def OpensConfigured (s : Session ι) : Prop :=
  ∃ db inp, s = opened db inp ∧
    if db.siteId = none then (∀ t, db.algo t = none) ∧ db.lastHash = none
    else inp.Loads ∧ ∀ t, (db.algo t).isSome → inp.addable t

omit [DecidableEq ι] in
theorem dbutilsSettingsInit_loads {s : Session ι} {inp : ContextInput ι}
    (h : (s.dbutilsSettingsInit inp).1 = .ok ()) :
    (s.dbutilsSettingsInit inp).2.data.tables = (s.dbutilsSettingsLoad inp).data.tables := by
  rcases s.dbutilsSettingsInit_cases inp with ⟨⟨err, herror⟩, _⟩ | hloads
  · rw [h] at herror
    cases herror
  · exact hloads

omit [DecidableEq ι] in
/-- A context that is initialised for the first time has the tables of the
settings, and the last hash. -/
theorem contextInit_loads {s : Session ι} {inp : ContextInput ι} (hset : ¬ s.data.siteId.IsSet)
    (h : (s.cloudsyncContextInit inp).1 = .ok ()) :
    (s.cloudsyncContextInit inp).2.data.tables = (s.dbutilsSettingsLoad inp).data.tables ∧
      (s.cloudsyncContextInit inp).2.data.schemaHash = s.db.schemaHash := by
  have hinit : ¬ s.data.siteId.IsSet ∨ s.db.siteId = none := .inl hset
  rw [cloudsyncContextInit, if_pos hinit] at h ⊢
  rw [Outcome.andThen_fst_ok, Outcome.andThen_fst_ok] at h
  have hloads := dbutilsSettingsInit_loads h.1.1
  have hhash := (s.dbutilsSettingsInit_hash inp).stored
  generalize s.dbutilsSettingsInit inp = x at h hloads hhash ⊢
  rcases x with ⟨err | ⟨⟩, t⟩
  · cases h.1.1
  cases hstmts : inp.stmts with
  | false =>
    rw [hstmts] at h
    cases h.1.2
  | true =>
    refine ⟨?_, ?_⟩
    · rw [← hloads]
      exact t.cloudsyncLoadSiteid_tables
    · change t.cloudsyncLoadSiteid.db.lastHash.getD 0 = s.db.lastHash.getD 0
      rw [t.cloudsyncLoadSiteid_db, hhash]

omit [DecidableEq ι] in
theorem matches_opened {db : Db ι} {inp : ContextInput ι}
    (h : if db.siteId = none then (∀ t, db.algo t = none) ∧ db.lastHash = none
      else inp.Loads ∧ ∀ t, (db.algo t).isSome → inp.addable t) : (opened db inp).Matches := by
  rw [opened]
  split_ifs at h ⊢ with hnone
  · refine ⟨fun t => iff_of_false (fun hne => hne rfl) ?_, fun value hvalue => ?_⟩
    · rw [h.1 t]
      exact Bool.false_ne_true
    · rw [h.2] at hvalue
      cases hvalue
  · have hinits : ContextInits ⟨db, ⟨.zero, fun _ => none, 0⟩, [], []⟩ inp :=
      .inr ⟨h.1.1, .inl hnone, h.1.2.1, h.1.2.2⟩
    have hloads := contextInit_loads Uuid.not_isSet_zero
      ((cloudsyncContextInit_fst _ inp).mpr hinits)
    refine ⟨fun t => ?_, fun value hvalue => ?_⟩
    · rw [hloads.1, cloudsyncContextInit_algo]
      change ((none : Option Bool).or (if (db.algo t).isSome ∧ _ then _ else _)) ≠ none ↔ _
      rw [Option.none_or]
      split_ifs with hadd
      · exact iff_of_true (Option.some_ne_none false) hadd.1
      · exact iff_of_false (fun hne => hne rfl) fun halgo => hadd ⟨halgo, h.2 t halgo⟩
    · rw [(cloudsyncContextInit_hash _ inp).stored] at hvalue
      rw [hloads.2]
      change db.lastHash.getD 0 = value
      rw [hvalue, Option.getD_some]

/-- In every run that takes no table out of one side only, the context agrees
with the database, inside transactions and outside. -/
theorem matches_of_reachable (hash : String → UInt64)
    (h : Reachable (step hash) OpensConfigured KeepsRegistry s) : s.data.Matches s.db := by
  have hmatches : s.Matches := by
    apply h.invariant
    · rintro s ⟨db, inp, rfl, hdb⟩
      exact matches_opened hdb
    · exact fun s e t hs he ht => hs.step he ht
  exact hmatches

/-- A table is augmented in a transaction that commits. -/
theorem matches_committed : ∃ s : Session Unit,
    s.saves = [] ∧ s.data.tables () = some false ∧ s.data.schemaHash = 7 ∧
      s.data.Matches s.db := by
  let id : Uuid := ⟨1, fun _ => 0⟩
  let empty : Db Unit := ⟨none, none, none, [((), "create table t")]⟩
  let inp : InitInput Unit := ⟨(), .crdtCls, .ok (), allSucceed id, true, true, true, true⟩
  exact ⟨_, rfl, rfl, rfl, matches_of_reachable (fun _ => 7) (.next (.next (.next
    (.start ⟨empty, allSucceed id, rfl, fun _ => rfl, rfl⟩) .begin trivial rfl) (.init (.one inp) .succeeds)
      (fun _ => ⟨fun h => (Uuid.not_isSet_zero h).elim, fun _ => .inr ⟨rfl, rfl, rfl⟩⟩) rfl) .commit trivial rfl)⟩

/-- A table is augmented in a transaction that is rolled back: it stays registered. -/
theorem not_matches : ∃ s : Session Unit,
    Reachable (step fun _ => 7) OpensConfigured (fun _ _ => True) s ∧ s.saves = [] ∧
      ¬ s.data.Matches s.db := by
  let id : Uuid := ⟨1, fun _ => 0⟩
  let empty : Db Unit := ⟨none, none, none, [((), "create table t")]⟩
  let inp : InitInput Unit := ⟨(), .crdtCls, .ok (), allSucceed id, true, true, true, true⟩
  refine ⟨_, .next (.next (.next (.start ⟨empty, allSucceed id, rfl, fun _ => rfl, rfl⟩) .begin
    trivial rfl) (.init (.one inp) .succeeds) trivial rfl) .rollback trivial rfl, rfl, fun h => ?_⟩
  have hrow := (h.registered ()).mp (Option.some_ne_none false)
  cases hrow

end

end Session
end SqliteSync.Config
