import SqliteSync.Config.Session

/-!
# The site id of a connection

The context caches the site id that the database stores, and a cached id is not
read again. The two agree in every run where no rollback takes back the table
of the id that is cached.
-/
namespace SqliteSync.Config
open Library Store

variable {ι : Type} [DecidableEq ι]

/-- The statements that write the settings and prepare the context succeed. -/
def ContextInput.Loads (inp : ContextInput ι) : Prop := inp.settings ∧ inp.tables ∧ inp.stmts

instance (inp : ContextInput ι) : Decidable inp.Loads := inferInstanceAs (Decidable (_ ∧ _ ∧ _))

namespace Session

/-- Every call of `cloudsync_context_init` that returned a site id returned the
one that row 0 of `cloudsync_site_id` held. -/
def ReturnsStored (s : Session ι) : Prop := ∀ x ∈ s.returned, x.2 = some (some x.1)

instance (s : Session ι) : Decidable s.ReturnsStored := List.decidableBAll _ _

/-- All of the session that the site id depends on. -/
def site (s : Session ι) :
    Option (Option Uuid) × Uuid × List (Savepoint × Db ι) × List (Uuid × Option (Option Uuid)) :=
  (s.db.siteId, s.data.siteId, s.saves, s.returned)

/-- The cached site id is the stored one, and the table of the site id has its
row wherever a rollback can lead. -/
structure Agrees (s : Session ι) : Prop where
  cached : s.data.siteId.IsSet → s.db.siteId = some (some s.data.siteId)
  stored : s.db.siteId ≠ some none
  saves : ∀ save ∈ s.saves, save.2.siteId ≠ some none
  returned : s.ReturnsStored

omit [DecidableEq ι] in
theorem Agrees.of_site {s t : Session ι} (h : t.site = s.site) (hs : s.Agrees) : t.Agrees := by
  simp only [site, Prod.mk.injEq] at h
  rcases h with ⟨hstored, hcached, hsaves, hreturned⟩
  refine ⟨?_, ?_, ?_, ?_⟩
  · rw [hstored, hcached]
    exact hs.cached
  · rw [hstored]
    exact hs.stored
  · rw [hsaves]
    exact hs.saves
  · rw [ReturnsStored, hreturned]
    exact hs.returned

/-- What `cloudsync_context_init` does to the site id: it fails, maybe after it
has created the table, or it returns the id it finds or makes. -/
inductive SiteInit (inp : ContextInput ι) (s : Session ι) : Outcome (Session ι) → Prop
  | refused {err : String} {t : Session ι} (hcached : t.data.siteId = s.data.siteId)
      (hsaves : t.saves = s.saves) (hreturned : t.returned = s.returned)
      (hstored : t.db.siteId = s.db.siteId ∨ s.db.siteId = none ∧ t.db.siteId = some inp.uuid) :
      SiteInit inp s (.error err, t)
  | loaded {t : Session ι} (row : Option Uuid) (hstored : t.db.siteId = some row)
      (hrow : s.db.siteId = some row ∨ s.db.siteId = none ∧ inp.uuid ≠ none ∧ row = inp.uuid)
      (hloads : s.data.siteId.IsSet ∧ s.db.siteId ≠ none ∨ inp.Loads)
      (hcached : t.data.siteId = if s.data.siteId.IsSet then s.data.siteId
        else row.getD s.data.siteId)
      (hsaves : t.saves = s.saves) (hreturned : t.returned = (t.data.siteId, some row) :: s.returned) :
      SiteInit inp s (.ok (), t)

variable (s : Session ι)

omit [DecidableEq ι] in
theorem cloudsyncLoadSiteid_eq :
    s.cloudsyncLoadSiteid = { s with data := { s.data with
      siteId := if s.data.siteId.IsSet then s.data.siteId
        else (s.db.siteId.getD none).getD s.data.siteId } } := by
  rw [cloudsyncLoadSiteid]
  split_ifs with hset
  · rfl
  · rcases s.db.siteId with _ | _ | id <;> rfl

/-- What `dbutils_settings_init` does to the site id. -/
structure SettingsInit (inp : ContextInput ι) (s t : Session ι) : Prop where
  cached : t.data.siteId = s.data.siteId
  saves : t.saves = s.saves
  returned : t.returned = s.returned
  stored : t.db.siteId = s.db.siteId ∨ s.db.siteId = none ∧ t.db.siteId = some inp.uuid

omit [DecidableEq ι] in
theorem dbutilsSettingsInit_site (inp : ContextInput ι) :
    SettingsInit inp s (s.dbutilsSettingsInit inp).2 := by
  rw [dbutilsSettingsInit]
  cases inp.settings with
  | false => exact ⟨rfl, rfl, rfl, .inl rfl⟩
  | true =>
    rw [if_pos rfl, createSiteId]
    cases hstored : s.db.siteId with
    | some row => cases inp.tables <;> exact ⟨rfl, rfl, rfl, .inl rfl⟩
    | none =>
      cases huuid : inp.uuid with
      | none =>
        refine ⟨rfl, rfl, rfl, .inr ⟨hstored, ?_⟩⟩
        rw [huuid]
        rfl
      | some id =>
        refine ⟨?_, ?_, ?_, .inr ⟨hstored, ?_⟩⟩ <;> rw [Outcome.andThen_ok] <;>
          cases inp.tables <;> first | rfl | exact huuid.symm ▸ rfl

omit [DecidableEq ι] in
/-- When it succeeds the table of the site id exists, and a new one has its row. -/
theorem dbutilsSettingsInit_ok {inp : ContextInput ι} {t : Session ι}
    (h : s.dbutilsSettingsInit inp = (.ok (), t)) :
    inp.settings ∧ inp.tables ∧ ∃ row, t.db.siteId = some row ∧
      (s.db.siteId = none → inp.uuid ≠ none) := by
  rw [dbutilsSettingsInit] at h
  cases hsettings : inp.settings with
  | false => simp [hsettings] at h
  | true =>
    cases htables : inp.tables with
    | false =>
      rw [hsettings, htables, if_pos rfl, createSiteId] at h
      cases hstored : s.db.siteId <;> cases huuid : inp.uuid <;> simp [hstored, huuid] at h
    | true =>
      refine ⟨rfl, rfl, ?_⟩
      rw [hsettings, htables, if_pos rfl, createSiteId] at h
      cases hstored : s.db.siteId with
      | some row =>
        rw [hstored] at h
        cases h
        exact ⟨row, hstored, fun hnone => (Option.some_ne_none row hnone).elim⟩
      | none =>
        cases huuid : inp.uuid with
        | none =>
          rw [hstored, huuid] at h
          cases h
        | some id =>
          rw [hstored, huuid] at h
          cases h
          exact ⟨some id, rfl, fun _ => Option.some_ne_none id⟩

omit [DecidableEq ι] in
theorem cloudsyncContextInit_site (inp : ContextInput ι) :
    SiteInit inp s (s.cloudsyncContextInit inp) := by
  rw [cloudsyncContextInit]
  by_cases hinit : ¬ s.data.siteId.IsSet ∨ s.db.siteId = none
  · rw [if_pos hinit]
    have hsite := s.dbutilsSettingsInit_site inp
    rcases hsettings : s.dbutilsSettingsInit inp with ⟨code, t⟩
    rw [hsettings] at hsite
    cases code with
    | error err => exact .refused hsite.cached hsite.saves hsite.returned hsite.stored
    | ok =>
      rw [Outcome.andThen_ok]
      cases hstmts : inp.stmts with
      | false => exact .refused hsite.cached hsite.saves hsite.returned hsite.stored
      | true =>
        rcases s.dbutilsSettingsInit_ok hsettings with ⟨hset, htables, row, hrow, huuid⟩
        rw [if_pos rfl, Outcome.andThen_ok, cloudsyncLoadSiteid_eq]
        refine .loaded row hrow ?_ (.inr ⟨hset, htables, hstmts⟩) ?_ hsite.saves ?_
        · rcases hsite.stored with hold | ⟨hnone, hnew⟩
          · exact .inl (hold ▸ hrow)
          · exact .inr ⟨hnone, huuid hnone, Option.some_inj.mp (hrow.symm.trans hnew)⟩
        · change (if t.data.siteId.IsSet then _ else (t.db.siteId.getD none).getD _) = _
          rw [hrow, hsite.cached]
          rfl
        · change (_, t.db.siteId) :: t.returned = _
          rw [hrow, hsite.returned]
  · rcases not_or.mp hinit with ⟨hset, hstored⟩
    rcases Option.ne_none_iff_exists'.mp hstored with ⟨row, hrow⟩
    rw [if_neg hinit, Outcome.andThen_ok]
    refine .loaded row hrow (.inl hrow) (.inl ⟨not_not.mp hset, hstored⟩) ?_ rfl ?_
    · rw [if_pos (not_not.mp hset)]
    · rw [hrow]

namespace SiteInit
variable {inp : ContextInput ι} {s : Session ι} {x : Outcome (Session ι)}

omit [DecidableEq ι] in
theorem saves_eq (h : SiteInit inp s x) : x.2.saves = s.saves := by
  cases h <;> assumption

omit [DecidableEq ι] in
theorem stored_eq (h : SiteInit inp s x) (hstored : s.db.siteId ≠ none) :
    x.2.db.siteId = s.db.siteId := by
  cases h with
  | refused _ _ _ hdb => exact hdb.resolve_right fun hnone => hstored hnone.1
  | loaded row hdb hrow =>
    rw [hdb]
    exact (hrow.resolve_right fun hnone => hstored hnone.1).symm

omit [DecidableEq ι] in
theorem agrees (h : SiteInit inp s x) (hs : s.Agrees)
    (huuid : s.db.siteId ≠ none ∨ inp.uuid ≠ none) : x.2.Agrees := by
  have hnew : s.db.siteId = none → inp.uuid ≠ none := fun hnone => huuid.resolve_left (· hnone)
  cases h with
  | @refused err t hcached hsaves hreturned hstored =>
    refine ⟨fun hset => ?_, fun hnone => ?_, hsaves ▸ hs.saves, ?_⟩
    · have hdb := hs.cached (hcached ▸ hset)
      rcases hstored with hold | ⟨hnone, -⟩
      · rw [hold, hdb, hcached]
      · rw [hnone] at hdb
        cases hdb
    · rcases hstored with hold | ⟨hmissing, hsome⟩
      · exact hs.stored (hold ▸ hnone)
      · exact hnew hmissing (Option.some_inj.mp (hsome.symm.trans hnone))
    · rw [ReturnsStored, hreturned]
      exact hs.returned
  | @loaded t row hstored hrow _ hcached hsaves hreturned =>
    have hsome : row ≠ none := by
      rcases hrow with hold | ⟨-, hid, rfl⟩
      · rintro rfl
        exact hs.stored hold
      · exact hid
    have hid : row = some t.data.siteId := by
      rw [hcached]
      split_ifs with hset
      · rcases hrow with hold | ⟨hnone, -⟩
        · exact Option.some_inj.mp (hold.symm.trans (hs.cached hset))
        · have hdb := hs.cached hset
          rw [hnone] at hdb
          cases hdb
      · rcases Option.ne_none_iff_exists'.mp hsome with ⟨id, rfl⟩
        rfl
    refine ⟨fun _ => hid ▸ hstored, fun hnone => ?_, hsaves ▸ hs.saves, ?_⟩
    · exact hsome (Option.some_inj.mp (hstored.symm.trans hnone))
    · rw [ReturnsStored, hreturned]
      exact List.forall_mem_cons.mpr ⟨congrArg some hid, hs.returned⟩

omit [DecidableEq ι] in
/-- A context that is not initialised returns nothing and caches nothing. -/
theorem not_loaded (h : SiteInit inp s x) (hcached : ¬ s.data.siteId.IsSet)
    (hloads : ¬ inp.Loads) : ¬ x.2.data.siteId.IsSet ∧ x.2.returned = s.returned := by
  cases h with
  | refused hsame _ hreturned => exact ⟨hsame ▸ hcached, hreturned⟩
  | loaded _ _ _ hload => exact (hload.elim (fun hset => hcached hset.1) hloads).elim

end SiteInit

/-- The site id is still the stored one, and no savepoint was opened or closed. -/
structure Kept (s t : Session ι) : Prop where
  agrees : t.Agrees
  stored : t.db.siteId = s.db.siteId
  saves : t.saves = s.saves

namespace Kept
variable {s t u : Session ι}

omit [DecidableEq ι] in
theorem of_site (h : t.site = u.site) (hu : Kept s u) : Kept s t := by
  simp only [site, Prod.mk.injEq] at h
  exact ⟨hu.agrees.of_site (by simpa only [site, Prod.mk.injEq] using h), h.1.trans hu.stored,
    h.2.2.1.trans hu.saves⟩

omit [DecidableEq ι] in
theorem trans (h : Kept s t) (h' : Kept t u) : Kept s u :=
  ⟨h'.agrees, h'.stored.trans h.stored, h'.saves.trans h.saves⟩

omit [DecidableEq ι] in
theorem agrees_rollback (h : Kept s t) : Agrees { t with db := s.db } :=
  h.agrees.of_site (by rw [site, site, h.stored])

end Kept

section
variable {s : Session ι}

theorem setTable_site (t : ι) (table : Option Bool) : (s.setTable t table).site = s.site := rfl

theorem checkAlgo_site (inp : InitInput ι) : (s.checkAlgo inp).2.site = s.site := by
  rw [checkAlgo]
  split_ifs <;> rfl

theorem tableAddToContext_site (inp : InitInput ι) : (s.tableAddToContext inp).2.site = s.site := by
  rw [tableAddToContext]
  split_ifs <;> rfl

omit [DecidableEq ι] in
theorem dbutilsUpdateSchemaHash_site (hash : String → UInt64) :
    (s.dbutilsUpdateSchemaHash hash).site = s.site := by
  rw [dbutilsUpdateSchemaHash]
  cases s.db.schemaText with
  | none => rfl
  | some text =>
    dsimp only
    split_ifs
    · rfl
    · cases s.db.schemaVersions <;> rfl

/-- Of all that `cloudsync_init_internal` does only `cloudsync_context_init` bears on the site id. -/
theorem cloudsyncInitInternal_site (inp : InitInput ι) : (s.cloudsyncInitInternal inp).2.site =
    if inp.sanity = .ok () then (s.cloudsyncContextInit inp.context).2.site else s.site := by
  rw [cloudsyncInitInternal]
  rcases inp.sanity with err | ⟨⟩
  · rfl
  · rw [if_pos rfl]
    refine Outcome.andThen_keeps (fun t : Session ι => t.site = _) rfl fun t ht => ?_
    refine Outcome.andThen_keeps (fun t : Session ι => t.site = _)
      ((t.checkAlgo_site inp).trans ht) fun t ht => ?_
    cases inp.stmts with
    | false => exact ht
    | true =>
      refine Outcome.andThen_keeps (fun t : Session ι => t.site = _)
        ((t.tableAddToContext_site inp).trans ht) fun t ht => ?_
      cases inp.refill <;> exact ht

theorem cloudsyncCleanupInternal_site (inp : CleanupInput ι) :
    (s.cloudsyncCleanupInternal inp).2.site = (s.cloudsyncContextInit inp.context).2.site := by
  rw [cloudsyncCleanupInternal]
  refine Outcome.andThen_keeps (fun t : Session ι => t.site = _) rfl fun t ht => ?_
  by_cases hnone : t.data.tables inp.table = none
  · rw [if_pos hnone]
    exact ht
  · rw [if_neg hnone]
    cases inp.drop <;> cases inp.deleted <;> exact ht

omit [DecidableEq ι] in
theorem Agrees.contextInit_kept (hs : s.Agrees) (hstored : s.db.siteId ≠ none)
    (inp : ContextInput ι) : Kept s (s.cloudsyncContextInit inp).2 := by
  have hsite := s.cloudsyncContextInit_site inp
  exact ⟨hsite.agrees hs (.inl hstored), hsite.stored_eq hstored, hsite.saves_eq⟩

theorem Agrees.initInternal_kept (hs : s.Agrees) (hstored : s.db.siteId ≠ none)
    (inp : InitInput ι) : Kept s (s.cloudsyncInitInternal inp).2 := by
  have hsite := s.cloudsyncInitInternal_site inp
  split_ifs at hsite
  · exact (hs.contextInit_kept hstored inp.context).of_site hsite
  · exact Kept.of_site hsite ⟨hs, rfl, rfl⟩

theorem Agrees.cleanupInternal_kept (hs : s.Agrees) (hstored : s.db.siteId ≠ none)
    (inp : CleanupInput ι) : Kept s (s.cloudsyncCleanupInternal inp).2 :=
  (hs.contextInit_kept hstored inp.context).of_site (s.cloudsyncCleanupInternal_site inp)

theorem Agrees.initAll_kept (hs : s.Agrees) (hstored : s.db.siteId ≠ none)
    (rows : List (InitAllRow ι)) : Kept s (cloudsyncInitAll s rows).2 := by
  induction rows generalizing s with
  | nil => exact ⟨hs, rfl, rfl⟩
  | cons row rows ih =>
    have hrow := hs.initInternal_kept hstored row.toInitInput
    rw [cloudsyncInitAll]
    generalize s.cloudsyncInitInternal row.toInitInput = x at hrow ⊢
    rcases x with ⟨err | ⟨⟩, t⟩
    · exact hrow.trans (hrow.agrees.cleanupInternal_kept (hrow.stored ▸ hstored) row.cleanup)
    · exact hrow.trans (ih hrow.agrees (hrow.stored ▸ hstored))

theorem Agrees.cleanupInternal_agrees (hs : s.Agrees) {inp : CleanupInput ι}
    (huuid : s.db.siteId ≠ none ∨ inp.context.uuid ≠ none) :
    (s.cloudsyncCleanupInternal inp).2.Agrees :=
  ((s.cloudsyncContextInit_site inp.context).agrees hs huuid).of_site
    (s.cloudsyncCleanupInternal_site inp)

theorem Agrees.initInternal_agrees (hs : s.Agrees) {inp : InitInput ι}
    (huuid : s.db.siteId ≠ none ∨ inp.context.uuid ≠ none) :
    (s.cloudsyncInitInternal inp).2.Agrees := by
  have hsite := s.cloudsyncInitInternal_site inp
  split_ifs at hsite
  · exact ((s.cloudsyncContextInit_site inp.context).agrees hs huuid).of_site hsite
  · exact hs.of_site hsite

theorem cleanupInternal_stored (inp : CleanupInput ι) (hstored : s.db.siteId ≠ none) :
    (s.cloudsyncCleanupInternal inp).2.db.siteId ≠ none := by
  have hsite := congrArg Prod.fst (s.cloudsyncCleanupInternal_site inp)
  change (s.cloudsyncCleanupInternal inp).2.db.siteId = _ at hsite
  rw [hsite]
  change (s.cloudsyncContextInit inp.context).2.db.siteId ≠ none
  rwa [(s.cloudsyncContextInit_site inp.context).stored_eq hstored]

theorem Agrees.cleanupEach_agrees (hs : s.Agrees) {rows : List (CleanupInput ι)}
    (huuid : s.db.siteId ≠ none ∨ ∀ row ∈ rows, row.context.uuid ≠ none) :
    (cleanupEach s rows).2.Agrees := by
  induction rows generalizing s with
  | nil => exact hs
  | cons row rows ih =>
    have hrow := hs.cleanupInternal_agrees (huuid.imp_right fun h => h row List.mem_cons_self)
    have hrest := huuid.imp (s.cleanupInternal_stored row)
      fun h r hr => h r (List.mem_cons_of_mem row hr)
    rw [cleanupEach]
    generalize s.cloudsyncCleanupInternal row = x at hrow hrest ⊢
    rcases x with ⟨err | ⟨⟩, t⟩ <;> exact ih hrow hrest

theorem Agrees.cleanupAll_agrees (hs : s.Agrees) {rows : List (CleanupInput ι)} {drops : ℕ}
    (huuid : s.db.siteId ≠ none ∨ ∀ row ∈ rows, row.context.uuid ≠ none) :
    (s.cloudsyncCleanupAll rows drops).Agrees := by
  have heach := hs.cleanupEach_agrees huuid
  rw [cloudsyncCleanupAll]
  split_ifs
  · exact hs
  generalize cleanupEach s rows = x at heach ⊢
  rcases x with ⟨_ | _, t⟩
  · exact heach
  · refine ⟨fun hset => (Uuid.not_isSet_cleared _ hset).elim, ?_, heach.saves, heach.returned⟩
    change (if 2 ≤ drops then none else t.db.siteId) ≠ some none
    split_ifs
    · exact (Option.some_ne_none none).symm
    · exact heach.stored

theorem cleanup_agrees (hash : String → UInt64) {target : CleanupTarget ι}
    (h : (s.cleanupTarget target).Agrees) : (s.cloudsyncCleanup hash target).Agrees := by
  rw [cloudsyncCleanup]
  split_ifs
  · exact h
  · exact h.of_site (dbutilsUpdateSchemaHash_site hash)

end

theorem checkAlgo_fst (s : Session ι) (inp : InitInput ι) : (s.checkAlgo inp).1 = .ok () ↔
    inp.algo ≠ .none ∧ (s.db.getAlgo inp.table = .none ∨ inp.algo = s.db.getAlgo inp.table) := by
  rw [checkAlgo]
  by_cases hnone : inp.algo = .none
  · rw [if_pos hnone]
    exact iff_of_false (fun h => by cases h) fun h => h.1 hnone
  by_cases hsame : inp.algo = s.db.getAlgo inp.table
  · rw [if_neg hnone, if_pos hsame]
    exact iff_of_true rfl ⟨hnone, .inr hsame⟩
  by_cases hnew : s.db.getAlgo inp.table = .none
  · rw [if_neg hnone, if_neg hsame, if_pos hnew]
    exact iff_of_true rfl ⟨hnone, .inl hnew⟩
  · rw [if_neg hnone, if_neg hsame, if_neg hnew]
    exact iff_of_false (fun h => by cases h) fun h => h.2.elim hnew hsame

theorem checkAlgo_tables (s : Session ι) (inp : InitInput ι) :
    (s.checkAlgo inp).2.data.tables = s.data.tables := by
  rw [checkAlgo]
  split_ifs <;> rfl

omit [DecidableEq ι] in
theorem contextInit_registered (s : Session ι) (inp : ContextInput ι) {t : ι}
    (h : s.data.tables t ≠ none) : (s.cloudsyncContextInit inp).2.data.tables t ≠ none := by
  rcases s.cloudsyncContextInit_tables inp with hsame | hload
  · rwa [hsame]
  · rw [hload]
    rcases Option.ne_none_iff_exists'.mp h with ⟨table, htable⟩
    change (s.data.tables t).or _ ≠ none
    rw [htable]
    exact Option.some_ne_none table

/-- A call whose checks and statements succeed reports no error. -/
theorem Completes.ok {s : Session ι} {inp : InitInput ι} (h : s.Completes inp) :
    (s.cloudsyncInitInternal inp).1 = .ok () := by
  have hctx := (s.cloudsyncContextInit_fst inp.context).mpr h.context
  have halgo := s.cloudsyncContextInit_algo inp.context
  have hadd : (s.cloudsyncContextInit inp.context).2.data.tables inp.table ≠ none ∨ inp.addable :=
    h.addable.imp_left (s.contextInit_registered inp.context)
  rw [cloudsyncInitInternal, h.sanity]
  generalize s.cloudsyncContextInit inp.context = x at hctx halgo hadd ⊢
  simp only [Outcome.andThen_fst_ok]
  refine ⟨hctx, (x.2.checkAlgo_fst inp).mpr ⟨h.algo, ?_⟩, ?_⟩
  · rw [Db.getAlgo, halgo]
    exact h.current
  · rw [h.stmts, if_pos rfl, Outcome.andThen_fst_ok, h.refill, if_pos rfl, and_iff_left rfl,
      tableAddToContext, checkAlgo_tables]
    rcases hadd with hne | hadd
    · rw [if_pos hne]
    · rw [hadd, if_pos rfl]
      split_ifs <;> rfl

theorem CompletesAll.ok {s : Session ι} {rows : List (InitAllRow ι)} (h : s.CompletesAll rows) :
    (cloudsyncInitAll s rows).1 = .ok () := by
  induction rows generalizing s with
  | nil => rfl
  | cons row rows ih =>
    have hok := h.1.ok
    have hrest := h.2
    rw [cloudsyncInitAll]
    generalize s.cloudsyncInitInternal row.toInitInput = x at hok hrest ⊢
    rcases x with ⟨_, t⟩
    cases hok
    exact ih hrest

/-- No step takes back the site id that the context caches: a rollback leads to
a database that holds it, and a call of `cloudsync_init` that creates it
completes and releases its savepoint, or fails before it is cached. The id can be
generated where one is needed. -/
def KeepsSiteId (s : Session ι) : Event ι → Prop
  | .begin | .commit | .terminate | .alterSchema _ => True
  | .rollback => s.data.siteId.IsSet →
      ∀ save ∈ s.saves.getLast?, save.2.siteId = some (some s.data.siteId)
  | .contextInit inp => s.db.siteId ≠ none ∨ inp.uuid ≠ none
  | .init (.one inp) sp => sp.opened = false ∨ s.db.siteId ≠ none ∨
      (s.Completes inp ∧ sp.released = true) ∨ ¬ (inp.sanity = .ok () ∧ inp.context.Loads)
  | .init (.all rows) sp => sp.opened = false ∨ s.db.siteId ≠ none ∨
      (s.CompletesAll rows ∧ sp.released = true) ∨
      ∀ row ∈ rows.head?, ¬ (row.sanity = .ok () ∧ row.context.Loads) ∧ ¬ row.cleanupContext.Loads
  | .cleanup (.one inp) => s.db.siteId ≠ none ∨ inp.context.uuid ≠ none
  | .cleanup (.all rows _) => s.db.siteId ≠ none ∨ ∀ row ∈ rows, row.context.uuid ≠ none
  | .beginAlter inp => (s.db.siteId ≠ none ∨ inp.context.uuid ≠ none) ∧
      (inp.opened = false →
        ∀ save ∈ s.alterSaves.head?, save.2.siteId = s.db.siteId ∧ s.db.siteId ≠ none)
  | .commitAlter inp => (s.db.siteId ≠ none ∨ inp.context.uuid ≠ none) ∧
      ∀ save ∈ s.alterSaves.head?, save.2.siteId = s.db.siteId ∧ s.db.siteId ≠ none

section
variable {s : Session ι} {hash : String → UInt64}

omit [DecidableEq ι] in
/-- Nothing cached and nothing returned: the rollback leaves no trace. -/
theorem Agrees.agrees_of_rollback (hs : s.Agrees) {t : Session ι} (hsaves : t.saves = s.saves)
    (hcached : ¬ t.data.siteId.IsSet) (hreturned : t.returned = s.returned) :
    Agrees { t with db := s.db } :=
  ⟨fun hset => (hcached hset).elim, hs.stored, hsaves ▸ hs.saves, hreturned ▸ hs.returned⟩

omit [DecidableEq ι] in
theorem Agrees.rollbackInit (hs : s.Agrees) {t : Session ι} (ht : Agrees { t with db := s.db })
    (released : Bool) : (s.rollbackInit t released).Agrees := by
  refine ⟨ht.cached, hs.stored, ?_, ht.returned⟩
  intro save hsave
  cases released with
  | true => exact hs.saves save hsave
  | false =>
    rcases List.mem_cons.mp hsave with rfl | hsave
    · exact hs.stored
    · exact hs.saves save hsave

omit [DecidableEq ι] in
theorem Agrees.not_cached (hs : s.Agrees) (hstored : s.db.siteId = none) :
    ¬ s.data.siteId.IsSet := by
  intro hset
  have hcached := hs.cached hset
  rw [hstored] at hcached
  cases hcached

theorem cloudsyncInit_agrees (hs : s.Agrees) {target : InitTarget ι} {sp : SavepointInput}
    (hok : (s.initTarget target).1 = .ok () → sp.released = true → (s.initTarget target).2.Agrees)
    (hfail : (s.initTarget target).1 ≠ .ok () ∨ sp.released = false →
      Agrees { (s.initTarget target).2 with db := s.db }) :
    (s.cloudsyncInit hash target sp).2.Agrees := by
  rw [cloudsyncInit]
  by_cases hopened : sp.opened = false
  · rw [if_pos hopened]
    exact hs
  rw [if_neg hopened]
  generalize s.initTarget target = x at hok hfail ⊢
  rcases x with ⟨err | ⟨⟩, t⟩
  · exact hs.rollbackInit (hfail (.inl fun h => by cases h)) sp.releasedAfter
  · dsimp only
    split_ifs with hreleased
    · exact (hok rfl hreleased).of_site (dbutilsUpdateSchemaHash_site hash)
    · exact hs.rollbackInit (hfail (.inr (Bool.eq_false_iff.mpr hreleased))) sp.releasedAfter

/-- Nothing was loaded: the context returned and cached no site id. -/
structure Unloaded (s t : Session ι) : Prop where
  cached : ¬ t.data.siteId.IsSet
  returned : t.returned = s.returned
  saves : t.saves = s.saves

omit [DecidableEq ι] in
theorem Unloaded.of_site {t u : Session ι} (h : u.site = t.site) (ht : Unloaded s t) :
    Unloaded s u := by
  simp only [site, Prod.mk.injEq] at h
  rcases h with ⟨-, hcached, hsaves, hreturned⟩
  exact ⟨hcached ▸ ht.cached, hreturned.trans ht.returned, hsaves.trans ht.saves⟩

omit [DecidableEq ι] in
theorem contextInit_unloaded {t : Session ι} (ht : Unloaded s t) {inp : ContextInput ι}
    (hloads : ¬ inp.Loads) :
    (t.cloudsyncContextInit inp).1 ≠ .ok () ∧ Unloaded s (t.cloudsyncContextInit inp).2 := by
  have hsite := t.cloudsyncContextInit_site inp
  rcases hsite.not_loaded ht.cached hloads with ⟨hcached, hreturned⟩
  refine ⟨?_, hcached, hreturned.trans ht.returned, hsite.saves_eq.trans ht.saves⟩
  rw [ne_eq, cloudsyncContextInit_fst]
  rintro (⟨hset, -⟩ | ⟨hsettings, -, htables, hstmts⟩)
  · exact ht.cached hset
  · exact hloads ⟨hsettings, htables, hstmts⟩

theorem initInternal_unloaded (hcached : ¬ s.data.siteId.IsSet) {inp : InitInput ι}
    (hloads : ¬ (inp.sanity = .ok () ∧ inp.context.Loads)) :
    (s.cloudsyncInitInternal inp).1 ≠ .ok () ∧ Unloaded s (s.cloudsyncInitInternal inp).2 := by
  have hs : Unloaded s s := ⟨hcached, rfl, rfl⟩
  have hsite := s.cloudsyncInitInternal_site inp
  by_cases hsanity : inp.sanity = .ok ()
  · have hctx := contextInit_unloaded hs fun h => hloads ⟨hsanity, h⟩
    rw [if_pos hsanity] at hsite
    refine ⟨fun hok => hctx.1 ?_, hctx.2.of_site hsite⟩
    rw [cloudsyncInitInternal, hsanity] at hok
    exact (Outcome.andThen_fst_ok.mp hok).1
  · rw [if_neg hsanity] at hsite
    refine ⟨fun hok => hsanity ?_, hs.of_site hsite⟩
    rw [cloudsyncInitInternal] at hok
    rcases hinp : inp.sanity with err | ⟨⟩
    · rw [hinp] at hok
      cases hok
    · rfl

theorem cloudsyncInit_not_opened (hs : s.Agrees) (target : InitTarget ι) {sp : SavepointInput}
    (h : sp.opened = false) : (s.cloudsyncInit hash target sp).2.Agrees := by
  rw [cloudsyncInit, if_pos h]
  exact hs

theorem Agrees.initTarget_one (hs : s.Agrees) {inp : InitInput ι} {sp : SavepointInput}
    (h : s.KeepsSiteId (.init (.one inp) sp)) : (s.cloudsyncInit hash (.one inp) sp).2.Agrees := by
  rcases h with hopened | h
  · exact cloudsyncInit_not_opened hs (.one inp) hopened
  by_cases hstored : s.db.siteId = none
  · rcases h.resolve_left (· hstored) with ⟨hrun, hreleased⟩ | hloads
    · apply cloudsyncInit_agrees hs
      · intro _ _
        apply hs.initInternal_agrees
        rcases hrun.context with ⟨hset, -⟩ | ⟨-, huuid, -⟩
        · exact (hs.not_cached hstored hset).elim
        · exact huuid
      · rintro (hne | hfalse)
        · exact (hne hrun.ok).elim
        · exact (Bool.false_ne_true (hfalse.symm.trans hreleased)).elim
    · rcases initInternal_unloaded (hs.not_cached hstored) hloads with ⟨hne, hun⟩
      exact cloudsyncInit_agrees hs (fun hok => (hne hok).elim)
        fun _ => hs.agrees_of_rollback hun.saves hun.cached hun.returned
  · have hkept := hs.initInternal_kept hstored inp
    exact cloudsyncInit_agrees hs (fun _ _ => hkept.agrees) fun _ => hkept.agrees_rollback

theorem Agrees.initAll_agrees (hs : s.Agrees) {rows : List (InitAllRow ι)}
    (h : s.CompletesAll rows) : (cloudsyncInitAll s rows).2.Agrees := by
  induction rows generalizing s with
  | nil => exact hs
  | cons row rows ih =>
    have hrow : (s.cloudsyncInitInternal row.toInitInput).2.Agrees := by
      apply hs.initInternal_agrees
      rcases h.1.context with ⟨-, hstored⟩ | ⟨-, huuid, -⟩
      · exact .inl hstored
      · exact huuid
    have hok := h.1.ok
    have hrest := h.2
    rw [cloudsyncInitAll]
    generalize s.cloudsyncInitInternal row.toInitInput = x at hrow hok hrest ⊢
    rcases x with ⟨_, t⟩
    cases hok
    exact ih hrow hrest

theorem Agrees.initTarget_all (hs : s.Agrees) {rows : List (InitAllRow ι)} {sp : SavepointInput}
    (h : s.KeepsSiteId (.init (.all rows) sp)) :
    (s.cloudsyncInit hash (.all rows) sp).2.Agrees := by
  rcases h with hopened | h
  · exact cloudsyncInit_not_opened hs (.all rows) hopened
  by_cases hstored : s.db.siteId = none
  · rcases h.resolve_left (· hstored) with ⟨hrun, hreleased⟩ | hloads
    · apply cloudsyncInit_agrees hs
      · exact fun _ _ => hs.initAll_agrees hrun
      · rintro (hne | hfalse)
        · exact (hne hrun.ok).elim
        · exact (Bool.false_ne_true (hfalse.symm.trans hreleased)).elim
    · cases rows with
      | nil => exact cloudsyncInit_agrees hs (fun _ _ => hs) fun _ => hs
      | cons row rows =>
        rcases hloads row rfl with ⟨hrow, hcleanup⟩
        rcases initInternal_unloaded (hs.not_cached hstored) hrow with ⟨hne, hun⟩
        have hend : Unloaded s (cloudsyncInitAll s (row :: rows)).2 ∧
            (cloudsyncInitAll s (row :: rows)).1 ≠ .ok () := by
          rw [cloudsyncInitAll]
          generalize s.cloudsyncInitInternal row.toInitInput = x at hne hun ⊢
          rcases x with ⟨err | ⟨⟩, t⟩
          · refine ⟨(contextInit_unloaded hun hcleanup).2.of_site
              (t.cloudsyncCleanupInternal_site row.cleanup), ?_⟩
            rintro ⟨⟩
          · exact (hne rfl).elim
        exact cloudsyncInit_agrees hs (fun hok => (hend.2 hok).elim)
          fun _ => hs.agrees_of_rollback hend.1.saves hend.1.cached hend.1.returned
  · have hkept := hs.initAll_kept hstored rows
    exact cloudsyncInit_agrees hs (fun _ _ => hkept.agrees) fun _ => hkept.agrees_rollback

omit [DecidableEq ι] in
theorem SiteInit.stored_of_ok {inp : ContextInput ι} {x : Outcome (Session ι)}
    (h : SiteInit inp s x) (hok : x.1 = .ok ()) : x.2.db.siteId ≠ none := by
  cases h with
  | refused => cases hok
  | loaded row hstored =>
    rw [hstored]
    exact Option.some_ne_none row

omit [DecidableEq ι] in
theorem mem_of_mem_alterSaves {save : Savepoint × Db ι} (h : save ∈ s.alterSaves) :
    save ∈ s.saves :=
  (List.dropWhile_suffix _).subset h

omit [DecidableEq ι] in
/-- A rollback of the savepoint of an alter to a database with the same site id. -/
theorem Agrees.rollbackAlter (hs : s.Agrees)
    (h : ∀ save ∈ s.alterSaves.head?, save.2.siteId = s.db.siteId) (released : Bool) :
    (s.rollbackAlter released).Agrees := by
  rw [Session.rollbackAlter]
  have hmem := @mem_of_mem_alterSaves ι s
  generalize s.alterSaves = saves at h hmem ⊢
  cases saves with
  | nil => exact hs
  | cons save saves =>
    have hsave : save.2.siteId = s.db.siteId := h save rfl
    refine ⟨fun hset => hsave.trans (hs.cached hset), hsave ▸ hs.stored, fun x hx => ?_,
      hs.returned⟩
    cases released with
    | true => exact hs.saves x (hmem (List.mem_cons_of_mem save hx))
    | false => exact hs.saves x (hmem hx)

theorem Agrees.beginAlter (hs : s.Agrees) {inp : BeginAlterInput ι}
    (h : s.KeepsSiteId (.beginAlter inp)) : (s.cloudsyncBeginAlter inp).2.Agrees := by
  have hsite := s.cloudsyncContextInit_site inp.context
  have hagrees := hsite.agrees hs h.1
  have hsaves := hsite.saves_eq
  have hstored := hsite.stored_eq
  rw [cloudsyncBeginAlter]
  generalize s.cloudsyncContextInit inp.context = x at hagrees hsaves hstored ⊢
  rcases x with ⟨err | ⟨⟩, t⟩
  · exact hagrees
  rw [Outcome.andThen_ok]
  by_cases hopened : inp.opened = false
  · rw [if_pos hopened]
    apply hagrees.rollbackAlter
    intro save hsave
    change save ∈ (alterSaves t).head? at hsave
    rw [alterSaves, hsaves] at hsave
    rcases h.2 hopened save hsave with ⟨hsame, hne⟩
    exact hsame.trans (hstored hne).symm
  rw [if_neg hopened]
  have hpush : Agrees { t with saves := (.cloudsyncAlter, t.db) :: t.saves } :=
    ⟨hagrees.cached, hagrees.stored, List.forall_mem_cons.mpr ⟨hagrees.stored, hagrees.saves⟩,
      hagrees.returned⟩
  have hback : ∀ save ∈ (alterSaves { t with saves := (.cloudsyncAlter, t.db) :: t.saves }).head?,
      save.2.siteId = t.db.siteId := by
    rintro save ⟨⟩
    rfl
  dsimp only
  split_ifs
  · exact hpush.rollbackAlter hback inp.releasedAfter
  · exact hpush.of_site (setTable_site inp.table (some true))
  · exact hpush.rollbackAlter hback inp.releasedAfter

theorem Agrees.reloadTable_kept (hs : s.Agrees) (hstored : s.db.siteId ≠ none)
    (inp : CommitAlterInput ι) : Kept s (s.reloadTable inp).2 := by
  have hself : Kept s s := ⟨hs, rfl, rfl⟩
  have hset : ∀ table, Kept s (s.setTable inp.table table) := fun table =>
    hself.of_site (setTable_site inp.table table)
  rw [reloadTable]
  split_ifs
  · exact hself
  · exact (hset none).trans ((hset none).agrees.initInternal_kept hstored _)
  · exact hset (some false)

/-- What precedes the release of the savepoint in `cloudsync_commit_alter`. -/
theorem Agrees.commitAlter_reload (hs : s.Agrees) {inp : CommitAlterInput ι}
    (huuid : s.db.siteId ≠ none ∨ inp.context.uuid ≠ none) :
    let t := ((s.cloudsyncContextInit inp.context).andThen fun s => s.reloadTable inp).2
    t.Agrees ∧ t.saves = s.saves ∧ (s.db.siteId ≠ none → t.db.siteId = s.db.siteId) := by
  have hsite := s.cloudsyncContextInit_site inp.context
  have hagrees := hsite.agrees hs huuid
  have hsaves := hsite.saves_eq
  have heq := hsite.stored_eq
  have hstored := hsite.stored_of_ok
  generalize s.cloudsyncContextInit inp.context = x at hagrees hsaves heq hstored ⊢
  rcases x with ⟨err | ⟨⟩, t⟩
  · exact ⟨hagrees, hsaves, heq⟩
  · have hkept := hagrees.reloadTable_kept (hstored rfl) inp
    exact ⟨hkept.agrees, hkept.saves.trans hsaves, fun h => hkept.stored.trans (heq h)⟩

theorem Agrees.commitAlter (hs : s.Agrees) {inp : CommitAlterInput ι}
    (h : s.KeepsSiteId (.commitAlter inp)) : (s.cloudsyncCommitAlter hash inp).2.Agrees := by
  rcases hs.commitAlter_reload h.1 with ⟨hagrees, hsaves, hstored⟩
  have hback : (((s.cloudsyncContextInit inp.context).andThen fun s =>
      s.reloadTable inp).2.rollbackAlter inp.releasedAfter).Agrees := by
    refine hagrees.rollbackAlter (fun save hsave => ?_) inp.releasedAfter
    rw [alterSaves, hsaves] at hsave
    rcases h.2 save hsave with ⟨hsame, hne⟩
    rw [hsame, hstored hne]
  rw [cloudsyncCommitAlter]
  generalize (s.cloudsyncContextInit inp.context).andThen (fun s => s.reloadTable inp) = x
    at hagrees hback ⊢
  rcases x with ⟨err | ⟨⟩, t⟩
  · exact hback
  · have hmem := @mem_of_mem_alterSaves ι t
    simp only [releaseAlter]
    cases hsave : t.alterSaves with
    | nil => exact hback
    | cons save saves =>
      cases inp.released with
      | false => exact hback
      | true =>
        refine Agrees.of_site (dbutilsUpdateSchemaHash_site hash) ?_
        refine ⟨hagrees.cached, hagrees.stored, fun x hx => hagrees.saves x (hmem ?_),
          hagrees.returned⟩
        rw [hsave]
        exact List.mem_cons_of_mem save hx

/-- Every allowed step keeps the cached site id and the stored one together. -/
theorem Agrees.step (hs : s.Agrees) {e : Event ι} (he : s.KeepsSiteId e) {t : Session ι}
    (ht : s.step hash e = some t) : t.Agrees := by
  cases e with
  | begin =>
    cases ht
    rw [begin]
    split_ifs
    · exact ⟨hs.cached, hs.stored, by simpa using hs.stored, hs.returned⟩
    · exact hs
  | commit =>
    cases ht
    exact ⟨hs.cached, hs.stored, by simp [commit], hs.returned⟩
  | rollback =>
    cases ht
    rw [rollback]
    cases hsave : s.saves.getLast? with
    | none => exact hs
    | some save =>
      exact ⟨fun hset => he hset save hsave, hs.saves save (List.mem_of_getLast? hsave), by simp,
        hs.returned⟩
  | contextInit inp =>
    cases ht
    exact (s.cloudsyncContextInit_site inp).agrees hs he
  | init target sp =>
    cases ht
    cases target with
    | one inp => exact hs.initTarget_one he
    | all rows => exact hs.initTarget_all he
  | cleanup target =>
    cases ht
    cases target with
    | one inp => exact cleanup_agrees hash (hs.cleanupInternal_agrees he)
    | all rows drops => exact cleanup_agrees hash (hs.cleanupAll_agrees he)
  | terminate =>
    cases ht
    exact ⟨fun hset => (Uuid.not_isSet_cleared _ hset).elim, hs.stored, hs.saves, hs.returned⟩
  | beginAlter inp =>
    cases ht
    exact hs.beginAlter he
  | commitAlter inp =>
    cases ht
    exact hs.commitAlter he
  | alterSchema schema =>
    cases ht
    exact ⟨hs.cached, hs.stored, hs.saves, hs.returned⟩

omit [DecidableEq ι] in
theorem agrees_opened {db : Db ι} (hdb : db.siteId ≠ some none) (inp : ContextInput ι) :
    (opened db inp).Agrees := by
  have hstart : Agrees ⟨db, ⟨.zero, fun _ => none, 0⟩, [], []⟩ :=
    ⟨fun hset => (Uuid.not_isSet_zero hset).elim, hdb, by simp, by simp [ReturnsStored]⟩
  rw [opened]
  split_ifs with hnone
  · exact hstart
  · exact (cloudsyncContextInit_site _ inp).agrees hstart (.inl hnone)

/-- A connection that opens a database whose site id has its row, when it is there. -/
def Opens (s : Session ι) : Prop := ∃ db inp, db.siteId ≠ some none ∧ s = opened db inp

/-- In every run that takes back no cached site id, `cloudsync_context_init`
always returns the stored one. -/
theorem returnsStored_of_reachable (hash : String → UInt64)
    (h : Reachable (step hash) Opens KeepsSiteId s) : s.ReturnsStored := by
  have hagrees : s.Agrees := by
    apply h.invariant
    · rintro s ⟨db, inp, hdb, rfl⟩
      exact agrees_opened hdb inp
    · exact fun s e t hs he ht => hs.step he ht
  exact hagrees.returned

def allSucceed (id : Uuid) : ContextInput Unit := ⟨true, some id, true, fun _ => true, true⟩

/-- A table is augmented in a transaction that commits, and the context is used again. -/
theorem returnsStored_committed : ∃ s : Session Unit,
    s.returned = [(⟨1, fun _ => 0⟩, some (some ⟨1, fun _ => 0⟩)),
      (⟨1, fun _ => 0⟩, some (some ⟨1, fun _ => 0⟩))] ∧ s.ReturnsStored := by
  let id : Uuid := ⟨1, fun _ => 0⟩
  let empty : Db Unit := ⟨none, none, none, []⟩
  let inp : InitInput Unit := ⟨(), .crdtCls, .ok (), allSucceed id, true, true, true, true⟩
  have hinp : ((opened empty (allSucceed id)).begin).Completes inp :=
    ⟨rfl, .inr ⟨rfl, .inr (Option.some_ne_none id), rfl, rfl⟩, nofun, .inl rfl, rfl, .inr rfl, rfl⟩
  refine ⟨_, rfl, returnsStored_of_reachable (fun _ => 0) (.next (.next (.next (.next
    (.start ⟨empty, allSucceed id, nofun, rfl⟩) .begin trivial rfl) (.init (.one inp) .succeeds)
      (.inr (.inr (.inl ⟨hinp, rfl⟩))) rfl) .commit trivial rfl)
      (.contextInit (allSucceed id)) (.inl ?_) rfl)⟩
  exact Option.some_ne_none (some id)

/-- A call with an algorithm that does not exist fails after the site id was
cached: its rollback leaves the cache alone, and the next call stores another id. -/
theorem not_returnsStored : ∃ s : Session Unit,
    Reachable (step fun _ => 0) Opens (fun _ _ => True) s ∧ ¬ s.ReturnsStored := by
  let empty : Db Unit := ⟨none, none, none, []⟩
  let bad : InitInput Unit :=
    ⟨(), .none, .ok (), allSucceed ⟨1, fun _ => 0⟩, true, true, true, true⟩
  let good : InitInput Unit :=
    ⟨(), .crdtCls, .ok (), allSucceed ⟨2, fun _ => 0⟩, true, true, true, true⟩
  refine ⟨_, .next (.next (.start ⟨empty, allSucceed ⟨1, fun _ => 0⟩, nofun, rfl⟩)
    (.init (.one bad) .succeeds) trivial rfl) (.init (.one good) .succeeds) trivial rfl, ?_⟩
  decide

end
end Session
end SqliteSync.Config
