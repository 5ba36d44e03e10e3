import Mathlib.Data.List.MinMax
import SqliteSync.Library.Run
import SqliteSync.Payload.Apply
import SqliteSync.Schema.Hash

/-!
# The schemas a database was told of

A connection keeps the hash of the schema in its context and puts it on its payloads. The
database keeps each hash it was told, with the order in which it was told them, and takes
the payloads of any. A connection does not tell the hash it already has in its context,
whatever the others have told since.
-/
namespace SqliteSync.Schema
open Library Payload

namespace SchemaDb
variable (d : SchemaDb)

/-- `dbutils_schema_hash`; zero where no hash is stored. -/
def dbutilsSchemaHash : UInt64 := ((d.schemaVersions.argmax (·.2)).map (·.1)).getD 0

def dbutilsCheckSchemaHash (hash : UInt64) : Bool := d.schemaVersions.any fun v => v.1 == hash

variable {d}

theorem dbutilsCheckSchemaHash_iff {hash : UInt64} :
    d.dbutilsCheckSchemaHash hash = true ↔ ∃ v ∈ d.schemaVersions, v.1 = hash := by
  simp [dbutilsCheckSchemaHash]

theorem lt_next {v : UInt64 × ℕ} (hv : v ∈ d.schemaVersions) :
    v.2 < (d.schemaVersions.map (·.2)).foldl max 0 + 1 := by
  have hmem : v.2 ∈ d.schemaVersions.map (·.2) := List.mem_map_of_mem hv
  rw [List.foldl_max]
  cases hmax : (d.schemaVersions.map (·.2)).max? with
  | none =>
    rw [List.max?_eq_none_iff.mp hmax] at hmem
    cases hmem
  | some m =>
    have hle := (List.max?_eq_some_iff.mp hmax).2 v.2 hmem
    rw [Option.getD_some]
    omega

theorem dbutilsSchemaHash_putVersion (d : SchemaDb) (hash : UInt64) :
    (d.putVersion hash).dbutilsSchemaHash = hash := by
  rw [dbutilsSchemaHash, putVersion, List.argmax_concat]
  cases hmax : (d.schemaVersions.filter fun v => v.1 ≠ hash).argmax (·.2) with
  | none => rfl
  | some v =>
    have hlt := lt_next (List.mem_filter.mp (List.argmax_mem hmax)).1
    simp [hlt]

theorem dbutilsCheckSchemaHash_putVersion (d : SchemaDb) (hash h : UInt64) :
    (d.putVersion hash).dbutilsCheckSchemaHash h = true ↔
      h = hash ∨ d.dbutilsCheckSchemaHash h = true := by
  rw [dbutilsCheckSchemaHash_iff, dbutilsCheckSchemaHash_iff, putVersion]
  constructor
  · rintro ⟨v, hv, rfl⟩
    rcases List.mem_append.mp hv with hv | hv
    · exact .inr ⟨v, (List.mem_filter.mp hv).1, rfl⟩
    · exact .inl (congrArg Prod.fst (List.mem_singleton.mp hv))
  · rintro (rfl | ⟨v, hv, rfl⟩)
    · exact ⟨_, List.mem_append_right _ (List.mem_singleton_self _), rfl⟩
    · by_cases heq : v.1 = hash
      · exact ⟨_, List.mem_append_right _ (List.mem_singleton_self _), heq.symm⟩
      · exact ⟨v, List.mem_append_left _ (List.mem_filter.mpr ⟨hv, decide_eq_true heq⟩), rfl⟩

end SchemaDb

/-- A database, the hashes in the contexts of its connections, and the schemas it was told
of, the last one first. -/
structure Connections (κ : Type) where
  db : SchemaDb
  cached : κ → UInt64
  told : List (List UInt8)

namespace Connections
variable {κ : Type}

/-- What happens to the schema: its tables change, a connection updates the hash, or
reads it as its context is initialised. -/
inductive Event (κ : Type) where
  | alter (master : List MasterRow) (tableSettings : List String)
  | update (written : Bool) (k : κ)
  | context (k : κ)

def step [DecidableEq κ] (s : Connections κ) : Event κ → Option (Connections κ)
  | .alter master tableSettings =>
    some { s with db := { s.db with master := master, tableSettings := tableSettings } }
  | .update written k =>
    let x := dbutilsUpdateSchemaHash written s.db (s.cached k)
    some {
      db := x.2.1
      cached := Function.update s.cached k x.2.2
      told := match x.1 with
        | .error => s.told
        | _ => s.db.schemaText.toList ++ s.told }
  | .context k => some { s with cached := Function.update s.cached k s.db.dbutilsSchemaHash }

/-- No schema was told, and no context is initialised. -/
def Initial (s : Connections κ) : Prop :=
  s.db.schemaVersions = [] ∧ s.cached = (fun _ => 0) ∧ s.told = []

/-- `openPayload` does not refuse the hash of a payload that connection `k` applies. -/
def Accepts (s : Connections κ) (k : κ) (hash : UInt64) : Prop :=
  s.cached k = hash ∨ s.db.dbutilsCheckSchemaHash hash = true

/-- No schema is told that hashes to zero, as a context that is not initialised has it. -/
def Nonzero (s : Connections κ) : Event κ → Prop
  | .update _ _ => ∀ text ∈ s.db.schemaText, fnv1aHash text ≠ 0
  | _ => True

instance (s : Connections κ) : (e : Event κ) → Decidable (s.Nonzero e)
  | .update _ _ => inferInstanceAs (Decidable (∀ text ∈ s.db.schemaText, fnv1aHash text ≠ 0))
  | .alter _ _ => isTrue trivial
  | .context _ => isTrue trivial

/-- The hash in the context of the connection is the last one of the database. -/
def Fresh (s : Connections κ) : Event κ → Prop
  | .update _ k => s.cached k = s.db.dbutilsSchemaHash
  | _ => True

instance (s : Connections κ) : (e : Event κ) → Decidable (s.Fresh e)
  | .update _ k => inferInstanceAs (Decidable (s.cached k = s.db.dbutilsSchemaHash))
  | .alter _ _ => isTrue trivial
  | .context _ => isTrue trivial

/-- The hashes of a database are those of the schemas it was told of, and the contexts have
some of them. -/
structure Logged (s : Connections κ) : Prop where
  check : ∀ hash, s.db.dbutilsCheckSchemaHash hash = true ↔ ∃ text ∈ s.told, fnv1aHash text = hash
  cached : ∀ k, s.cached k = 0 ∨ s.db.dbutilsCheckSchemaHash (s.cached k) = true

variable {s t : Connections κ}

theorem dbutilsCheckSchemaHash_dbutilsSchemaHash (d : SchemaDb) :
    d.dbutilsSchemaHash = 0 ∨ d.dbutilsCheckSchemaHash d.dbutilsSchemaHash = true := by
  rw [SchemaDb.dbutilsSchemaHash]
  cases hmax : d.schemaVersions.argmax (·.2) with
  | none => exact .inl rfl
  | some v =>
    exact .inr (SchemaDb.dbutilsCheckSchemaHash_iff.mpr ⟨v, List.argmax_mem hmax, rfl⟩)

theorem logged_initial (h : s.Initial) : s.Logged := by
  rcases h with ⟨hversions, hcached, htold⟩
  refine ⟨fun hash => ?_, fun k => .inl (congrFun hcached k)⟩
  rw [SchemaDb.dbutilsCheckSchemaHash_iff, hversions, htold]
  simp

section
variable [DecidableEq κ]

/-- What an update does: nothing, or it tells of the schema, whose hash the connection has
in its context or puts. -/
theorem update_cases (s : Connections κ) (written : Bool) (k : κ) :
    s.step (.update written k) = some s ∨ ∃ text, s.db.schemaText = some text ∧
      (s.cached k = fnv1aHash text ∧
        s.step (.update written k) = some { s with told := text :: s.told } ∨
      s.cached k ≠ fnv1aHash text ∧
        s.step (.update written k) = some ⟨s.db.putVersion (fnv1aHash text),
          Function.update s.cached k (fnv1aHash text), text :: s.told⟩) := by
  rw [step, dbutilsUpdateSchemaHash]
  cases htext : s.db.schemaText with
  | none =>
    left
    simp
  | some text =>
    by_cases hsame : s.cached k = fnv1aHash text
    · right
      refine ⟨text, rfl, .inl ⟨hsame, ?_⟩⟩
      simp [hsame]
    · cases written with
      | false =>
        left
        simp [hsame]
      | true =>
        right
        refine ⟨text, rfl, .inr ⟨hsame, ?_⟩⟩
        simp [hsame]

theorem Logged.step (hs : s.Logged) {e : Event κ} (he : s.Nonzero e) (h : s.step e = some t) :
    t.Logged := by
  cases e with
  | alter master tableSettings =>
    rw [Connections.step, Option.some_inj] at h
    subst h
    exact ⟨hs.check, hs.cached⟩
  | update written k =>
    rcases update_cases s written k with hnone | ⟨text, htext, ⟨hsame, hkept⟩ | ⟨-, hput⟩⟩
    · rw [hnone, Option.some_inj] at h
      exact h ▸ hs
    · rw [hkept, Option.some_inj] at h
      subst h
      refine ⟨fun hash => ?_, hs.cached⟩
      have hknown := (hs.cached k).resolve_left (hsame ▸ he text htext)
      rw [List.exists_mem_cons_iff, ← hs.check]
      refine ⟨.inr, ?_⟩
      rintro (rfl | hcheck)
      · exact hsame ▸ hknown
      · exact hcheck
    · rw [hput, Option.some_inj] at h
      subst h
      refine ⟨fun hash => ?_, fun l => ?_⟩
      · rw [SchemaDb.dbutilsCheckSchemaHash_putVersion, hs.check, List.exists_mem_cons_iff, eq_comm]
      · dsimp only
        rw [SchemaDb.dbutilsCheckSchemaHash_putVersion, Function.update_apply]
        split_ifs
        · exact .inr (.inl rfl)
        · exact (hs.cached l).imp_right .inr
  | context k =>
    rw [Connections.step, Option.some_inj] at h
    subst h
    refine ⟨hs.check, fun l => ?_⟩
    dsimp only
    rw [Function.update_apply]
    split_ifs
    · exact dbutilsCheckSchemaHash_dbutilsSchemaHash s.db
    · exact hs.cached l

theorem logged_of_reachable (h : Reachable step Initial Nonzero s) : s.Logged :=
  h.invariant (fun _ => logged_initial) fun _ _ _ hs he ht => hs.step he ht

end

theorem rowsBuffer_code {r : Receiver} {header : NetworkHeader} {buffer : List UInt8}
    {err : SqlError} (h : rowsBuffer r header buffer = .error err) : err.code ≠ some 20 := by
  rw [rowsBuffer] at h
  split_ifs at h
  · split at h
    · split_ifs at h
      cases h
      exact (by decide : some 21 ≠ some 20)
    · cases h
      exact (by decide : some 21 ≠ some 20)
  · cases h
    exact (by decide : some 7 ≠ some 20)

/-- `cloudsync_payload_apply` refuses a payload for its hash, with `SQLITE_MISMATCH`, where
neither the context nor the database has it. -/
theorem openPayload_mismatch_iff {r : Receiver} {k : κ}
    (hcached : r.schemaHash = some (s.cached k).toNat)
    (hknown : ∀ hash : UInt64, r.knownHash hash.toNat = s.db.dbutilsCheckSchemaHash hash)
    {payload : List UInt8} {hash : UInt64}
    (hhash : ((NetworkHeader.load r.e payload).toHost r.e).schemaHash = hash.toNat) :
    (∃ message, openPayload r payload = .error ⟨message, some 20⟩) ↔ ¬ s.Accepts k hash := by
  have haccepts : s.Accepts k hash ↔
      ¬ (r.schemaHash ≠ some hash.toNat ∧ r.knownHash hash.toNat = false) := by
    rw [Accepts, hcached, hknown, ne_eq, Option.some_inj, UInt64.toNat_inj, not_and_or, not_not,
      Bool.not_eq_false]
  rw [haccepts, not_not, openPayload, hhash]
  by_cases hunknown : r.schemaHash ≠ some hash.toNat ∧ r.knownHash hash.toNat = false
  · rw [if_pos hunknown]
    exact iff_of_true ⟨_, rfl⟩ hunknown
  · rw [if_neg hunknown]
    refine iff_of_false ?_ hunknown
    rintro ⟨message, h⟩
    by_cases hinvalid : ((NetworkHeader.load r.e payload).toHost r.e).signature ≠
        CLOUDSYNC_PAYLOAD_SIGNATURE ∨ ((NetworkHeader.load r.e payload).toHost r.e).ncols = 0
    · rw [if_pos hinvalid] at h
      cases h
    · rw [if_neg hinvalid] at h
      cases hbuffer : rowsBuffer r ((NetworkHeader.load r.e payload).toHost r.e)
          (payload.drop headerSize) with
      | error err =>
        rw [hbuffer] at h
        have hcode := rowsBuffer_code hbuffer
        rw [Except.error.inj h] at hcode
        exact hcode rfl
      | ok buffer =>
        rw [hbuffer] at h
        dsimp only at h
        split_ifs at h
        cases h

section
variable [DecidableEq κ]

/-- In every run, a connection whose context is initialised takes exactly the payloads made
under a schema that the database was told of: whatever other connections told since, and
whatever the schema is now. -/
theorem openPayload_told_iff (h : Reachable step Initial Nonzero s) {r : Receiver} {k : κ}
    (hcached : r.schemaHash = some (s.cached k).toNat)
    (hknown : ∀ hash : UInt64, r.knownHash hash.toNat = s.db.dbutilsCheckSchemaHash hash)
    {payload : List UInt8} {hash : UInt64} (hne : hash ≠ 0)
    (hhash : ((NetworkHeader.load r.e payload).toHost r.e).schemaHash = hash.toNat) :
    (∃ message, openPayload r payload = .error ⟨message, some 20⟩) ↔
      ∀ text ∈ s.told, fnv1aHash text ≠ hash := by
  have hs := logged_of_reachable h
  have haccepts : s.Accepts k hash ↔ ∃ text ∈ s.told, fnv1aHash text = hash := by
    rw [← hs.check]
    refine ⟨?_, .inr⟩
    rintro (rfl | hcheck)
    · exact (hs.cached k).resolve_left hne
    · exact hcheck
  rw [openPayload_mismatch_iff hcached hknown hhash, haccepts]
  simp

def tableAs (sql : String) : Event Bool := .alter [⟨"table", "t", ascii sql⟩] ["t"]

def untold : Connections Bool := ⟨⟨[], [], []⟩, fun _ => 0, []⟩

/-- A payload made before the table got a column, applied after. -/
theorem openPayload_told_older : ∃ s : Connections Bool,
    s.told.map fnv1aHash = [15150361741509409947, 824971362051131385] ∧
      ¬ ∃ message, openPayload { plainReceiver with
          schemaHash := some (s.cached false).toNat
          knownHash := fun hash => s.db.dbutilsCheckSchemaHash (UInt64.ofNat hash) }
        ((cloudsyncNetworkHeaderInit .little 0 9 0 824971362051131385).store .little) =
          .error ⟨message, some 20⟩ := by
  rcases Reachable.exists_of_runs (@step Bool _) Initial Nonzero (s := untold) ⟨rfl, rfl, rfl⟩
    [tableAs "create table t(a)", .update true true, tableAs "create table t(a,b)", .update true true,
      .context false]
    (fun s => decide (s.told.map fnv1aHash = [15150361741509409947, 824971362051131385]))
    (by decide +kernel) with ⟨s, hs, htold⟩
  have htold := of_decide_eq_true htold
  refine ⟨s, htold, fun hrefused => ?_⟩
  have hhash : ((NetworkHeader.load .little
      ((cloudsyncNetworkHeaderInit .little 0 9 0 824971362051131385).store .little)).toHost
        .little).schemaHash = (824971362051131385 : UInt64).toNat := by
    decide +kernel
  have hnone := (openPayload_told_iff hs (k := false) rfl (fun hash => by simp)
    (by decide : (824971362051131385 : UInt64) ≠ 0) hhash).mp hrefused
  have hmem : (824971362051131385 : UInt64) ∈ s.told.map fnv1aHash := by
    rw [htold]
    decide
  rcases List.mem_map.mp hmem with ⟨text, htext, hhash⟩
  exact hnone text htext hhash

/-- In a run of updates by connections that have the last hash of the database in their
contexts, the last hash is that of the schema that was told last. -/
theorem schemaHash_told (h : Reachable step Initial Fresh s) :
    ∀ text ∈ s.told.head?, s.db.dbutilsSchemaHash = fnv1aHash text := by
  apply h.invariant (I := fun s => ∀ text ∈ s.told.head?, s.db.dbutilsSchemaHash = fnv1aHash text)
  · rintro s ⟨-, -, htold⟩ text htext
    rw [htold] at htext
    cases htext
  · intro s e t hs he ht
    cases e with
    | alter master tableSettings =>
      rw [step, Option.some_inj] at ht
      exact ht ▸ hs
    | update written k =>
      rcases update_cases s written k with hnone | ⟨text, -, ⟨hsame, hkept⟩ | ⟨-, hput⟩⟩
      · rw [hnone, Option.some_inj] at ht
        exact ht ▸ hs
      · rw [hkept, Option.some_inj] at ht
        subst ht
        rintro text' htext'
        cases htext'
        exact he.symm.trans hsame
      · rw [hput, Option.some_inj] at ht
        subst ht
        rintro text' htext'
        cases htext'
        exact SchemaDb.dbutilsSchemaHash_putVersion s.db _
    | context k =>
      rw [step, Option.some_inj] at ht
      exact ht ▸ hs

/-- A column comes and goes, and the connection that told of it goes on. -/
theorem schemaHash_told_again : ∃ s : Connections Bool,
    s.told.head? = some (ascii "create table t(a)") ∧
      s.db.dbutilsSchemaHash = fnv1aHash (ascii "create table t(a)") := by
  rcases Reachable.exists_of_runs (@step Bool _) Initial Fresh (s := untold) ⟨rfl, rfl, rfl⟩
    [tableAs "create table t(a)", .update true true, tableAs "create table t(a,b)", .update true true,
      tableAs "create table t(a)", .update true true]
    (fun s => decide (s.told.head? = some (ascii "create table t(a)"))) (by decide +kernel) with
    ⟨s, hs, htold⟩
  have htold := of_decide_eq_true htold
  exact ⟨s, htold, schemaHash_told hs _ htold⟩

/-- Another connection tells of the column, and the one that takes it away has had the
table without it in its context all along. -/
theorem schemaHash_stale : ∃ s : Connections Bool, Reachable step Initial Nonzero s ∧
    s.told.head? = some (ascii "create table t(a)") ∧
      s.db.dbutilsSchemaHash = fnv1aHash (ascii "create table t(a,b)") := by
  rcases Reachable.exists_of_runs (@step Bool _) Initial Nonzero (s := untold) ⟨rfl, rfl, rfl⟩
    [tableAs "create table t(a)", .update true true, .context false, tableAs "create table t(a,b)",
      .update true true, tableAs "create table t(a)", .update true false]
    (fun s => decide (s.told.head? = some (ascii "create table t(a)") ∧
      s.db.dbutilsSchemaHash = fnv1aHash (ascii "create table t(a,b)"))) (by decide +kernel) with
    ⟨s, hs, hrun⟩
  exact ⟨s, hs, of_decide_eq_true hrun⟩

end
end Connections
end SqliteSync.Schema
