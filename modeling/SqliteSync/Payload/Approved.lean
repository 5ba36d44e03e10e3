import SqliteSync.Payload.Rows

/-!
# What the apply callback is shown

The callback reads the row it approves through the accessors of the decode context,
the INSERT writes what was bound. The two agree for a row whose fields all decode
with the types the context expects; another row leaves in the context what an
earlier row put there.
-/
namespace SqliteSync.Payload
open Codec Library

/-- The fields with an accessor, with the type that the context keeps:
`cloudsync_pk_context_tbl`, `_pk`, `_colname`, `_cl` and `_dbversion`. -/
def accessors : List (ℕ × ℕ) :=
  [(CLOUDSYNC_PK_INDEX_TBL, 3), (CLOUDSYNC_PK_INDEX_PK, 4), (CLOUDSYNC_PK_INDEX_COLNAME, 3),
    (CLOUDSYNC_PK_INDEX_CL, 1), (CLOUDSYNC_PK_INDEX_DBVERSION, 1)]

/-- What a pointer with its length stands for; a null pointer for NULL. -/
def pointed (buffer : List UInt8) (type : ℕ) : Option (ℕ × ℤ) → Option Value
  | none => some .null
  | some (p, len) => (⟨0, type, len, 0, some p⟩ : CbArgs).value buffer

/-- What the accessor of a field returns. -/
def BindContext.shown (buffer : List UInt8) (ctx : BindContext) : ℕ → Option Value
  | CLOUDSYNC_PK_INDEX_TBL => pointed buffer 3 ctx.tbl
  | CLOUDSYNC_PK_INDEX_PK => pointed buffer 4 ctx.pk
  | CLOUDSYNC_PK_INDEX_COLNAME => pointed buffer 3 ctx.colName
  | CLOUDSYNC_PK_INDEX_CL => some (.integer (BitVec.ofInt 64 ctx.cl))
  | CLOUDSYNC_PK_INDEX_DBVERSION => some (.integer (BitVec.ofInt 64 ctx.dbVersion))
  | _ => none

/-- Every field decodes in this row, is bound and has the type the context keeps. -/
def Presentable (limit : ℕ) (calls : List CbArgs) : Prop :=
  ∀ x ∈ accessors, ∃ a ∈ calls,
    bindAccepts limit insertParams a = true ∧ a.index = x.1 ∧ a.type = x.2

instance (limit : ℕ) (calls : List CbArgs) : Decidable (Presentable limit calls) :=
  List.decidableBAll _ _

def RowRecord.ShownAsBound (buffer : List UInt8) (row : RowRecord) : Prop :=
  ∀ x ∈ accessors, row.ctx.shown buffer x.1 = boundValue buffer (row.vm x.1)

/-- What is approved is what is applied: an approved row is shown as it is bound, and
one with a field that cannot be shown is not applied. -/
def AppliesApproved (limit : ℕ) (buffer : List UInt8) (host : Host) (rows : List RowRecord) : Prop :=
  ∀ i row, rows[i]? = some row → host.approved i = true →
    row.ShownAsBound buffer ∧ Presentable limit row.calls

section Row

variable {limit off : ℕ} {buffer : List UInt8}

theorem BindContext.shown_set_ne {ctx : BindContext} {a : CbArgs} {k : ℕ} (hk : a.index ≠ k) :
    (ctx.set a).shown buffer k = ctx.shown buffer k := by
  unfold BindContext.set
  split
  case h_9 => rfl
  all_goals
    rename_i hindex htype
    unfold BindContext.shown
    split
    all_goals first | rfl | exact absurd hindex hk

theorem BindContext.shown_set {ctx : BindContext} {a : CbArgs} (ha : (a.index, a.type) ∈ accessors)
    (hptr : a.type = 3 ∨ a.type = 4 → a.pval.isSome) :
    (ctx.set a).shown buffer a.index = a.value buffer := by
  obtain ⟨index, type, ival, dval, pval⟩ := a
  simp only [accessors, List.mem_cons, Prod.mk.injEq, List.not_mem_nil, or_false] at ha
  rcases ha with ⟨rfl, rfl⟩ | ⟨rfl, rfl⟩ | ⟨rfl, rfl⟩ | ⟨rfl, rfl⟩ | ⟨rfl, rfl⟩
  all_goals
    cases pval
    all_goals simp_all [BindContext.set, BindContext.shown, pointed, CbArgs.value]

/-- A step of the replay touches the field of its own index only. -/
theorem callback_untouched (s : Stmt × BindContext) {a : CbArgs} {k : ℕ} (hk : a.index ≠ k) :
    (cloudsyncPkDecodeBindCallback limit off s a).2.1 k = s.1 k ∧
      (cloudsyncPkDecodeBindCallback limit off s a).2.2.shown buffer k = s.2.shown buffer k := by
  have hk' : (a.shift off).index ≠ k := hk
  rw [cloudsyncPkDecodeBindCallback_snd]
  constructor
  · simp only [pkDecodeBindCallback]
    split_ifs <;> simp [hk'.symm]
  · dsimp only
    split_ifs
    · exact BindContext.shown_set_ne hk'
    · rfl

theorem replay_untouched (s : Stmt × BindContext) {calls : List CbArgs} {k : ℕ}
    (hk : ∀ a ∈ calls, a.index ≠ k) :
    (replay limit off s calls).1 k = s.1 k ∧
      (replay limit off s calls).2.shown buffer k = s.2.shown buffer k := by
  induction calls generalizing s with
  | nil => exact ⟨rfl, rfl⟩
  | cons a calls ih =>
    have hstep := @callback_untouched limit off buffer s a k (hk a List.mem_cons_self)
    have hrest := ih (cloudsyncPkDecodeBindCallback limit off s a).2 fun b hb => hk b (.tail _ hb)
    exact ⟨hrest.1.trans hstep.1, hrest.2.trans hstep.2⟩

/-- After a row whose calls have different indices a field shows what its call bound. -/
theorem replay_shown (s : Stmt × BindContext) {calls : List CbArgs}
    (hindex : (calls.map (·.index)).Nodup) {a : CbArgs} (ha : a ∈ calls)
    (haccepts : bindAccepts limit insertParams a = true) (hfield : (a.index, a.type) ∈ accessors)
    (hptr : a.type = 3 ∨ a.type = 4 → a.pval.isSome) :
    (replay limit off s calls).2.shown buffer a.index =
      boundValue buffer ((replay limit off s calls).1 a.index) := by
  rcases List.append_of_mem ha with ⟨before, after, rfl⟩
  rw [List.map_append, List.map_cons, List.nodup_append, List.nodup_cons] at hindex
  have hafter : ∀ b ∈ after, b.index ≠ a.index := by
    intro b hb heq
    apply hindex.2.1.1
    rw [← heq]
    exact List.mem_map_of_mem hb
  have hsplit : replay limit off s (before ++ a :: after) = replay limit off
      (cloudsyncPkDecodeBindCallback limit off (replay limit off s before) a).2 after := by
    simp [replay]
  have huntouched := @replay_untouched limit off buffer
    (cloudsyncPkDecodeBindCallback limit off (replay limit off s before) a).2 after a.index hafter
  rw [hsplit, huntouched.1, huntouched.2, cloudsyncPkDecodeBindCallback_snd, if_pos haccepts]
  have hvm : (pkDecodeBindCallback limit insertParams (replay limit off s before).1
      (a.shift off)).2 a.index = some (a.shift off) := by
    rw [pkDecodeBindCallback, if_pos (show bindAccepts limit insertParams (a.shift off) = true from
      haccepts)]
    exact Function.update_self _ _ _
  have hshown := @BindContext.shown_set buffer (replay limit off s before).2 (a.shift off) hfield
    (by simpa [CbArgs.shift] using hptr)
  have htype : ¬ (a.shift off).type = 2 := by
    have hne : ∀ x ∈ accessors, ¬ x.2 = 2 := by decide
    exact hne _ hfield
  dsimp only
  rw [hvm, boundValue, if_neg fun h => htype h.1]
  exact hshown

end Row

/-- Whoever approves the rows, the application applies what was approved, exactly for
the payloads all of whose rows can be presented. -/
theorem cloudsyncPayloadApply_approved_iff (r : Receiver) (payload : List UInt8) :
    (∀ host cursor result header buffer, openPayload r payload = .ok (header, buffer) →
      cloudsyncPayloadApply r host cursor payload = some result →
        AppliesApproved r.limit buffer host result.rows) ↔
    (∀ header buffer rows, openPayload r payload = .ok (header, buffer) →
      payloadCalls r.limit buffer header.ncols header.nrows 0 = some rows →
        ∀ row ∈ rows, Presentable r.limit row.2) := by
  constructor
  · intro h header buffer rows hopen hrows row hrow
    let host : Host := ⟨none, fun _ => SQLITE_DONE⟩
    rcases cloudsyncPayloadApply_isSome host ⟨none, none⟩ hopen hrows with ⟨result, hresult⟩
    have happlies := h host ⟨none, none⟩ result header buffer hopen hresult
    rcases cloudsyncPayloadApply_records hopen hresult with ⟨rows', hrows', hrecords⟩
    rw [hrows, Option.some.injEq] at hrows'
    subst hrows'
    have hmem : row.2 ∈ (records r.limit {} rows).map (·.calls) := by
      rw [records_calls]
      exact List.mem_map_of_mem hrow
    rw [← hrecords, List.mem_map] at hmem
    rcases hmem with ⟨x, hx, hcalls⟩
    rcases List.getElem?_of_mem hx with ⟨i, hi⟩
    rw [← hcalls]
    exact (happlies i x hi rfl).2
  · intro h host cursor result header buffer hopen hresult i x hx _
    rcases cloudsyncPayloadApply_records hopen hresult with ⟨rows, hrows, hrecords⟩
    have hmem := List.mem_of_getElem? hx
    rw [hrecords] at hmem
    rcases mem_records hmem with ⟨row, hrow, ctx, hcalls, hstate⟩
    rcases payloadCalls_spec hrows row hrow with ⟨hindex, hptr⟩
    have hpresentable := h header buffer rows hopen hrows row hrow
    rw [hcalls]
    refine ⟨?_, hpresentable⟩
    intro k hk
    rcases hpresentable k hk with ⟨a, ha, haccepts, hidx, htype⟩
    have hfield : (a.index, a.type) ∈ accessors := by
      rw [hidx, htype]
      exact hk
    have hshown := @replay_shown r.limit row.1 buffer (fun _ => none, ctx) row.2 hindex a ha haccepts
      hfield (hptr a ha)
    rw [← hstate, hidx] at hshown
    exact hshown

/-- Two rows of nine columns; the table name of the second one is a BLOB. -/
def blobNamePayload : List UInt8 :=
  [0x43, 0x4C, 0x53, 0x59, 1, 0, 8, 12, 0, 0, 0, 0, 0, 9, 0, 0, 0, 2, 0, 0, 0, 0, 0, 0, 0, 0,
    0, 0, 0, 0, 0, 0,
    0x0B, 1, 0x61, 0x0C, 1, 1, 0x0B, 1, 0x63, 5, 9, 1, 9, 1, 0x0C, 1, 1, 9, 1, 9, 0,
    0x0C, 1, 0x62, 0x0C, 1, 1, 0x0B, 1, 0x63, 5, 9, 1, 9, 2, 0x0C, 1, 1, 9, 1, 9, 1]

/-- The callback is shown the table of the first row, the INSERT gets another name. -/
theorem cloudsyncPayloadApply_shows_stale :
    ∃ header buffer result, openPayload plainReceiver blobNamePayload = .ok (header, buffer) ∧
      cloudsyncPayloadApply plainReceiver (failsAt 9) ⟨none, none⟩ blobNamePayload = some result ∧
      result.rows.map (fun x => (x.ctx.shown buffer 0, boundValue buffer (x.vm 0))) =
        [(some (.text ⟨[0x61], by decide⟩), some (.text ⟨[0x61], by decide⟩)),
          (some (.text ⟨[0x61], by decide⟩), some (.blob ⟨[0x62], by decide⟩))] ∧
      ¬ AppliesApproved plainReceiver.limit buffer (failsAt 9) result.rows := by
  have hrun : (cloudsyncPayloadApply plainReceiver (failsAt 9) ⟨none, none⟩ blobNamePayload).map
      (fun result => result.rows.map fun x => (x.ctx.shown (blobNamePayload.drop 32) 0,
        boundValue (blobNamePayload.drop 32) (x.vm 0))) =
        some [(some (.text ⟨[0x61], by decide⟩), some (.text ⟨[0x61], by decide⟩)),
          (some (.text ⟨[0x61], by decide⟩), some (.blob ⟨[0x62], by decide⟩))] := by
    decide
  rcases Option.map_eq_some_iff.mp hrun with ⟨result, hresult, hrows⟩
  refine ⟨_, _, result, rfl, hresult, hrows, fun h => ?_⟩
  rcases hsecond : result.rows[1]? with _ | x
  · have hlen := congrArg (fun l => l[1]?) hrows
    simp [hsecond] at hlen
  · have hshown := congrArg (fun l => l[1]?) hrows
    simp only [List.getElem?_map, hsecond, Option.map_some, List.getElem?_cons_succ,
      List.getElem?_cons_zero, Option.some.injEq, Prod.mk.injEq] at hshown
    have heq := (h 1 x hsecond rfl).1 (CLOUDSYNC_PK_INDEX_TBL, 3) (by decide)
    exact absurd (hshown.1.symm.trans (heq.trans hshown.2)) (by decide)

end SqliteSync.Payload
