import SqliteSync.Codec.Decode

/-!
# Binding decoded values to a statement

`pk_decode_bind_callback` hands each call on to `sqlite3_bind_*`. A bind is
refused when the statement has no such parameter or the content is longer than
the connection allows; content is bound by pointer, not copied.
-/
namespace SqliteSync.Codec
open Library

/-- The parameters of a prepared statement: the call each one was last bound by. -/
abbrev Stmt := ℕ → Option CbArgs

/-- Whether `sqlite3_bind_*` returns `SQLITE_OK` on a statement of `nparams`
parameters; `limit` is `SQLITE_LIMIT_LENGTH`. -/
def bindAccepts (limit nparams : ℕ) (a : CbArgs) : Bool :=
  decide (a.index < nparams) &&
    match a.type with
    | 3 => decide (toInt32 a.ival ≤ limit)
    | 4 => decide ((BitVec.ofInt 64 a.ival).toNat ≤ limit)
    | _ => true

/-- `pk_decode_bind_callback`. Content over the limit leaves its parameter NULL. -/
def pkDecodeBindCallback (limit nparams : ℕ) : Callback Stmt := fun vm a =>
  if bindAccepts limit nparams a then (true, Function.update vm a.index (some a))
  else if a.index < nparams then (false, Function.update vm a.index none)
  else (false, vm)

@[simp] theorem pkDecodeBindCallback_fst (limit nparams : ℕ) (vm : Stmt) (a : CbArgs) :
    (pkDecodeBindCallback limit nparams vm a).1 = bindAccepts limit nparams a := by
  unfold pkDecodeBindCallback
  split_ifs with h1 h2 <;> simp_all

/-- The same call for a buffer that starts `off` bytes earlier. -/
def CbArgs.shift (off : ℕ) (a : CbArgs) : CbArgs := { a with pval := a.pval.map (off + ·) }

/-- The value a parameter holds when the statement runs: an unbound one is NULL,
and so is a NaN. `none` is a slice that does not lie in the buffer. -/
def boundValue (buffer : List UInt8) : Option CbArgs → Option Value
  | none => some .null
  | some a =>
    if a.type = 2 ∧ 0x7FF0000000000000 < a.dval.toNat % 2 ^ 63 then some .null else a.value buffer

end SqliteSync.Codec
