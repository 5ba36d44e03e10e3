import SqliteSync.Library.CString
import SqliteSync.Library.Delimited

/-!
# Parameters of a connection string

`network_extract_query_param` finds the value of a key in the query of a
connection string. Its scan looks for the next `=` wherever that is, so a segment
without one is taken for the start of a longer key.
-/
namespace SqliteSync.Network
open Library

def EQUALS : UInt8 := 61
def AMPERSAND : UInt8 := 38
def QUESTION_MARK : UInt8 := 63

/-- The text up to the next `&`. -/
def upToAmpersand (valueStart : CString) : CString :=
  valueStart.take ((valueStart.idxOf? AMPERSAND).getD valueStart.length)

/-- One round of the scan: `none` when no `=` is left, else the value if the key matches. -/
def paramAt (key keyStart : CString) : Option (Option CString) :=
  (keyStart.idxOf? EQUALS).map fun currentKeyLen =>
    if currentKeyLen == key.length && keyStart.take key.length == key then
      some (upToAmpersand (keyStart.drop (currentKeyLen + 1)))
    else none

/-- The scan, from one `&` to the next. -/
def findParam (key p : CString) : Option CString :=
  match paramAt key p with
  | none => none
  | some (some value) => some value
  | some none =>
    match p with
    | [] => none
    | c :: rest =>
      match (c :: rest).idxOf? AMPERSAND with
      | none => none
      | some amp => findParam key ((c :: rest).drop (amp + 1))
termination_by p.length
decreasing_by
  simp only [List.length_drop, List.length_cons]
  omega

/-- Where the scan starts; the WebAssembly build skips a leading `?`. -/
def queryStart (wasm : Bool) (query : CString) : CString :=
  if wasm && query.head? == some QUESTION_MARK then query.tail else query

/-- `network_extract_query_param`: what it returns, and the output buffer after it. -/
def networkExtractQueryParam (wasm : Bool) (query key output : Option CString) (outputSize : ℕ) :
    ℤ × Option CString :=
  match query, key, output with
  | some query, some key, some output =>
    if outputSize = 0 then (-1, some output)
    else
      match findParam key (queryStart wasm query) with
      | none => (-3, some output)
      | some value =>
        if value.length ≥ outputSize then (-2, some output)
        else (0, some (value ++ 0 :: output.drop (value.length + 1)))
  | _, _, output => (-1, output)

theorem upToAmpersand_of_not_mem {value : CString} (h : AMPERSAND ∉ value) :
    upToAmpersand value = value := by
  rw [upToAmpersand, idxOf?_not_mem h, Option.getD_none, List.take_length]

theorem upToAmpersand_cut {value : CString} (h : AMPERSAND ∉ value) (rest : CString) :
    upToAmpersand (value ++ AMPERSAND :: rest) = value := by
  rw [upToAmpersand, idxOf?_cut h, Option.getD_some, List.take_left]

theorem paramAt_of_not_mem {p : CString} (h : EQUALS ∉ p) (key : CString) :
    paramAt key p = none := by
  rw [paramAt, idxOf?_not_mem h, Option.map_none]

theorem paramAt_cut {name : CString} (h : EQUALS ∉ name) (key text : CString) :
    paramAt key (name ++ EQUALS :: text) =
      some (if name == key then some (upToAmpersand text) else none) := by
  have hkey : (name.length == key.length && (name ++ EQUALS :: text).take key.length == key) =
      (name == key) := by
    by_cases hlength : name.length = key.length
    · rw [← hlength, List.take_left, beq_self_eq_true, Bool.true_and]
    · have hne : name ≠ key := fun heq => hlength (congrArg List.length heq)
      rw [beq_false_of_ne hlength, beq_false_of_ne hne, Bool.false_and]
  rw [paramAt, idxOf?_cut h, Option.map_some, hkey, drop_cut]

theorem findParam_of_none {key p : CString} (h : paramAt key p = none) : findParam key p = none := by
  rw [findParam.eq_def, h]

theorem findParam_of_match {key p value : CString} (h : paramAt key p = some (some value)) :
    findParam key p = some value := by
  rw [findParam.eq_def, h]

theorem findParam_last {key segment : CString} (h : paramAt key segment = some none)
    (hsegment : AMPERSAND ∉ segment) : findParam key segment = none := by
  rw [findParam.eq_def, h]
  cases segment with
  | nil => rfl
  | cons c rest => simp only [idxOf?_not_mem hsegment]

theorem findParam_next {key segment rest : CString}
    (h : paramAt key (segment ++ AMPERSAND :: rest) = some none) (hsegment : AMPERSAND ∉ segment) :
    findParam key (segment ++ AMPERSAND :: rest) = findParam key rest := by
  rw [findParam.eq_def, h]
  have hindex := idxOf?_cut hsegment rest
  have hdrop := drop_cut segment AMPERSAND rest
  cases hp : segment ++ AMPERSAND :: rest with
  | nil => simp at hp
  | cons c p =>
    rw [hp] at hindex hdrop
    simp only [hindex, hdrop]

theorem findParam_eq {key : CString} (hkey : AMPERSAND ∉ key) (query : CString) :
    findParam key query = lookupField AMPERSAND EQUALS key query := by
  induction query using segments_induction AMPERSAND with
  | last segment hsegment =>
    rw [lookupField_of_not_mem hsegment]
    by_cases hequals : EQUALS ∈ segment
    · rcases List.eq_append_cons_of_mem hequals with ⟨name, value, rfl, hname⟩
      have hvalue : AMPERSAND ∉ value := fun h => hsegment (by simp [h])
      have hat := paramAt_cut hname key value
      rw [upToAmpersand_of_not_mem hvalue] at hat
      rw [fieldValue_cut hname]
      split_ifs at hat ⊢
      · exact findParam_of_match hat
      · exact findParam_last hat hsegment
    · rw [fieldValue_of_not_mem hequals, findParam_of_none (paramAt_of_not_mem hequals key)]
  | step segment rest hsegment ih =>
    rw [lookupField_cut hsegment]
    by_cases hequals : EQUALS ∈ segment
    · rcases List.eq_append_cons_of_mem hequals with ⟨name, value, rfl, hname⟩
      have hvalue : AMPERSAND ∉ value := fun h => hsegment (by simp [h])
      have hat := paramAt_cut hname key (value ++ AMPERSAND :: rest)
      rw [upToAmpersand_cut hvalue, ← List.cons_append, ← List.append_assoc] at hat
      rw [fieldValue_cut hname]
      split_ifs at hat ⊢
      · rw [findParam_of_match hat, Option.some_or]
      · rw [findParam_next hat hsegment, ih, Option.none_or]
    · rw [fieldValue_of_not_mem hequals, Option.none_or, ← ih]
      by_cases hrest : EQUALS ∈ rest
      · -- the name found reaches over the `&`, which the key does not have
        rcases List.eq_append_cons_of_mem hrest with ⟨name, value, rfl, hname⟩
        have hspill : EQUALS ∉ segment ++ AMPERSAND :: name := by
          rw [List.mem_append, List.mem_cons, not_or, not_or]
          exact ⟨hequals, by decide, hname⟩
        have hne : segment ++ AMPERSAND :: name ≠ key := fun heq => hkey (by simp [← heq])
        have hat := paramAt_cut hspill key value
        rw [if_neg (by simpa using hne), List.append_assoc, List.cons_append] at hat
        exact findParam_next hat hsegment
      · have hnone : EQUALS ∉ segment ++ AMPERSAND :: rest := by
          rw [List.mem_append, List.mem_cons, not_or, not_or]
          exact ⟨hequals, by decide, hrest⟩
        rw [findParam_of_none (paramAt_of_not_mem hnone key),
          findParam_of_none (paramAt_of_not_mem hrest key)]

/-- What a lookup of a key in a query amounts to: its value in the output with a
NUL behind it, or the reason why not. -/
def ExtractsField (query key output : CString) (outputSize : ℕ) (result : ℤ × Option CString) :
    Prop :=
  (∀ value, lookupField AMPERSAND EQUALS key query = some value → value.length < outputSize →
      result = (0, some (value ++ 0 :: output.drop (value.length + 1)))) ∧
    (∀ value, lookupField AMPERSAND EQUALS key query = some value → outputSize ≤ value.length →
      result = (-2, some output)) ∧
    (lookupField AMPERSAND EQUALS key query = none → result = (-3, some output))

/-- For every query and every key without `&`, an output of at least one byte is filled
with the first field of that name, and an output of no size is refused. -/
theorem networkExtractQueryParam_spec (wasm : Bool) (query key output : CString) (outputSize : ℕ)
    (hkey : AMPERSAND ∉ key) :
    if outputSize = 0 then
      networkExtractQueryParam wasm (some query) (some key) (some output) outputSize =
        (-1, some output)
    else
      ExtractsField (queryStart wasm query) key output outputSize
        (networkExtractQueryParam wasm (some query) (some key) (some output) outputSize) := by
  rw [networkExtractQueryParam, findParam_eq hkey]
  split_ifs with hsize
  · rfl
  · refine ⟨?_, ?_, ?_⟩
    · intro value hvalue hfits
      rw [hvalue]
      exact if_neg (not_le.mpr hfits)
    · intro value hvalue hlong
      rw [hvalue]
      exact if_pos hlong
    · intro hnone
      rw [hnone]

/-- `b&ab=2&a=1&a=3`, asked for `a`, in an output of two bytes. -/
theorem networkExtractQueryParam_third :
    ExtractsField [98, 38, 97, 98, 61, 50, 38, 97, 61, 49, 38, 97, 61, 51] [97] [7, 7] 2
      (networkExtractQueryParam false
        (some [98, 38, 97, 98, 61, 50, 38, 97, 61, 49, 38, 97, 61, 51]) (some [97]) (some [7, 7]) 2) :=
  networkExtractQueryParam_spec false _ [97] [7, 7] 2 (by decide)

/-- `a=1` with an output of no size, and `?a=1` in the WebAssembly build. -/
theorem networkExtractQueryParam_refused :
    ¬ ExtractsField [97, 61, 49] [97] [] 0
        (networkExtractQueryParam false (some [97, 61, 49]) (some [97]) (some []) 0) ∧
      ¬ ExtractsField [63, 97, 61, 49] [97] [7, 7] 2
        (networkExtractQueryParam true (some [63, 97, 61, 49]) (some [97]) (some [7, 7]) 2) := by
  constructor
  · intro h
    have hlong := h.2.1 [49] (by decide) (Nat.zero_le _)
    exact absurd hlong (by decide)
  · intro h
    have hmissing := h.2.2 (by decide)
    rw [networkExtractQueryParam, findParam_eq (by decide)] at hmissing
    exact absurd hmissing (by decide)

end SqliteSync.Network
