import BenchHistory.Json.Tagged
import BenchHistory.Verdict.Basic

/-!
# Verdicts as JSON

A verdict is tagged by `verdict`; a broken history adds the tag `cause` beside it.
-/

namespace BenchHistory

open Decode

namespace Discontinuity

/-- The cases, as written in documents. -/
inductive Case where
  | negativeValue
  | nonFinite
  | collapseToZero
  | gap

def cases : Cases Case :=
  [("negative_value", .negativeValue), ("non_finite", .nonFinite),
    ("collapse_to_zero", .collapseToZero), ("gap", .gap)]

def members : Discontinuity → List (String × Json)
  | .negativeValue => [("cause", .string "negative_value")]
  | .nonFinite => [("cause", .string "non_finite")]
  | .collapseToZero => [("cause", .string "collapse_to_zero")]
  | .gap n => [("cause", .string "gap"), ("missing_runs", .int n)]

def toJson (d : Discontinuity) : Json :=
  .object d.members

/-- One more member of a gap. -/
def takeGap (missingRuns : Option Nat) : String × Draft → Except ReadError (Option Nat)
  | ("missing_runs", d) => fill "missing_runs" missingRuns count d
  | (_, d) => do pass d; return missingRuns

/-- The fields of a gap. -/
def decodeGap : Decoder Discontinuity
  | .object ms => do
    return .gap (← required "missing_runs" (← ms.foldlM takeGap none))
  | .array items => do
    let n ← item "struct variant Discontinuity::Gap with 1 element" count items 0
    noMoreThan items 1
    return .gap n
  | d => .error (mismatch "struct variant Discontinuity::Gap" d)

/-- The fields of a case. -/
def ofCase : Case → Decoder Discontinuity
  | .negativeValue, d => do nothing d; return .negativeValue
  | .nonFinite, d => do nothing d; return .nonFinite
  | .collapseToZero, d => do nothing d; return .collapseToZero
  | .gap, d => decodeGap d

/-- Reads a broken history whose tag is read in the given way. -/
def decodeWith (tag : Decoder Case) : Decoder Discontinuity :=
  fun d => do
    let (case, rest) ← tagged "Discontinuity" "cause" tag d
    ofCase case rest

def decode : Decoder Discontinuity :=
  decodeWith (tag cases)

end Discontinuity

namespace Verdict

/-- The cases, as written in documents. -/
inductive Case where
  | baseline
  | unitDrift
  | discontinuity
  | regression
  | nominal

def cases : Cases Case :=
  [("baseline", .baseline), ("unit_drift", .unitDrift), ("discontinuity", .discontinuity),
    ("regression", .regression), ("nominal", .nominal)]

/-- The object of a verdict. -/
def toJson (v : Verdict) : Json :=
  .object (("verdict", .string v.kind) ::
    match v with
    | .baseline => []
    | .unitDrift expected found => [("expected", .string expected), ("found", .string found)]
    | .discontinuity cause => cause.members
    | .regression ratio mean => [("ratio", .real ratio), ("baseline", .real mean)]
    | .nominal ratio mean => [("ratio", .real ratio), ("baseline", .real mean)])

def text (v : Verdict) : String :=
  v.toJson.compact

/-- One more member of a case with two fields of one type. -/
def takePair {α : Type} (first second : String) (decode : Decoder α)
    (s : Option α × Option α) (e : String × Draft) : Except ReadError (Option α × Option α) :=
  if e.1 = first then do return (← fill first s.1 decode e.2, s.2)
  else if e.1 = second then do return (s.1, ← fill second s.2 decode e.2)
  else do pass e.2; return s

/-- The fields of a case with two fields of one type. -/
def decodePair {α : Type} (type first second : String) (decode : Decoder α) : Decoder (α × α)
  | .object ms => do
    let (a, b) ← ms.foldlM (takePair first second decode) (none, none)
    return (← required first a, ← required second b)
  | .array items => do
    let expected := "struct variant Verdict::" ++ type ++ " with 2 elements"
    let a ← item expected decode items 0
    let b ← item expected decode items 1
    noMoreThan items 2
    return (a, b)
  | d => .error (mismatch ("struct variant Verdict::" ++ type) d)

/-- The fields of a case. -/
def ofCase : Case → Decoder Verdict
  | .baseline, d => do nothing d; return .baseline
  | .unitDrift, d => do
    let (expected, found) ← decodePair "UnitDrift" "expected" "found" string d
    return .unitDrift expected found
  | .discontinuity, d => do
    return .discontinuity (← Discontinuity.decodeWith (innerTag Discontinuity.cases) d)
  | .regression, d => do
    let (ratio, mean) ← decodePair "Regression" "ratio" "baseline" float d
    return .regression ratio mean
  | .nominal, d => do
    let (ratio, mean) ← decodePair "Nominal" "ratio" "baseline" float d
    return .nominal ratio mean

def decode : Decoder Verdict :=
  fun d => do
    let (case, rest) ← tagged "Verdict" "verdict" (tag cases) d
    ofCase case rest

end Verdict

end BenchHistory
