import BenchHistory.Json.Decode
import BenchHistory.Series.Basic

/-!
# Series as JSON

Keys and observations are objects; their fields may also be read from an array in
the order of the fields. Members without a field are passed over. A direction is
written as its name.
-/

namespace BenchHistory

open Decode

namespace SeriesKey

def toJson (k : SeriesKey) : Json :=
  .object ([("tool", .string k.tool), ("name", .string k.name)] ++
    Json.field? "extra" (k.extra.map .string))

def text (k : SeriesKey) : String :=
  k.toJson.compact

/-- What was read of a key so far. -/
structure Slots where
  tool : Option String
  name : Option String
  extra : Option (Option String)

def Slots.take (s : Slots) : String × Draft → Except ReadError Slots
  | ("tool", d) => do return { s with tool := ← fill "tool" s.tool string d }
  | ("name", d) => do return { s with name := ← fill "name" s.name string d }
  | ("extra", d) => do return { s with extra := ← fill "extra" s.extra (optional string) d }
  | (_, d) => do pass d; return s

def Slots.finish (s : Slots) : Except ReadError SeriesKey := do
  let tool ← required "tool" s.tool
  let name ← required "name" s.name
  return ⟨tool, name, s.extra.join⟩

/-- The key whose fields are the items of a list. -/
def ofItems (items : List Draft) : Except ReadError SeriesKey := do
  let expected := "struct SeriesKey with 3 elements"
  let tool ← item expected string items 0
  let name ← item expected string items 1
  let extra ← itemOr none (optional string) items 2
  noMore items 3
  return ⟨tool, name, extra⟩

def decode : Decoder SeriesKey
  | .object ms => do (← ms.foldlM Slots.take ⟨none, none, none⟩).finish
  | .array items => ofItems items
  | d => .error (mismatch "struct SeriesKey" d)

end SeriesKey

namespace Observation

def toJson (o : Observation) : Json :=
  .object [("date", .int o.date), ("commit_id", .string o.commitId), ("value", .real o.value),
    ("unit", .string o.unit), ("run_index", .int o.runIndex)]

def text (o : Observation) : String :=
  o.toJson.compact

/-- What was read of an observation so far. -/
structure Slots where
  date : Option Int
  commitId : Option String
  value : Option Float
  unit : Option String
  runIndex : Option Nat

/-- Reads one more member. -/
def Slots.take (s : Slots) : String × Draft → Except ReadError Slots
  | ("date", d) => do return { s with date := ← fill "date" s.date int64 d }
  | ("commit_id", d) => do return { s with commitId := ← fill "commit_id" s.commitId string d }
  | ("value", d) => do return { s with value := ← fill "value" s.value float d }
  | ("unit", d) => do return { s with unit := ← fill "unit" s.unit string d }
  | ("run_index", d) => do return { s with runIndex := ← fill "run_index" s.runIndex count d }
  | (_, d) => do pass d; return s

/-- The observation, all of whose fields must be there. -/
def Slots.finish (s : Slots) : Except ReadError Observation := do
  let date ← required "date" s.date
  let commitId ← required "commit_id" s.commitId
  let value ← required "value" s.value
  let unit ← required "unit" s.unit
  let runIndex ← required "run_index" s.runIndex
  return ⟨date, commitId, value, unit, runIndex⟩

/-- The observation whose fields are the items of a list. -/
def ofItems (items : List Draft) : Except ReadError Observation := do
  let expected := "struct Observation with 5 elements"
  let date ← item expected int64 items 0
  let commitId ← item expected string items 1
  let value ← item expected float items 2
  let unit ← item expected string items 3
  let runIndex ← item expected count items 4
  noMore items 5
  return ⟨date, commitId, value, unit, runIndex⟩

def decode : Decoder Observation
  | .object ms => do (← ms.foldlM Slots.take ⟨none, none, none, none, none⟩).finish
  | .array items => ofItems items
  | d => .error (mismatch "struct Observation" d)

end Observation

namespace Direction

def name : Direction → String
  | .smallerIsBetter => "smaller_is_better"
  | .biggerIsBetter => "bigger_is_better"

def names : List String :=
  ["smaller_is_better", "bigger_is_better"]

def ofName (s : String) : Except ReadError Direction :=
  if s = "smaller_is_better" then .ok .smallerIsBetter
  else if s = "bigger_is_better" then .ok .biggerIsBetter
  else .error (.unknownVariant s names)

def toJson (d : Direction) : Json :=
  .string d.name

/--
Reads a direction: its name, or an object with the name over `null` as its one member.
The name is looked at before what follows it.
-/
def decode : Decoder Direction
  | .string s => ofName s
  | .object [] => .error (.fault .malformed)
  | .object ((_, .gap (.name _ _ (.ok found))) :: _) =>
    .error (.invalidType found "variant identifier")
  | .object ((_, .gap (.name _ _ (.error f))) :: _) => .error (.fault f)
  | .object ((k, d) :: rest) => do
    let direction ← ofName k
    match d with
    | .null => pure ()
    | d => throw (mismatch "unit" d)
    match rest with
    | [] => return direction
    | (_, d) :: _ => throw (.fault d.close)
  | .gap g => .error (.fault g.peek)
  | _ => .error (.fault .malformed)

end Direction

end BenchHistory
