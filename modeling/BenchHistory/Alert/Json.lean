import BenchHistory.Alert.Basic

/-!
# Alerts as JSON

JSON has no infinity: the ratio to a mean of zero is written as a string.
-/

namespace BenchHistory.Alert

open Decode

def infinityName : String :=
  "Infinity"

def ratioJson (x : Float) : Json :=
  if x.isInf && 0 < x then .string infinityName else .real x

/-- Reads a ratio: a number, or the string for an infinite one. -/
def decodeRatio : Decoder Float
  | .number n => .ok n.toFloat
  | .string s => if s = infinityName then .ok Detector.infinity else .error (.invalidRatio s)
  | d => do
    let _ ← json d
    throw .notARatio

def toJson (a : Alert) : Json :=
  .object ([("idempotency_key", .string a.key), ("series", a.series.toJson),
    ("commit_id", .string a.commitId)] ++ Json.field? "commit_url" (a.commitUrl.map .string) ++
    [("date", .int a.date), ("value", .real a.value), ("unit", .string a.unit),
      ("baseline", .real a.baseline), ("ratio", ratioJson a.ratio),
      ("threshold", .real a.threshold), ("direction", a.direction.toJson)])

def text (a : Alert) : String :=
  a.toJson.compact

/-- What was read of an alert so far. -/
structure Slots where
  key : Option String
  series : Option SeriesKey
  commitId : Option String
  commitUrl : Option (Option String)
  date : Option Int
  value : Option Float
  unit : Option String
  baseline : Option Float
  ratio : Option Float
  threshold : Option Float
  direction : Option Direction

/-- Reads one more member. -/
def Slots.take (s : Slots) : String × Draft → Except ReadError Slots
  | ("idempotency_key", d) => do
    return { s with key := ← fill "idempotency_key" s.key string d }
  | ("series", d) => do return { s with series := ← fill "series" s.series SeriesKey.decode d }
  | ("commit_id", d) => do return { s with commitId := ← fill "commit_id" s.commitId string d }
  | ("commit_url", d) => do
    return { s with commitUrl := ← fill "commit_url" s.commitUrl (optional string) d }
  | ("date", d) => do return { s with date := ← fill "date" s.date int64 d }
  | ("value", d) => do return { s with value := ← fill "value" s.value float d }
  | ("unit", d) => do return { s with unit := ← fill "unit" s.unit string d }
  | ("baseline", d) => do return { s with baseline := ← fill "baseline" s.baseline float d }
  | ("ratio", d) => do return { s with ratio := ← fill "ratio" s.ratio decodeRatio d }
  | ("threshold", d) => do return { s with threshold := ← fill "threshold" s.threshold float d }
  | ("direction", d) => do
    return { s with direction := ← fill "direction" s.direction Direction.decode d }
  | (_, d) => do pass d; return s

def Slots.empty : Slots :=
  ⟨none, none, none, none, none, none, none, none, none, none, none⟩

/-- The alert; all but the address must be there. -/
def Slots.finish (s : Slots) : Except ReadError Alert := do
  let key ← required "idempotency_key" s.key
  let series ← required "series" s.series
  let commitId ← required "commit_id" s.commitId
  let date ← required "date" s.date
  let value ← required "value" s.value
  let unit ← required "unit" s.unit
  let baseline ← required "baseline" s.baseline
  let ratio ← required "ratio" s.ratio
  let threshold ← required "threshold" s.threshold
  let direction ← required "direction" s.direction
  return ⟨key, series, commitId, s.commitUrl.join, date, value, unit, baseline, ratio, threshold,
    direction⟩

/-- The alert whose fields are the items of a list. -/
def ofItems (items : List Draft) : Except ReadError Alert := do
  let expected := "struct Alert with 11 elements"
  let key ← item expected string items 0
  let series ← item expected SeriesKey.decode items 1
  let commitId ← item expected string items 2
  let commitUrl ← itemOr none (optional string) items 3
  let date ← item expected int64 items 4
  let value ← item expected float items 5
  let unit ← item expected string items 6
  let baseline ← item expected float items 7
  let ratio ← item expected decodeRatio items 8
  let threshold ← item expected float items 9
  let direction ← item expected Direction.decode items 10
  noMore items 11
  return ⟨key, series, commitId, commitUrl, date, value, unit, baseline, ratio, threshold,
    direction⟩

def decode : Decoder Alert
  | .object ms => do (← ms.foldlM Slots.take Slots.empty).finish
  | .array items => ofItems items
  | d => .error (mismatch "struct Alert" d)

end BenchHistory.Alert
