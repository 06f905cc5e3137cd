import BenchHistory.Decimal.Text
import BenchHistory.Json.Decode
import BenchHistory.Series.Json

/-!
# What the detector is set to

How many observations make a baseline, which relative change counts, how many runs
a series may be missing from, and which way the metrics of each tool improve.
-/

namespace BenchHistory.Detector

/-- The settings of the detector. -/
structure Config where
  windowSize : Nat
  threshold : Float
  maxGapRuns : Option Nat
  directions : Keyed Direction
deriving Repr

/-- Why settings are of no use. -/
inductive ConfigError where
  | emptyWindow
  | badThreshold (threshold : Float)
  | neverFlags (threshold : Float)
deriving DecidableEq, Repr

/-- The words for useless settings. -/
def ConfigError.message (e : ConfigError) : String :=
  "Invalid detector configuration: " ++
    match e with
    | .emptyWindow => "window_size must be at least 1"
    | .badThreshold t => "threshold must be a positive number, got " ++ Decimal.plainText t
    | .neverFlags t =>
      "threshold " ++ Decimal.plainText t ++ " can never flag a bigger-is-better regression"

namespace Config

/--
Five observations, a change by half, any gap, and no directions but those that names
promise.
-/
def default : Config :=
  ⟨5, 0.5, none, []⟩

/-- The direction under a name, capitals or not; a name spelled the same comes first. -/
def override? (c : Config) (tool : String) : Option Direction :=
  match Keyed.get? tool c.directions with
  | some d => some d
  | none => (c.directions.find? fun e => Text.fold e.1 = Text.fold tool).map (·.2)

/-- The direction of a tool: the one that is set, else the one that its name promises. -/
def direction (c : Config) (tool : String) : Direction :=
  (c.override? tool).getD (.ofTool tool)

/-- What makes the settings useless, if anything does. -/
def problem? (c : Config) : Option ConfigError :=
  if c.windowSize = 0 then some .emptyWindow
  else if c.threshold.isFinite = false ∨ c.threshold ≤ 0 then some (.badThreshold c.threshold)
  else if 1 ≤ c.threshold ∧ c.directions.any (fun e => e.2 = .biggerIsBetter) then
    some (.neverFlags c.threshold)
  else none

open Decode

/-- What was read of settings so far. -/
structure Slots where
  windowSize : Option Nat
  threshold : Option Float
  maxGapRuns : Option (Option Nat)
  directions : Option (Keyed Direction)

/-- Reads one more member. -/
def Slots.take (s : Slots) : String × Draft → Except ReadError Slots
  | ("window_size", d) => do
    return { s with windowSize := ← fill "window_size" s.windowSize count d }
  | ("threshold", d) => do return { s with threshold := ← fill "threshold" s.threshold float d }
  | ("max_gap_runs", d) => do
    return { s with maxGapRuns := ← fill "max_gap_runs" s.maxGapRuns (optional count) d }
  | ("directions", d) => do
    return { s with directions := ← fill "directions" s.directions (keyed Direction.decode) d }
  | (_, d) => do pass d; return s

/-- The settings, with defaults in place of what is missing. -/
def Slots.finish (s : Slots) : Config :=
  ⟨s.windowSize.getD default.windowSize, s.threshold.getD default.threshold,
    s.maxGapRuns.getD default.maxGapRuns, s.directions.getD default.directions⟩

/-- The settings whose fields are the items of a list. -/
def ofItems (items : List Draft) : Except ReadError Config := do
  let windowSize ← itemOr default.windowSize count items 0
  let threshold ← itemOr default.threshold float items 1
  let maxGapRuns ← itemOr default.maxGapRuns (optional count) items 2
  let directions ← itemOr default.directions (keyed Direction.decode) items 3
  noMore items 4
  return ⟨windowSize, threshold, maxGapRuns, directions⟩

def decode : Decoder Config
  | .object ms => do return (← ms.foldlM Slots.take ⟨none, none, none, none⟩).finish
  | .array items => ofItems items
  | d => .error (mismatch "struct DetectorConfig" d)

end Config

end BenchHistory.Detector
