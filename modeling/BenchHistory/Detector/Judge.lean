import BenchHistory.Detector.Config
import BenchHistory.Detector.Window

/-!
# Judging observations

An observation is compared with the mean of the window before it. What cannot be
compared is sorted out first: values that are negative or not finite, a series
that was missing for too long, another unit, a collapse to zero.
-/

namespace BenchHistory.Detector

/-- The value that stands for a ratio to a mean of zero. -/
def infinity : Float :=
  Float.ofBits 0x7FF0000000000000

/-- The runs between two positions. -/
def missingRuns (previous current : Nat) : Nat :=
  current - previous - 1

/-- The gap before an observation, if it is longer than allowed. -/
def gap? (c : Config) (previous o : Observation) : Option Nat :=
  let missing := missingRuns previous.runIndex o.runIndex
  match c.maxGapRuns with
  | some most => if most < missing then some missing else none
  | none => none

/-- Whether a ratio is beyond the threshold, on the bad side. -/
def beyond (direction : Direction) (threshold ratio : Float) : Bool :=
  match direction with
  | .smallerIsBetter => 1 + threshold < ratio
  | .biggerIsBetter => ratio < 1 - threshold

/-- The verdict on a usable value in the unit of the window, given the mean. -/
def compare (direction : Direction) (threshold value mean : Float) : Verdict :=
  if mean == 0 then
    if value == 0 then .nominal 1 mean
    else match direction with
      | .smallerIsBetter => .regression infinity mean
      | .biggerIsBetter => .nominal infinity mean
  else if value == 0 && direction = .smallerIsBetter then .discontinuity .collapseToZero
  else
    let ratio := value / mean
    if beyond direction threshold ratio then .regression ratio mean else .nominal ratio mean

/-- The verdict on an observation of a tool's series after the given window. -/
def judge (c : Config) (tool : String) (o : Observation) (w : List Observation) : Verdict :=
  if o.value.isFinite = false then .discontinuity .nonFinite
  else if o.value < 0 then .discontinuity .negativeValue
  else
    match w.getLast? with
    | none => .baseline
    | some previous =>
      match gap? c previous o with
      | some missing => .discontinuity (.gap missing)
      | none =>
        match (predominantUnit? w).filter (· ≠ o.unit) with
        | some expected => .unitDrift expected o.unit
        | none =>
          match mean? w with
          | none => .baseline
          | some mean => compare (c.direction tool) c.threshold o.value mean

/-- The verdicts on a history that starts with the given window, and the window after it. -/
def replayFrom (c : Config) (tool : String) (w : Window) :
    List Observation → List Verdict × Window
  | [] => ([], w)
  | o :: os =>
    let v := judge c tool o w.observations
    let (vs, last) := replayFrom c tool (w.apply o v) os
    (v :: vs, last)

/-- The verdicts on a history, and the window after it. -/
def replay (c : Config) (tool : String) (history : List Observation) : List Verdict × Window :=
  replayFrom c tool (.empty c.windowSize) history

end BenchHistory.Detector
