import BenchHistory.Series.Basic
import BenchHistory.Verdict.Basic

/-!
# The window of comparable observations

The window holds the latest observations that may be compared with the next one,
the oldest first. A broken history empties it; an observation in another unit
empties it and starts anew; any other is added, and the oldest give way.
-/

namespace BenchHistory.Detector

/-- At most `capacity` observations. -/
structure Window where
  capacity : Nat
  observations : List Observation
deriving DecidableEq, Repr

namespace Window

/-- An empty window, which has room for at least one observation. -/
def empty (capacity : Nat) : Window :=
  ⟨max capacity 1, []⟩

/-- Adds an observation; the oldest ones give way. -/
def push (w : Window) (o : Observation) : Window :=
  let all := w.observations ++ [o]
  { w with observations := all.drop (all.length - w.capacity) }

/-- What is left of the window after a verdict on an observation. -/
def apply (w : Window) (o : Observation) : Verdict → Window
  | .discontinuity _ => { w with observations := [] }
  | .unitDrift _ _ => { w with observations := [] }.push o
  | .baseline => w.push o
  | .regression _ _ => w.push o
  | .nominal _ _ => w.push o

end Window

/-- How many observations have a unit. -/
def unitCount (w : List Observation) (unit : String) : Nat :=
  w.countP fun o => o.unit = unit

/-- The commonest unit; of equally common ones the one seen last. -/
def predominantUnit? (w : List Observation) : Option String :=
  w.foldl (fun best o =>
    match best with
    | none => some o.unit
    | some u => if unitCount w u ≤ unitCount w o.unit then some o.unit else some u) none

/-- Whether a value can be part of a mean. -/
def usable (x : Float) : Bool :=
  x.isFinite && 0 ≤ x

/-- The mean of the usable values, added up from the oldest on. -/
def mean? (w : List Observation) : Option Float :=
  match (w.map (·.value)).filter usable with
  | [] => none
  | xs => some (xs.foldl (· + ·) 0 / Float.ofNat xs.length)

end BenchHistory.Detector
