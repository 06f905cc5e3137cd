import BenchHistory.Decimal.Text

/-!
# Verdicts

What the detector says of one observation: it starts a baseline, it cannot be
compared with what came before, or it was compared and is or is not a regression.
-/

namespace BenchHistory

/-- Why the history of a series is broken. -/
inductive Discontinuity where
  | negativeValue
  | nonFinite
  | collapseToZero
  | gap (missingRuns : Nat)
deriving DecidableEq, Repr

/-- What is said of one observation. The ratio is the value over the mean of the window. -/
inductive Verdict where
  | baseline
  | unitDrift (expected found : String)
  | discontinuity (cause : Discontinuity)
  | regression (ratio baseline : Float)
  | nominal (ratio baseline : Float)
deriving DecidableEq, Repr

/-- The words for a broken history. -/
def Discontinuity.display : Discontinuity → String
  | .negativeValue => "negative value"
  | .nonFinite => "non-finite value"
  | .collapseToZero => "collapse to zero"
  | .gap n => "missing from " ++ toString n ++ " runs"

/-- A ratio in reports; one that is not finite is shown as infinite. -/
def ratioText (ratio : Float) : String :=
  if ratio.isFinite then Decimal.twoPlaces ratio ++ "x" else "∞"

namespace Verdict

/-- Whether users have to be told. -/
def isRegression : Verdict → Bool
  | .regression _ _ => true
  | _ => false

/-- The name in reports and documents. -/
def kind : Verdict → String
  | .baseline => "baseline"
  | .unitDrift _ _ => "unit_drift"
  | .discontinuity _ => "discontinuity"
  | .regression _ _ => "regression"
  | .nominal _ _ => "nominal"

/-- The ratio, if the observation was compared. -/
def ratio? : Verdict → Option Float
  | .regression r _ => some r
  | .nominal r _ => some r
  | _ => none

/-- The mean it was compared with, if any. -/
def baseline? : Verdict → Option Float
  | .regression _ mean => some mean
  | .nominal _ mean => some mean
  | _ => none

def display : Verdict → String
  | .baseline => "baseline"
  | .unitDrift expected found => "unit drift (" ++ expected ++ " → " ++ found ++ ")"
  | .discontinuity cause => "discontinuity (" ++ cause.display ++ ")"
  | .regression ratio _ => "regression (" ++ ratioText ratio ++ ")"
  | .nominal ratio _ => "nominal (" ++ ratioText ratio ++ ")"

end Verdict

end BenchHistory
