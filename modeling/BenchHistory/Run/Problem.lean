import BenchHistory.Decimal.Text
import BenchHistory.Json.ReadError
import BenchHistory.Run.Basic
import BenchHistory.Text.Blank

/-!
# What is wrong with a run

A run that comes in is looked at as a whole, and every problem with it is told at
once. `Run.problems` lists those of a run whose parts have been read.
-/

namespace BenchHistory

/-- Something that keeps a run from being stored. -/
inductive Problem where
  /-- The tool has no name. -/
  | toolEmpty
  /-- The run names another tool than the one it is stored under. -/
  | toolMismatch (found target : String)
  /-- The commit has no id. -/
  | commitIdEmpty
  /-- There is no sample. -/
  | benchesEmpty
  /-- A sample has no name. -/
  | nameEmpty (path : String) (index : Nat)
  /-- A value is not finite. -/
  | nonFiniteValue (index : Nat) (name : String) (value : Float)
  /-- An earlier sample has the same name and label. -/
  | duplicateMetric (index : Nat) (name : String) (extra : Option String)
  /-- The run is no object. -/
  | notAnObject
  /-- The run has no commit. -/
  | commitMissing
  /-- The commit cannot be read. -/
  | commitInvalid (e : ReadError)
  /-- The date is not a positive integer. -/
  | dateInvalid (found : String)
  /-- The tool is no string. -/
  | toolInvalid (found : String)
  /-- The run has no samples. -/
  | benchesMissing
  /-- The samples are no array. -/
  | samplesInvalid (path : String)
  /-- A sample is no object. -/
  | sampleInvalid (path : String) (index : Nat)
  /-- A sample's name is missing or no string. -/
  | nameMissing (path : String) (index : Nat)
  /-- A sample has no number for a value. -/
  | valueMissing (path : String) (index : Nat) (name : String)
  /-- An optional text of a sample is something else. -/
  | textInvalid (path : String) (index : Nat) (field : String) (found : String)
deriving DecidableEq, Repr

namespace Problem

def place (path : String) (index : Nat) : String :=
  path ++ "[" ++ toString index ++ "]"

/-- The words for a problem. -/
def message : Problem → String
  | .toolEmpty => "tool is empty"
  | .toolMismatch found target =>
    "run.tool " ++ Text.named found ++ " does not match target tool " ++ Text.named target
  | .commitIdEmpty => "commit.id is empty"
  | .benchesEmpty => "benches is empty"
  | .nameEmpty path i => place path i ++ ".name is empty"
  | .nonFiniteValue i name value =>
    place "benches" i ++ " " ++ Text.named name ++ " has non-finite value " ++
      Decimal.plainText value
  | .duplicateMetric i name extra =>
    place "benches" i ++ " duplicates metric " ++ Text.named name ++ " with extra " ++
      Text.quotedOption extra
  | .notAnObject => "run must be a JSON object"
  | .commitMissing => "commit is missing"
  | .commitInvalid e => "commit is invalid: " ++ e.message
  | .dateInvalid found => "date must be positive epoch milliseconds, got " ++ found
  | .toolInvalid found => "tool must be a string, got " ++ found
  | .benchesMissing => "benches is missing"
  | .samplesInvalid path => path ++ " must be a JSON array"
  | .sampleInvalid path i => place path i ++ " is not an object"
  | .nameMissing path i => place path i ++ ".name is missing"
  | .valueMissing path i name => place path i ++ " " ++ Text.named name ++ " has no numeric value"
  | .textInvalid path i field found =>
    place path i ++ "." ++ field ++ " must be a string, got " ++ found

/-- The words for all problems of a run. -/
def summary (problems : List Problem) : String :=
  "malformed run: " ++ "; ".intercalate (problems.map message)

end Problem

/-- A list that holds a value only if a condition is met. -/
def listIf {α : Type} (c : Prop) [Decidable c] (a : α) : List α :=
  if c then [a] else []

namespace Sample

/-- The problems of the sample at a place, after samples of the given metrics. -/
def problems (index : Nat) (seen : List (String × Option String)) (s : Sample) : List Problem :=
  listIf (Text.allBlank s.name) (.nameEmpty "benches" index) ++
    listIf (s.value.isFinite = false) (.nonFiniteValue index s.name s.value) ++
    listIf (s.metric ∈ seen) (.duplicateMetric index s.name s.extra)

/-- The problems of samples from a place on, after samples of the given metrics. -/
def problemsFrom (index : Nat) (seen : List (String × Option String)) :
    List Sample → List Problem
  | [] => []
  | s :: rest => s.problems index seen ++ problemsFrom (index + 1) (s.metric :: seen) rest

end Sample

/-- The problems of a run that is to be stored under a tool. -/
def Run.problems (tool : String) (r : Run) : List Problem :=
  listIf (Text.allBlank tool) .toolEmpty ++
    listIf (r.tool ≠ "" ∧ r.tool ≠ tool) (.toolMismatch r.tool tool) ++
    listIf (Text.allBlank r.commit.id) .commitIdEmpty ++
    listIf (r.benches = []) .benchesEmpty ++
    Sample.problemsFrom 0 [] r.benches

end BenchHistory
