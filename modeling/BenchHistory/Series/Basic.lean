import BenchHistory.Text.Fold

/-!
# Series

A metric's name alone does not tell which values may be compared: scenarios of one
run use the same name. A series is told by the tool, the name and the label of the
scenario, and it has a direction in which it improves.
-/

namespace BenchHistory

/-- What identifies a series. A scenario without a label differs from one labelled `""`. -/
structure SeriesKey where
  tool : String
  name : String
  extra : Option String
deriving DecidableEq, Repr

/-- One value of a series, with the position of its run in the tool's list. -/
structure Observation where
  date : Int
  commitId : String
  value : Float
  unit : String
  runIndex : Nat
deriving DecidableEq, Repr

/-- Which way a metric improves. -/
inductive Direction where
  | smallerIsBetter
  | biggerIsBetter
deriving DecidableEq, Repr

namespace SeriesKey

/-- The character between the fields of the canonical form, the ASCII unit separator. -/
def separator : String :=
  "\x1f"

/-- One text for the key, used for hashing. A missing label is written as an empty one. -/
def canonical (k : SeriesKey) : String :=
  k.tool ++ separator ++ k.name ++ separator ++ k.extra.getD ""

def display (k : SeriesKey) : String :=
  match k.extra with
  | some extra => k.tool ++ "/" ++ k.name ++ " [" ++ extra ++ "]"
  | none => k.tool ++ "/" ++ k.name

/-- Whether an optional label comes before another or equals it; a missing one comes first. -/
def extraLe : Option String → Option String → Bool
  | none, _ => true
  | some _, none => false
  | some a, some b => decide (a ≤ b)

/-- The order of keys: by tool, then by name, then by label, each by code points. -/
def le (a b : SeriesKey) : Bool :=
  if a.tool ≠ b.tool then decide (a.tool ≤ b.tool)
  else if a.name ≠ b.name then decide (a.name ≤ b.name)
  else extraLe a.extra b.extra

/-- Keys in order. -/
def sort (keys : List SeriesKey) : List SeriesKey :=
  keys.mergeSort le

end SeriesKey

namespace Direction

/--
The direction that a tool's name promises: the smaller the better, unless it says
otherwise.
-/
def ofTool (tool : String) : Direction :=
  if Text.occurs "biggerisbetter".toList (Text.fold tool).toList then .biggerIsBetter
  else .smallerIsBetter

def display : Direction → String
  | .smallerIsBetter => "smaller is better"
  | .biggerIsBetter => "bigger is better"

end Direction

end BenchHistory
