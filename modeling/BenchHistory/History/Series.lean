import BenchHistory.History.Basic

/-!
# The series of a history

A series is read off the runs of its tool: one observation for each run that has a
sample of the metric, in the order of the runs.
-/

namespace BenchHistory

/-- The observation that the run at a place makes of a metric, if it has such a sample. -/
def Run.observation? (index : Nat) (name : String) (extra : Option String) (r : Run) :
    Option Observation :=
  (r.sample? name extra).map fun s => ⟨r.date, r.commit.id, s.value, s.unit, index⟩

/-- The observations of a metric in runs from a place on. -/
def observationsFrom (index : Nat) (name : String) (extra : Option String) :
    List Run → List Observation
  | [] => []
  | r :: rs =>
    (r.observation? index name extra).toList ++ observationsFrom (index + 1) name extra rs

namespace History

def query (h : History) (k : SeriesKey) : List Observation :=
  observationsFrom 0 k.name k.extra (h.runs k.tool)

/-- The observations of a series in the first runs of its tool. -/
def queryBefore (h : History) (k : SeriesKey) (runIndex : Nat) : List Observation :=
  observationsFrom 0 k.name k.extra ((h.runs k.tool).take runIndex)

/-- The series of a tool, in the order of their first observations. -/
def seriesKeys (h : History) (tool : String) : List SeriesKey :=
  ((h.runs tool).flatMap fun r => r.benches.map (·.key tool)).eraseDups

end History

end BenchHistory
