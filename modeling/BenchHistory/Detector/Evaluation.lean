import BenchHistory.Detector.Judge
import BenchHistory.History.Series
import BenchHistory.Verdict.Json

/-!
# Evaluating a run

Each sample of a run is judged after the observations of its series in the runs
before it. A run that is stored already is judged where it stands, so that it is
never compared with itself.
-/

namespace BenchHistory.Detector

/-- The verdict on one sample of a run. -/
structure SeriesVerdict where
  key : SeriesKey
  observation : Observation
  verdict : Verdict
  direction : Direction
  threshold : Float
deriving Repr

/-- The verdicts on the samples of a run, in their order. -/
structure Evaluation where
  tool : String
  commitId : String
  date : Int
  verdicts : List SeriesVerdict
deriving Repr

namespace Evaluation

/-- The verdicts that users have to be told of. -/
def regressions (e : Evaluation) : List SeriesVerdict :=
  e.verdicts.filter (·.verdict.isRegression)

def hasRegressions (e : Evaluation) : Bool :=
  e.verdicts.any (·.verdict.isRegression)

/-- How many verdicts are of a kind. -/
def count (e : Evaluation) (kind : String) : Nat :=
  e.verdicts.countP fun v => v.verdict.kind = kind

end Evaluation

def SeriesVerdict.toJson (v : SeriesVerdict) : Json :=
  .object [("key", v.key.toJson), ("observation", v.observation.toJson),
    ("verdict", v.verdict.toJson), ("direction", v.direction.toJson),
    ("threshold", .real v.threshold)]

def Evaluation.toJson (e : Evaluation) : Json :=
  .object [("tool", .string e.tool), ("commit_id", .string e.commitId), ("date", .int e.date),
    ("verdicts", .array (e.verdicts.map SeriesVerdict.toJson))]

/-- The verdict on a sample of a run that has or is to have the given place. -/
def evaluateSample (c : Config) (h : History) (tool : String) (r : Run) (runIndex : Nat)
    (s : Sample) : SeriesVerdict :=
  let key := s.key tool
  let window := (replay c tool (h.queryBefore key runIndex)).2
  let o : Observation := ⟨r.date, r.commit.id, s.value, s.unit, runIndex⟩
  ⟨key, o, judge c tool o window.observations, c.direction tool, c.threshold⟩

/-- The place of a run: where it is stored, or behind the stored ones. -/
def placeOf (h : History) (tool : String) (r : Run) : Nat :=
  (h.position? tool r.publication).getD (h.runs tool).length

/-- The verdicts on a run. -/
def evaluate (c : Config) (h : History) (tool : String) (r : Run) : Evaluation :=
  ⟨tool, r.commit.id, r.date,
    r.benches.map (evaluateSample c h tool r (placeOf h tool r))⟩

end BenchHistory.Detector
