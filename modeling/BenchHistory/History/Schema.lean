import BenchHistory.History.Basic
import BenchHistory.Series.Json

/-!
# How the metrics of a tool change

Over the runs of a tool series appear, change their unit and disappear. A series
has disappeared if the latest run has no sample of it.
-/

namespace BenchHistory

/-- A change of the metrics. -/
inductive SchemaChange where
  | added (key : SeriesKey) (runIndex : Nat) (unit : String)
  | unitChanged (key : SeriesKey) (before after : String) (runIndex : Nat)
  | retired (key : SeriesKey) (lastRunIndex : Nat)
deriving DecidableEq, Repr

namespace SchemaChange

/-- The series that changed. -/
def key : SchemaChange → SeriesKey
  | .added k _ _ => k
  | .unitChanged k _ _ _ => k
  | .retired k _ => k

/-- The object of a change. -/
def toJson : SchemaChange → Json
  | .added k i unit =>
    .object [("change", .string "metric_added"), ("key", k.toJson), ("run_index", .int i),
      ("unit", .string unit)]
  | .unitChanged k before after i =>
    .object [("change", .string "unit_changed"), ("key", k.toJson), ("from", .string before),
      ("to", .string after), ("run_index", .int i)]
  | .retired k i =>
    .object [("change", .string "metric_retired"), ("key", k.toJson), ("last_run_index", .int i)]

/-- A series that has been seen, where it was seen last and with which unit. -/
structure Seen where
  key : SeriesKey
  lastRun : Nat
  unit : String
deriving DecidableEq, Repr

/-- What the runs so far have shown: the changes, and the series in order of appearance. -/
structure State where
  changes : List SchemaChange
  seen : List Seen

def State.find? (s : State) (k : SeriesKey) : Option Seen :=
  s.seen.find? fun e => e.key = k

/-- Looks at one sample of the run at a place. -/
def State.step (tool : String) (s : State) (runIndex : Nat) (sample : Sample) : State :=
  let k := sample.key tool
  match s.find? k with
  | none =>
    ⟨s.changes ++ [.added k runIndex sample.unit], s.seen ++ [⟨k, runIndex, sample.unit⟩]⟩
  | some e =>
    ⟨s.changes ++
        (if e.unit = sample.unit then [] else [.unitChanged k e.unit sample.unit runIndex]),
      s.seen.map fun e => if e.key = k then ⟨k, runIndex, sample.unit⟩ else e⟩

/-- Looks at runs from a place on. -/
def State.run (tool : String) (s : State) (runIndex : Nat) : List Run → State
  | [] => s
  | r :: rs =>
    State.run tool (r.benches.foldl (fun s b => s.step tool runIndex b) s) (runIndex + 1) rs

/-- The series that the latest run lacks, those seen last the longest ago first. -/
def State.retired (s : State) (runCount : Nat) : List SchemaChange :=
  ((s.seen.filter fun e => e.lastRun + 1 < runCount).mergeSort fun a b =>
    decide (a.lastRun ≤ b.lastRun)).map fun e => .retired e.key e.lastRun

/-- The changes over a tool's runs, as they happened; what has disappeared comes last. -/
def ofRuns (tool : String) (runs : List Run) : List SchemaChange :=
  let s := State.run tool ⟨[], []⟩ 0 runs
  s.changes ++ s.retired runs.length

end SchemaChange

/-- The changes of a tool's metrics. -/
def History.schemaChanges (h : History) (tool : String) : List SchemaChange :=
  SchemaChange.ofRuns tool (h.runs tool)

end BenchHistory
