import BenchHistory.History.Schema
import BenchHistory.Report.Table

/-!
# The report of schema changes

A table with a row for each change of a tool's metrics.
-/

namespace BenchHistory.Report

/-- The run, the name and the details of a change. -/
def changeCells : SchemaChange → Nat × String × String
  | .added _ i unit => (i, "added", "unit " ++ Text.named unit)
  | .unitChanged _ before after i =>
    (i, "unit changed", Text.named before ++ " → " ++ Text.named after)
  | .retired _ i => (i, "retired", "last reported here")

def changeRow (c : SchemaChange) : String :=
  let (run, kind, detail) := changeCells c
  row [toString run, kind, c.key.name, c.key.extra.getD "", detail]

/-- The report of a tool's changes. -/
def schema (tool : String) (changes : List SchemaChange) : String :=
  lines (["# Schema changes: " ++ tool, ""] ++
    match changes with
    | [] => ["No runs recorded."]
    | changes =>
      ["| Run | Change | Metric | Scenario | Detail |",
        "|-----|--------|--------|----------|--------|"] ++ changes.map changeRow)

end BenchHistory.Report
