import BenchHistory.Calendar
import BenchHistory.History.Series
import BenchHistory.Report.Table

/-!
# The summary of a history

A table with a row for each tool: its runs, its series and its latest run.
-/

namespace BenchHistory.Report

/-- The row of a tool. -/
def toolRow (h : History) (tool : String) : String :=
  let runs := h.runs tool
  let (commit, date) :=
    match runs.getLast? with
    | some r => (shortId r.commit.id, Calendar.readable r.date)
    | none => ("", "")
  row [tool, toString runs.length, toString (h.seriesKeys tool).length, commit, date]

/-- The summary of a history. -/
def summary (h : History) : String :=
  lines (["# Benchmark History", ""] ++
    (if h.repoUrl = "" then [] else ["Repository: " ++ h.repoUrl]) ++
    ["Last update: " ++ Calendar.readable h.lastUpdate, "",
      "| Tool | Runs | Series | Latest commit | Latest run |",
      "|------|------|--------|---------------|------------|"] ++
    h.tools.map (toolRow h) ++
    ["", "---", "Total runs: " ++ toString h.size])

end BenchHistory.Report
