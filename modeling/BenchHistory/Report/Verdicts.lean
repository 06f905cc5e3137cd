import BenchHistory.Detector.Evaluation
import BenchHistory.Report.Table

/-!
# The report of an evaluation

A table with a row for each sample of the run, and a line that counts the verdicts.
-/

namespace BenchHistory.Report

def verdictRow (v : Detector.SeriesVerdict) : String :=
  row [v.key.name, v.key.extra.getD "", Decimal.plainText v.observation.value,
    v.observation.unit, (v.verdict.baseline?.map Decimal.plainText).getD "-",
    (v.verdict.ratio?.map ratioText).getD "-",
    (if v.verdict.isRegression then ":warning: " else "") ++ v.verdict.kind]

/-- The report of an evaluation. -/
def ofEvaluation (e : Detector.Evaluation) : String :=
  lines (["# Benchmark verdicts: " ++ e.tool, "", "Commit: " ++ "\x60" ++ e.commitId ++ "\x60", "",
    "| Metric | Scenario | Value | Unit | Baseline | Ratio | Verdict |",
    "|--------|----------|-------|------|----------|-------|---------|"] ++
    e.verdicts.map verdictRow ++
    ["", "---",
      "Series: " ++ toString e.verdicts.length ++
        " · regressions: " ++ toString (e.count "regression") ++
        " · unit drift: " ++ toString (e.count "unit_drift") ++
        " · discontinuities: " ++ toString (e.count "discontinuity")])

end BenchHistory.Report
