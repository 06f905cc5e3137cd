import BenchHistory.Calendar
import BenchHistory.Command.Basic
import BenchHistory.History.File
import BenchHistory.History.Schema
import BenchHistory.History.Series
import BenchHistory.Report.Schema
import BenchHistory.Report.Summary
import BenchHistory.Series.Json

/-!
# Looking at what was published

These commands print something about the history in a file and change nothing.
-/

namespace BenchHistory

/-- The line of an observation for readers: date, commit, value and unit. -/
def Observation.line (o : Observation) : String :=
  Calendar.stamp o.date ++ "\t" ++ shortId o.commitId ++ "\t" ++ Decimal.plainText o.value ++
    " " ++ o.unit

/-- The lines of observations, for readers or as JSON. -/
def Observation.listing (json : Bool) (os : List Observation) : String :=
  String.join (os.map fun o => (if json then o.toJson.compact else o.line) ++ "\n")

variable {σ : Type} [Storage σ]

/-- What is printed about the history in a file. -/
def look (disk : σ) (data : String) (print : History → Except CommandError String) : Outcome :=
  match (History.load disk data).mapError .loading >>= print with
  | .ok text => .done text
  | .error e => .failed e

/-- Prints a series, of which there must be observations. -/
def showSeries (disk : σ) (data : String) (series : SeriesKey) (json : Bool) : Outcome :=
  look disk data fun h =>
    match h.query series with
    | [] => .error (.noObservations series)
    | os => .ok (Observation.listing json os)

def showSchema (disk : σ) (data tool : String) : Outcome :=
  look disk data fun h => .ok (Report.schema tool (h.schemaChanges tool))

def showStatus (disk : σ) (data : String) : Outcome :=
  look disk data fun h => .ok (Report.summary h)

end BenchHistory
