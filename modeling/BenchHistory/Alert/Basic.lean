import BenchHistory.Detector.Evaluation
import BenchHistory.Report.Table
import BenchHistory.Sha256

/-!
# Alerts

An alert tells of one regression: which series, which commit, what was measured and
what it was compared with. Its key depends on the commit and the series alone.
-/

namespace BenchHistory

/-- A regression that users are told of. -/
structure Alert where
  key : String
  series : SeriesKey
  commitId : String
  commitUrl : Option String
  date : Int
  value : Float
  unit : String
  baseline : Float
  ratio : Float
  threshold : Float
  direction : Direction
deriving Repr

namespace Alert

/-- The bytes of a text. -/
def utf8 (s : String) : List UInt8 :=
  s.toUTF8.data.toList

/-- What an alert's key is the hash of: the commit, a separator, and the series. -/
def keyBytes (commitId : String) (series : SeriesKey) : List UInt8 :=
  utf8 commitId ++ 0x1e :: utf8 series.canonical

/-- The key of the alert for a commit and a series. -/
def keyOf (commitId : String) (series : SeriesKey) : String :=
  Sha256.hex (Sha256.digest (keyBytes commitId series))

/-- The alert on one line. -/
def summary (a : Alert) : String :=
  a.series.display ++ " regressed " ++ ratioText a.ratio ++ " at " ++ shortId a.commitId ++ " (" ++
    Decimal.plainText a.value ++ " " ++ a.unit ++ " vs baseline " ++
    Decimal.plainText a.baseline ++ ")"

/-- The ratio from which on a value is a regression. -/
def limit (a : Alert) : Float :=
  match a.direction with
  | .smallerIsBetter => 1 + a.threshold
  | .biggerIsBetter => 1 - a.threshold

/-- The limit as a comment shows it. -/
def limitText (x : Float) : String :=
  if x.isFinite then Decimal.twoPlaces x else Decimal.plainText x

/-- The commit as a comment shows it, a link if there is an address. -/
def commitLink (a : Alert) : String :=
  match a.commitUrl with
  | some url => "[" ++ shortId a.commitId ++ "](" ++ url ++ ")"
  | none => Text.named (shortId a.commitId)

/-- The alert as a comment. -/
def markdown (a : Alert) : String :=
  Report.lines ["# :warning: **Performance Alert** :warning:", "",
    "Possible performance regression was detected for benchmark **'" ++ a.series.tool ++
      "'** at " ++ a.commitLink ++ ".",
    "The result is worse than the baseline beyond the ratio limit (" ++ a.direction.display ++ ").",
    "",
    "| Metric | Scenario | Current | Baseline | Ratio | Limit |",
    "|--------|----------|---------|----------|-------|-------|",
    Report.row [Text.named a.series.name, a.series.extra.getD "",
      Decimal.plainText a.value ++ " " ++ a.unit, Decimal.plainText a.baseline ++ " " ++ a.unit,
      ratioText a.ratio, limitText a.limit]]

end Alert

end BenchHistory
