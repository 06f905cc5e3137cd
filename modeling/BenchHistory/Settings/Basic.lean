import BenchHistory.Alert.Sink
import BenchHistory.Path
import BenchHistory.Settings.Value

/-!
# Settings

What can be set: the detector, where alerts go, the log, and two rules of publishing.
Whatever is not set has a default.
-/

namespace BenchHistory

namespace Settings

/-- Where alerts are to go. -/
inductive SinkKind where
  | log
  | github
  | webhook
  | none
deriving DecidableEq, Repr

/-- How the log is written. -/
inductive LogFormat where
  | pretty
  | json
deriving DecidableEq, Repr

/-- Settings of alerts. -/
structure Alerts where
  sink : SinkKind
  ledgerPath : Option String
  githubRepository : Option String
  githubToken : Option String
  githubApiUrl : String
  webhookUrl : Option String
  httpTimeoutSecs : Nat
deriving Repr

/-- Settings of the log. -/
structure Log where
  level : String
  format : LogFormat
deriving Repr

def SinkKind.name : SinkKind → String
  | .log => "log"
  | .github => "github"
  | .webhook => "webhook"
  | .none => "none"

def LogFormat.name : LogFormat → String
  | .pretty => "pretty"
  | .json => "json"

def Alerts.default : Alerts :=
  ⟨.log, none, none, none, CommentSink.defaultApiUrl, none, 30⟩

def ledgerName : List Char :=
  "benchwatch-alerts.json".toList

/-- The path of the ledger: the one that is set, or beside the data file. -/
def Alerts.ledgerFor (a : Alerts) (data : String) : String :=
  a.ledgerPath.getD (String.ofList (Path.withFileName data.toList ledgerName))

def Log.default : Log :=
  ⟨"info", .pretty⟩

end Settings

/-- All settings. -/
structure Settings where
  detector : Detector.Config
  alerts : Settings.Alerts
  log : Settings.Log
  failOnRegression : Bool
  retryWindowSecs : Nat
deriving Repr

namespace Settings

def default : Settings :=
  ⟨.default, .default, .default, false, 3600⟩

/-- The longest time between a publication and its repetition, at most what 64 bits hold. -/
def retryWindowMs (s : Settings) : Int :=
  min (1000 * (s.retryWindowSecs : Int)) 0x7FFFFFFFFFFFFFFF

/-! ## Reading -/

/-- A field of a record: the default if it is missing. -/
def field {α : Type} (default : α) (v : Value) (name : String) (place : Nat)
    (take : Value → Option α) : Option α :=
  match v.field? name place with
  | some w => take w
  | none => some default

/-- One of some names. -/
def choice {α : Type} (names : List (String × α)) (v : Value) : Option α :=
  v.toName?.bind fun name => Keyed.get? name names

def sinkKind? : Value → Option SinkKind :=
  choice [("log", .log), ("github", .github), ("webhook", .webhook), ("none", .none)]

def logFormat? : Value → Option LogFormat :=
  choice [("pretty", .pretty), ("json", .json)]

def direction? : Value → Option Direction :=
  choice [("smaller_is_better", .smallerIsBetter), ("bigger_is_better", .biggerIsBetter)]

/-- Directions under the names of tools. -/
def directions? : Value → Option (Keyed Direction)
  | .table ms => ms.mapM fun e => (direction? e.2).map fun d => (e.1, d)
  | _ => none

/-- A record; anything else is refused. -/
def record {α : Type} (take : Value → Option α) (v : Value) : Option α :=
  if v.isRecord then take v else none

/-- Settings of the detector. -/
def detector? : Value → Option Detector.Config :=
  record fun v => do
    let d := Detector.Config.default
    let windowSize ← field d.windowSize v "window_size" 0 Value.toNat?
    let threshold ← field d.threshold v "threshold" 1 Value.toFloat?
    let maxGapRuns ← field d.maxGapRuns v "max_gap_runs" 2 (Value.optional? Value.toNat?)
    let directions ← field d.directions v "directions" 3 directions?
    return ⟨windowSize, threshold, maxGapRuns, directions⟩

/-- Settings of alerts. -/
def alerts? : Value → Option Alerts :=
  record fun v => do
    let d := Alerts.default
    let text := Value.optional? Value.toText?
    let sink ← field d.sink v "sink" 0 sinkKind?
    let ledgerPath ← field d.ledgerPath v "ledger_path" 1 text
    let repository ← field d.githubRepository v "github_repository" 2 text
    let token ← field d.githubToken v "github_token" 3 text
    let apiUrl ← field d.githubApiUrl v "github_api_url" 4 Value.toText?
    let webhookUrl ← field d.webhookUrl v "webhook_url" 5 text
    let timeout ← field d.httpTimeoutSecs v "http_timeout_secs" 6 Value.toNat?
    return ⟨sink, ledgerPath, repository, token, apiUrl, webhookUrl, timeout⟩

def log? : Value → Option Log :=
  record fun v => do
    let level ← field Log.default.level v "level" 0 Value.toText?
    let format ← field Log.default.format v "format" 1 logFormat?
    return ⟨level, format⟩

/-- All settings. -/
def ofValue? : Value → Option Settings :=
  record fun v => do
    let d := default
    let detector ← field d.detector v "detector" 0 detector?
    let alerts ← field d.alerts v "alerts" 1 alerts?
    let log ← field d.log v "log" 2 log?
    let failOnRegression ← field d.failOnRegression v "fail_on_regression" 3 Value.toBool?
    let retryWindowSecs ← field d.retryWindowSecs v "retry_window_secs" 4 Value.toNat?
    return ⟨detector, alerts, log, failOnRegression, retryWindowSecs⟩

end Settings

end BenchHistory
