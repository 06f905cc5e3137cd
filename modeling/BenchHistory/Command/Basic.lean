import BenchHistory.Alert.Emitter
import BenchHistory.History.Basic
import BenchHistory.Json.File

/-!
# Commands

What a job can ask for: to publish a run, to check one without publishing it, and
to look at what was published. A command prints a text and ends with an exit
status, or with the reason why it failed.
-/

namespace BenchHistory

/-- Where a run comes from: the output of a harness with its commit, or a complete document. -/
inductive RunSource where
  | harness (output commit : String)
  | document (path : String)
deriving DecidableEq, Repr

/-- A run that is to be published or checked, and the file with the history. -/
structure RunInput where
  data : String
  tool : String
  source : RunSource
  date : Option Int
deriving DecidableEq, Repr

/-- What is asked for. -/
inductive Command where
  | publish (input : RunInput) (repoUrl : Option String)
  | check (input : RunInput)
  | query (data : String) (series : SeriesKey) (json : Bool)
  | schema (data tool : String)
  | status (data : String)
deriving DecidableEq, Repr

/-- The files that a run is read from. -/
inductive InputFile where
  | commit
  | output
  | run
deriving DecidableEq, Repr

/-- What a file of input is called. -/
def InputFile.title : InputFile → String
  | .commit => "commit"
  | .output => "benchmark output"
  | .run => "run"

/-- Why a command failed. -/
inductive CommandError where
  /-- The command line does not ask for anything. -/
  | usage
  /-- The settings cannot be loaded. -/
  | settings
  /-- The history cannot be loaded. -/
  | loading (e : FileError)
  /-- A file of input cannot be read. -/
  | reading (file : InputFile) (e : FileError)
  /-- There are problems with the run. -/
  | malformed (problems : List Problem)
  /-- The history refuses the run. -/
  | appending (commitId : String) (e : AppendError)
  /-- The history cannot be saved. -/
  | saving (data place : String)
  /-- The settings of the detector are useless. -/
  | detector (e : Detector.ConfigError)
  /-- The series has no observations. -/
  | noObservations (series : SeriesKey)
  /-- Comments need a repository. -/
  | repositoryMissing
  /-- Comments need a token. -/
  | tokenMissing
  /-- Posts need an address. -/
  | webhookUrlMissing
  /-- The sink of alerts cannot be set up. -/
  | sink (e : SinkError)
  /-- The ledger of alerts cannot be loaded. -/
  | ledger (path : String) (e : LedgerError)
deriving DecidableEq, Repr

namespace CommandError

/-- The words for a failure. -/
def message : CommandError → String
  | .usage => "the command line does not name a command with all of its options"
  | .settings => "loading settings"
  | .loading e => "loading benchmark data " ++ e.path ++ ": " ++ e.message
  | .reading file e => "reading " ++ file.title ++ " " ++ e.path ++ ": " ++ e.message
  | .malformed problems => Problem.summary problems
  | .appending commitId e => "appending run for commit " ++ commitId ++ ": " ++ e.message
  | .saving data place => "saving benchmark data " ++ data ++ ": I/O error on " ++ place
  | .detector e => "invalid detector configuration: " ++ e.message
  | .noObservations series =>
    "no observations for " ++ series.name ++ " in tool " ++ series.tool
  | .repositoryMissing => "alerts.github_repository is required for the github sink"
  | .tokenMissing => "a GitHub token is required for the github sink"
  | .webhookUrlMissing => "alerts.webhook_url is required for the webhook sink"
  | .sink e => e.message
  | .ledger path e => "loading alert ledger " ++ path ++ ": " ++ (EmitError.ledger e).message

def status : CommandError → Nat
  | .usage => 2
  | _ => 1

end CommandError

/-- What a command printed, and its exit status or why it failed. -/
structure Outcome where
  printed : String
  ending : Except CommandError Nat

namespace Outcome

/-- A failure before anything was printed. -/
def failed (e : CommandError) : Outcome :=
  ⟨"", .error e⟩

/-- A success that printed a text. -/
def done (printed : String) : Outcome :=
  ⟨printed, .ok 0⟩

def status (o : Outcome) : Nat :=
  match o.ending with
  | .ok n => n
  | .error e => e.status

end Outcome

end BenchHistory
