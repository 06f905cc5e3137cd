import BenchHistory.Command.Look
import BenchHistory.Command.Publish
import BenchHistory.CommandLine
import BenchHistory.Settings.Load

/-!
# The program

From arguments, environment, time and files to what is printed, the exit status and
the files afterwards.
-/

namespace BenchHistory

variable {σ : Type} [Storage σ]

def versionText : String :=
  "benchwatch 0.1.1\n"

/-- The name of the variable with the token for comments. -/
def tokenVariable : String :=
  "GITHUB_TOKEN"

/-- The name of the variable with the file of settings. -/
def configVariable : String :=
  "BENCHWATCH_CONFIG"

/-- The files that settings are looked for in. -/
def Settings.files (config : Option String) : List String :=
  let file := config.getD Settings.defaultFile
  ".env" :: file :: (Settings.candidates file).map (·.1)

/-- The files that a run is read from, and the history and the ledger that it is for. -/
def RunInput.files (input : RunInput) (s : Settings) : List String :=
  let sources :=
    match input.source with
    | .harness output commit => [commit, output]
    | .document path => [path]
  input.data :: sources ++ [s.alerts.ledgerFor input.data]

def Command.files (s : Settings) : Command → List String
  | .publish input _ => input.files s
  | .check input => input.files s
  | .query data _ _ => [data]
  | .schema data _ => [data]
  | .status data => [data]

/-- Carries out a command; the token is used for comments if the settings give none. -/
def Command.run (c : Command) (s : Settings) (now : Int) (token : Option String) (disk : σ) :
    Outcome × σ :=
  match c with
  | .publish input repoUrl =>
    let p := input.publish s (s.alerts.channel token) now repoUrl disk
    (p.outcome, p.disk)
  | .check input => (input.check s now disk, disk)
  | .query data series json => (showSeries disk data series json, disk)
  | .schema data tool => (showSchema disk data tool, disk)
  | .status data => (showStatus disk data, disk)

/-- Runs the program. The command line is read before the settings are loaded. -/
def program (now : Int) (env : Keyed String) (args : List String) (disk : σ) : Outcome × σ :=
  match CommandLine.read? (Keyed.get? configVariable env) args with
  | none => (.failed .usage, disk)
  | some .version => (.done versionText, disk)
  | some (.command config c) =>
    let env := Settings.environment disk env
    match Settings.load? disk env config with
    | none => (.failed .settings, disk)
    | some s => c.run s now (Keyed.get? tokenVariable env) disk

end BenchHistory
