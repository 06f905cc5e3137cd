import BenchHistory.Command.Basic
import BenchHistory.History.File
import BenchHistory.Report.Verdicts
import BenchHistory.Run.Ingest
import BenchHistory.Settings.Basic

/-!
# Publishing a run

A run is taken in, judged after the history that precedes it, added to the history
and saved; then its regressions are told. A run that repeats the latest one soon
enough keeps the date of the latter, so that a second attempt adds nothing. The
checking of a run does the same without writing or telling anything. Where alerts go
is open here: a sink of any kind will do.
-/

namespace BenchHistory

variable {σ : Type} [Storage σ]

namespace RunInput

/-- The date of a run that does not bring one: the one that is asked for, or the time. -/
def defaultDate (input : RunInput) (now : Int) : Int :=
  input.date.getD now

/-- Takes the run in. -/
def ingest (input : RunInput) (now : Int) (disk : σ) : Except CommandError Run :=
  match input.source with
  | .harness output commit => do
    let c ← (Decode.file Commit.decode disk commit).mapError (.reading .commit)
    let o ← (Decode.file Decode.json disk output).mapError (.reading .output)
    (Ingest.ofHarness input.tool (input.defaultDate now) c o).mapError .malformed
  | .document path => do
    let j ← (Decode.file Decode.json disk path).mapError (.reading .run)
    (Ingest.ofRun input.tool (input.defaultDate now) j).mapError .malformed

/-- The run with the date of the latest one, if no date is asked for and it repeats that one. -/
def redated (input : RunInput) (h : History) (windowMs : Int) (r : Run) : Run :=
  match input.date with
  | some _ => r
  | none =>
    match h.retried? input.tool r windowMs with
    | some last => { r with date := last.date }
    | none => r

/-- The history before a run and the run, ready to be judged. -/
def prepare (input : RunInput) (s : Settings) (now : Int) (disk : σ) :
    Except CommandError (History × Run) := do
  let h ← (History.load disk input.data).mapError .loading
  let r ← input.ingest now disk
  return (h, input.redated h s.retryWindowMs r)

end RunInput

def Detector.Evaluation.status (e : Detector.Evaluation) (s : Settings) : Nat :=
  if s.failOnRegression && e.hasRegressions then 2 else 0

/-- What is printed about an evaluation. -/
def Detector.Evaluation.printed (e : Detector.Evaluation) : String :=
  Report.ofEvaluation e ++ "\n"

/-! ## Telling -/

/-- The channel that the settings ask for, none if alerts are not wanted. -/
def Settings.Alerts.channel (a : Settings.Alerts) (token : Option String) :
    Except CommandError (Option Channel) :=
  match a.sink with
  | .none => .ok none
  | .log => .ok (some .log)
  | .github =>
    match a.githubRepository, a.githubToken <|> token with
    | none, _ => .error .repositoryMissing
    | _, none => .error .tokenMissing
    | some repository, some token =>
      match CommentSink.make repository token a.githubApiUrl with
      | .ok s => .ok (some (.comments s))
      | .error e => .error (.sink e)
  | .webhook =>
    match a.webhookUrl with
    | none => .error .webhookUrlMissing
    | some url =>
      match WebhookSink.make url with
      | .ok s => .ok (some (.webhook s))
      | .error e => .error (.sink e)

variable {ρ : Type} [Sink ρ]

/-- The emitter of a sink, with the ledger that belongs to a history. -/
def Settings.emitter (s : Settings) (sink : ρ) (data : String) (disk : σ) :
    Except CommandError (Emitter ρ) :=
  let path := s.alerts.ledgerFor data
  match Ledger.load disk path with
  | .ok l => .ok ⟨sink, l, s.detector⟩
  | .error e => .error (.ledger path e)

/-- What telling came to: the ends of the verdicts, the files and the sink, if there was one. -/
structure Told (ρ σ : Type) where
  counts : Except CommandError EmitCounts
  disk : σ
  sink : Option ρ

/-- Tells the regressions of an evaluation to a sink, if alerts are wanted. -/
def Settings.tell (s : Settings) (sink : Except CommandError (Option ρ)) (data : String)
    (ev : Detector.Evaluation) (r : Run) (disk : σ) : Told ρ σ :=
  match sink with
  | .error e => ⟨.error e, disk, none⟩
  | .ok none => ⟨.ok ⟨0, 0, 0, 0⟩, disk, none⟩
  | .ok (some sink) =>
    match s.emitter sink data disk with
    | .error e => ⟨.error e, disk, some sink⟩
    | .ok e =>
      let (counts, e, disk) := e.emitEvaluation ev r disk
      ⟨.ok counts, disk, some e.sink⟩

/-! ## The commands -/

/-- Adds a run to a history, and saves it unless the run was there before. -/
def History.store (h : History) (tool : String) (r : Run) (data : String) (disk : σ) :
    Except CommandError (Appended × σ) := do
  let (a, h) ← (h.append tool r).mapError (.appending r.commit.id)
  if a.isAdded then
    let disk ← (h.save disk data).mapError (.saving data)
    return (a, disk)
  else return (a, disk)

/-- The history with the address of the repository that is given, if any. -/
def History.located (h : History) : Option String → History
  | some url => h.setRepoUrl url
  | none => h

/-- What publishing came to: the outcome, the files, and the sink, if one was used. -/
structure Published (ρ σ : Type) where
  outcome : Outcome
  disk : σ
  sink : Option ρ

/--
Publishes a run. With useless settings of the detector the run is published all the
same, and nothing is printed or told. What comes after the saving cannot undo it.
-/
def RunInput.publish (input : RunInput) (s : Settings) (sink : Except CommandError (Option ρ))
    (now : Int) (repoUrl : Option String) (disk : σ) : Published ρ σ :=
  match input.prepare s now disk with
  | .error e => ⟨.failed e, disk, none⟩
  | .ok (h, r) =>
    match (h.located repoUrl).store input.tool r input.data disk with
    | .error e => ⟨.failed e, disk, none⟩
    | .ok (_, disk) =>
      match s.detector.problem? with
      | some _ => ⟨.done "", disk, none⟩
      | none =>
        let ev := Detector.evaluate s.detector h input.tool r
        let told := s.tell sink input.data ev r disk
        ⟨⟨ev.printed, told.counts.map fun _ => ev.status s⟩, told.disk, told.sink⟩

/-- Judges a run without publishing it. -/
def RunInput.check (input : RunInput) (s : Settings) (now : Int) (disk : σ) : Outcome :=
  match input.prepare s now disk with
  | .error e => .failed e
  | .ok (h, r) =>
    match s.detector.problem? with
    | some e => .failed (.detector e)
    | none =>
      let ev := Detector.evaluate s.detector h input.tool r
      ⟨ev.printed, .ok (ev.status s)⟩

end BenchHistory
