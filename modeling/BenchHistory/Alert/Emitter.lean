import BenchHistory.Alert.Ledger
import BenchHistory.Alert.Sink

/-!
# Telling each regression once

The emitter turns regressions into alerts and hands them to a sink. An alert is
recorded in the ledger once the sink has taken it: one that was refused is offered
again the next time, and one that was taken is never offered again.
-/

namespace BenchHistory

/-- Why a regression was not told. -/
inductive EmitError where
  | missingSample (series : SeriesKey)
  | delivery (e : DeliveryError)
  | ledger (e : LedgerError)
deriving DecidableEq, Repr

/-- The words for a regression that was not told, where they do not depend on the surroundings. -/
def EmitError.message : EmitError → String
  | .missingSample series => "Run has no sample for series " ++ series.display
  | .delivery .http => "HTTP error delivering alert"
  | .delivery (.rejected sink message) => "Sink " ++ sink ++ " rejected alert: " ++ message
  | .ledger (.file path) => "Alert ledger error: I/O error on " ++ path
  | .ledger (.text _) => "Serialization error"

/-- What became of a verdict. -/
inductive Emitted where
  | suppressed
  | delivered (key : String)
  | alreadyEmitted (key : String)
deriving DecidableEq, Repr

/-- How many verdicts of an evaluation took which end. -/
structure EmitCounts where
  delivered : Nat
  alreadyEmitted : Nat
  suppressed : Nat
  failed : Nat
deriving DecidableEq, Repr

/-- Counts one more end of a verdict. -/
def EmitCounts.add (n : EmitCounts) : Except EmitError Emitted → EmitCounts
  | .ok .suppressed => { n with suppressed := n.suppressed + 1 }
  | .ok (.delivered _) => { n with delivered := n.delivered + 1 }
  | .ok (.alreadyEmitted _) => { n with alreadyEmitted := n.alreadyEmitted + 1 }
  | .error _ => { n with failed := n.failed + 1 }

/-- Hands alerts to a sink. The settings give the threshold and the direction that alerts show. -/
structure Emitter (ρ : Type) where
  sink : ρ
  ledger : Ledger
  config : Detector.Config

/-- The alert for a regression of a run's sample. -/
def Alert.ofRegression (c : Detector.Config) (tool : String) (series : SeriesKey) (r : Run)
    (s : Sample) (ratio baseline : Float) : Alert :=
  ⟨keyOf r.commit.id series, series, r.commit.id, r.commit.url, r.date, s.value, s.unit, baseline,
    ratio, c.threshold, c.direction tool⟩

namespace Emitter

variable {ρ σ : Type} [Sink ρ] [Storage σ]

/-- Offers an alert to the sink, and records it if the sink takes it. -/
def offer (e : Emitter ρ) (a : Alert) (disk : σ) : Except EmitError Emitted × Emitter ρ × σ :=
  match Sink.deliver e.sink a with
  | (.error d, sink) => (.error (.delivery d), { e with sink := sink }, disk)
  | (.ok (), sink) =>
    match e.ledger.record a.key disk with
    | (.error l, ledger, disk) =>
      (.error (.ledger l), { e with sink := sink, ledger := ledger }, disk)
    | (.ok _, ledger, disk) =>
      (.ok (.delivered a.key), { e with sink := sink, ledger := ledger }, disk)

/-- Tells of a verdict on a run's sample of a series, if it is a regression not told yet. -/
def emit (e : Emitter ρ) (tool : String) (series : SeriesKey) (v : Verdict) (r : Run) (disk : σ) :
    Except EmitError Emitted × Emitter ρ × σ :=
  match v with
  | .regression ratio baseline =>
    let key := Alert.keyOf r.commit.id series
    if e.ledger.contains key then (.ok (.alreadyEmitted key), e, disk)
    else
      match r.sample? series.name series.extra with
      | none => (.error (.missingSample series), e, disk)
      | some s => e.offer (.ofRegression e.config tool series r s ratio baseline) disk
  | _ => (.ok .suppressed, e, disk)

/--
Tells of the verdicts of a list in order; a failure does not keep the others from
being told.
-/
def emitFrom (e : Emitter ρ) (tool : String) (r : Run) (n : EmitCounts) (disk : σ) :
    List Detector.SeriesVerdict → EmitCounts × Emitter ρ × σ
  | [] => (n, e, disk)
  | v :: vs =>
    let (outcome, e, disk) := e.emit tool v.key v.verdict r disk
    emitFrom e tool r (n.add outcome) disk vs

/-- Tells of all regressions of an evaluation of a run. -/
def emitEvaluation (e : Emitter ρ) (ev : Detector.Evaluation) (r : Run) (disk : σ) :
    EmitCounts × Emitter ρ × σ :=
  e.emitFrom ev.tool r ⟨0, 0, 0, 0⟩ disk ev.verdicts

end Emitter

end BenchHistory
