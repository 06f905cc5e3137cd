import BenchHistory.Proofs.Command.Telling

/-!
# What publishing offers to a sink

A recorder around the sink sees what it is offered in the course of publishing, and changes
nothing else (`RunInput.publish_around`). The sink is not offered an alert whose key is in the
ledger (`RunInput.key_not_mem_of_conclude`).
-/

namespace BenchHistory

variable {ρ σ : Type} [Sink ρ] [Storage σ]

/-- A recorder that has not been offered anything. -/
def Recorder.around (sink : ρ) : Recorder ρ :=
  ⟨sink, []⟩

namespace Settings

variable (s : Settings) (data : String) (ev : Detector.Evaluation) (r : Run) (disk : σ)

omit [Sink ρ] in
theorem emitter_around (sink : ρ) :
    s.emitter (Recorder.around sink) data disk =
      (s.emitter sink data disk).map Emitter.recorded := by
  unfold emitter
  simp only
  split <;> rfl

theorem tell_around (sink : Except CommandError (Option ρ)) :
    s.tell sink data ev r disk =
      let t := s.tell (sink.map (Option.map Recorder.around)) data ev r disk
      ⟨t.counts, t.disk, t.sink.map Recorder.sink⟩ := by
  cases sink with
  | error e => rfl
  | ok sink? =>
    cases sink? with
    | none => rfl
    | some sink =>
      show s.tell (.ok (some sink)) data ev r disk =
        let t := s.tell (.ok (some (Recorder.around sink))) data ev r disk
        ⟨t.counts, t.disk, t.sink.map Recorder.sink⟩
      unfold tell
      simp only [emitter_around]
      cases s.emitter sink data disk with
      | error e => rfl
      | ok e =>
        simp only [Except.map, Emitter.emitEvaluation_eq_tellAll, Emitter.tellAll_recorded e]
        rfl

end Settings

namespace RunInput

variable {input : RunInput} {s : Settings} {h : History} {r : Run} {disk : σ}

theorem conclude_around (sink : Except CommandError (Option ρ)) :
    input.conclude s sink h r disk =
      let p := input.conclude s (sink.map (Option.map Recorder.around)) h r disk
      ⟨p.outcome, p.disk, p.sink.map Recorder.sink⟩ := by
  unfold conclude
  cases s.detector.problem? with
  | some e => rfl
  | none =>
    simp only
    rw [Settings.tell_around]

/-- A recorder around the sink changes nothing else. -/
theorem publish_around (sink : Except CommandError (Option ρ)) (now : ℤ) (url : Option String) :
    input.publish s sink now url disk =
      let p := input.publish s (sink.map (Option.map Recorder.around)) now url disk
      ⟨p.outcome, p.disk, p.sink.map Recorder.sink⟩ := by
  unfold publish
  cases input.prepare s now disk with
  | error e => rfl
  | ok taken =>
    simp only
    cases (taken.1.located url).store input.tool taken.2 input.data disk with
    | error e => rfl
    | ok stored => exact conclude_around sink

/-- What the sink is offered in the course of publishing, and whether it takes it. -/
def offers (input : RunInput) (s : Settings) (sink : Except CommandError (Option ρ)) (now : ℤ)
    (url : Option String) (disk : σ) : List (Alert × Bool) :=
  match (input.publish s (sink.map (Option.map Recorder.around)) now url disk).sink with
  | some recorder => recorder.offers
  | none => []

/-- The sink is not offered an alert whose key is in the ledger. -/
theorem key_not_mem_of_conclude {sink : Except CommandError (Option ρ)} {l : Ledger}
    (hledger : Ledger.load disk (s.alerts.ledgerFor input.data) = .ok l) {recorder : Recorder ρ}
    (hrecorder : (input.conclude s (sink.map (Option.map Recorder.around)) h r disk).sink =
      some recorder) : ∀ o ∈ recorder.offers, o.1.key ∉ l.keys := by
  unfold conclude at hrecorder
  split at hrecorder
  · cases hrecorder
  · cases sink with
    | error e => cases hrecorder
    | ok sink? =>
      cases sink? with
      | none => cases hrecorder
      | some sink =>
        simp only [Except.map, Option.map_some,
          Settings.tell_of_load (Recorder.around sink) hledger, Option.some_inj] at hrecorder
        rw [← hrecorder, Emitter.offers_tellAll]
        exact Emitter.offers_new_tellAll _ disk _

end RunInput

end BenchHistory
