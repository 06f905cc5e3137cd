import BenchHistory.Proofs.Alert.Delivery
import BenchHistory.Proofs.Command.Publish

/-!
# Telling, and what it leaves of the ledger

After telling, the ledger's file is what it was, or it holds the ledger if anything was delivered
(`Emitter.read_ledger_tellAll`). Telling that went well once goes well again on the files that it
left (`Settings.exists_counts_tell_again`), and telling of no regression leaves all files alone.
-/

namespace BenchHistory

variable {ρ σ : Type} [Sink ρ] [Storage σ]

/-! ## The ledger's file -/

namespace Emitter

theorem Told.read_ledger {e e' : Emitter ρ} {disk disk' : σ} {n : Notice}
    {outcome : Except EmitError Emitted} (h : Told e disk n outcome e' disk') {path : String}
    (hpath : e.ledger.path = some path) (hkeeps : Storage.Keeps σ path) :
    Storage.read disk' path =
      if Emitted.deliveredKeys [outcome] = [] then Storage.read disk path
      else .text (Ledger.render e'.ledger.keys) := by
  cases h with
  | delivered hnew halert hsink hwrite => exact hkeeps disk disk' _ (hwrite path hpath)
  | _ => rfl

/--
After telling, the ledger's file holds the ledger if anything was delivered. Otherwise it is as it
was.
-/
theorem read_ledger_tellAll {e : Emitter ρ} {path : String} (hpath : e.ledger.path = some path)
    (hkeeps : Storage.Keeps σ path) (disk : σ) (ns : List Notice) :
    let t := e.tellAll disk ns
    Storage.read t.2.2 path =
      if Emitted.deliveredKeys t.1 = [] then Storage.read disk path
      else .text (Ledger.render t.2.1.ledger.keys) := by
  induction ns generalizing e disk with
  | nil => rfl
  | cons n ns ih =>
    have htold := told e disk n
    have hpath' : (e.tell disk n).2.1.ledger.path = some path := by
      rw [htold.ledger]
      exact hpath
    have hrest := ih hpath' (e.tell disk n).2.2
    have hledger := ledger_tellAll (e.tell disk n).2.1 (e.tell disk n).2.2 ns
    rw [tellAll_cons]
    simp only at hrest ⊢
    generalize (e.tell disk n).2.1.tellAll (e.tell disk n).2.2 ns = u at hrest hledger
    generalize e.tell disk n = t at htold hrest hledger
    rw [hrest, deliveredKeys_cons t.1 u.1]
    by_cases hlater : Emitted.deliveredKeys u.1 = []
    · -- what comes later delivers nothing, so that the ledger stays what it is now
      have hsame : u.2.1.ledger = t.2.1.ledger := by
        rw [hledger, hlater]
        rfl
      rw [if_pos hlater, htold.read_ledger hpath hkeeps, hsame, hlater, List.append_nil]
    · rw [if_neg hlater, if_neg fun hnone => hlater (List.append_eq_nil_iff.1 hnone).2]

theorem exists_load_tellAll {e : Emitter ρ} {disk : σ} {path : String}
    (hload : Ledger.load disk path = .ok e.ledger) (hkeeps : Storage.Keeps σ path)
    (ns : List Notice) : ∃ l, Ledger.load (e.tellAll disk ns).2.2 path = .ok l := by
  have hbacked := backed_tellAll (Ledger.backed_of_load hload hkeeps) ns
  refine ⟨_, hbacked.synced path ?_⟩
  rw [ledger_tellAll]
  show e.ledger.path = some path
  exact Ledger.path_of_load hload

/-- The log takes an alert, and its key is written if no write is known to fail. -/
theorem Told.write {e e' : Emitter Channel} {disk disk' : Snapshot} {n : Notice}
    {outcome : Except EmitError Emitted} (h : Told e disk n outcome e' disk')
    (hsink : e.sink = .log) {path : String} (hledger : e.ledger = ⟨some path, []⟩)
    (hnone : disk.failures = []) {a : Alert} (halert : n.alert? e.config = some a) :
    Snapshot.write disk path (Ledger.render [n.key]) = .ok disk' := by
  cases h with
  | suppressed hverdict =>
    rw [Notice.isRegression_of_alert? halert] at hverdict
    cases hverdict
  | already _ hold =>
    rw [hledger] at hold
    cases hold
  | missing _ _ hmissing =>
    rw [hmissing] at halert
    cases halert
  | refused _ _ hrefused =>
    rw [hsink] at hrefused
    cases hrefused
  | unrecorded _ _ _ _ hwrite =>
    obtain ⟨disk', hwritten⟩ := Snapshot.exists_write hnone _ _
    cases hwrite.symm.trans hwritten
  | delivered _ _ _ hwrite =>
    rw [hledger] at hwrite
    exact hwrite path rfl

end Emitter

/-! ## Telling of an evaluation -/

namespace Detector

variable (c : Config) (h : History) (tool : String) {r : Run} {s : Sample}

theorem notices_of_single (hs : r.benches = [s]) : (evaluate c h tool r).notices r =
    [⟨tool, s.key tool, (evaluateSample c h tool r (placeOf h tool r) s).verdict, r⟩] := by
  unfold evaluate Evaluation.notices
  rw [hs]
  rfl

theorem hasRegressions_of_single (hs : r.benches = [s]) : (evaluate c h tool r).hasRegressions =
    (evaluateSample c h tool r (placeOf h tool r) s).verdict.isRegression := by
  unfold evaluate Evaluation.hasRegressions
  rw [hs]
  exact Bool.or_false _

end Detector

namespace Settings

variable {s : Settings} {data : String} {ev : Detector.Evaluation} {r : Run} {disk : σ}

theorem tell_of_not_load {e : LedgerError} (sink : ρ)
    (hledger : Ledger.load disk (s.alerts.ledgerFor data) = .error e) :
    s.tell (.ok (some sink)) data ev r disk =
      ⟨.error (.ledger (s.alerts.ledgerFor data) e), disk, some sink⟩ := by
  unfold tell emitter
  simp only [hledger]

theorem tell_of_load {l : Ledger} (sink : ρ)
    (hledger : Ledger.load disk (s.alerts.ledgerFor data) = .ok l) :
    s.tell (.ok (some sink)) data ev r disk =
      let t := Emitter.tellAll ⟨sink, l, s.detector⟩ disk (ev.notices r)
      ⟨.ok (t.1.foldl EmitCounts.add ⟨0, 0, 0, 0⟩), t.2.2, some t.2.1.sink⟩ := by
  unfold tell emitter
  simp only [hledger, Emitter.emitEvaluation_eq_tellAll]

/-- Telling that went well once goes well again. -/
theorem exists_counts_tell_again (ev' : Detector.Evaluation) (r' : Run)
    {sink sink' : Except CommandError (Option ρ)}
    (hkind : sink'.map Option.isSome = sink.map Option.isSome)
    (hkeeps : Storage.Keeps σ (s.alerts.ledgerFor data)) {n : EmitCounts}
    (hdone : (s.tell sink data ev r disk).counts = .ok n) :
    ∃ n', (s.tell sink' data ev' r' (s.tell sink data ev r disk).disk).counts = .ok n' := by
  match sink, sink', hkind with
  | .error e, _, _ => cases hdone
  | .ok none, .ok none, _ => exact ⟨_, rfl⟩
  | .ok (some x), .ok (some y), _ =>
    match hledger : Ledger.load disk (s.alerts.ledgerFor data) with
    | .error e =>
      rw [tell_of_not_load x hledger] at hdone
      cases hdone
    | .ok l =>
      obtain ⟨l', hl'⟩ := Emitter.exists_load_tellAll (e := ⟨x, l, s.detector⟩) hledger hkeeps
        (ev.notices r)
      rw [tell_of_load x hledger, tell_of_load y hl']
      exact ⟨_, rfl⟩

/-- Telling of no regression changes no file. -/
theorem disk_tell_of_not_hasRegressions (hnone : ev.hasRegressions = false)
    (sink : Except CommandError (Option ρ)) : (s.tell sink data ev r disk).disk = disk := by
  have hnotices : (ev.notices r).filter (·.verdict.isRegression) = [] := by
    rw [List.filter_eq_nil_iff]
    unfold Detector.Evaluation.notices
    rw [List.forall_mem_map]
    unfold Detector.Evaluation.hasRegressions at hnone
    simpa using hnone
  match sink with
  | .error e => rfl
  | .ok none => rfl
  | .ok (some x) =>
    match hledger : Ledger.load disk (s.alerts.ledgerFor data) with
    | .error e => rw [tell_of_not_load x hledger]
    | .ok l =>
      rw [tell_of_load x hledger]
      simp only
      rw [← Emitter.tellAll_filter, hnotices, Emitter.tellAll_nil]

end Settings

/-! ## Concluding a publication -/

namespace RunInput

variable {input : RunInput} {s : Settings} {h h' : History} {r : Run} {disk : σ}

theorem outcome_conclude_of_told {sink : Except CommandError (Option ρ)} {n : EmitCounts}
    (hproblem : s.detector.problem? = none)
    (htold : (s.tell sink input.data (Detector.evaluate s.detector h input.tool r) r disk).counts =
      .ok n) :
    let ev := Detector.evaluate s.detector h input.tool r
    (input.conclude s sink h r disk).outcome = ⟨ev.printed, .ok (ev.status s)⟩ := by
  intro ev
  unfold conclude
  simp only [hproblem, htold]
  rfl

theorem outcome_conclude_of_load {l : Ledger} (sink : ρ) (hproblem : s.detector.problem? = none)
    (hledger : Ledger.load disk (s.alerts.ledgerFor input.data) = .ok l) :
    let ev := Detector.evaluate s.detector h input.tool r
    (input.conclude s (.ok (some sink)) h r disk).outcome = ⟨ev.printed, .ok (ev.status s)⟩ := by
  intro ev
  unfold conclude
  simp only [hproblem, Settings.tell_of_load sink hledger]
  rfl

theorem outcome_conclude {sink : Except CommandError (Option ρ)} {status : ℕ}
    (hproblem : s.detector.problem? = none)
    (hdone : (input.conclude s sink h r disk).outcome.ending = .ok status) :
    let ev := Detector.evaluate s.detector h input.tool r
    (input.conclude s sink h r disk).outcome = ⟨ev.printed, .ok (ev.status s)⟩ := by
  have hended := hdone
  unfold conclude at hended
  simp only [hproblem] at hended
  obtain ⟨n, htold, -⟩ := map_eq_ok.1 hended
  exact outcome_conclude_of_told hproblem htold

theorem outcome_conclude_again {sink sink' : Except CommandError (Option ρ)} {status : ℕ}
    (hkind : sink'.map Option.isSome = sink.map Option.isSome)
    (hkeeps : Storage.Keeps σ (s.alerts.ledgerFor input.data))
    (heval : Detector.evaluate s.detector h' input.tool r =
      Detector.evaluate s.detector h input.tool r)
    (hdone : (input.conclude s sink h r disk).outcome.ending = .ok status) :
    (input.conclude s sink' h' r (input.conclude s sink h r disk).disk).outcome =
      (input.conclude s sink h r disk).outcome := by
  unfold conclude at hdone ⊢
  cases hproblem : s.detector.problem? with
  | some e => rfl
  | none =>
    simp only [hproblem] at hdone ⊢
    obtain ⟨n, hn, -⟩ := map_eq_ok.1 hdone
    obtain ⟨n', hn'⟩ := Settings.exists_counts_tell_again
      (Detector.evaluate s.detector h input.tool r) r hkind hkeeps hn
    rw [heval, hn, hn']
    rfl

theorem disk_conclude_of_not_hasRegressions (sink : Except CommandError (Option ρ)) (disk : σ)
    (hnone : (Detector.evaluate s.detector h input.tool r).hasRegressions = false) :
    (input.conclude s sink h r disk).disk = disk := by
  unfold conclude
  split
  · rfl
  · exact Settings.disk_tell_of_not_hasRegressions hnone sink

/-- A regression of a run with one sample is told to the log, and its key is written. -/
theorem write_conclude {input : RunInput} {s : Settings} {h : History} {r : Run}
    {m : Sample} {disk : Snapshot} {path : String} (hproblem : s.detector.problem? = none)
    (hledger : Ledger.load disk (s.alerts.ledgerFor input.data) = .ok ⟨some path, []⟩)
    (hm : r.benches = [m])
    (hregression : (Detector.evaluate s.detector h input.tool r).hasRegressions = true)
    (hnone : disk.failures = []) :
    ∃ key, Snapshot.write disk path (Ledger.render [key]) =
      .ok (input.conclude s (.ok (some Channel.log)) h r disk).disk := by
  have hnotices := Detector.notices_of_single s.detector h input.tool hm
  rw [Detector.hasRegressions_of_single s.detector h input.tool hm] at hregression
  generalize (Detector.evaluateSample s.detector h input.tool r
    (Detector.placeOf h input.tool r) m).verdict = v at hnotices hregression
  have hsample : r.sample? m.name m.extra = some m := by
    unfold Run.sample?
    rw [hm]
    exact List.find?_cons_of_pos (by simp [Sample.metric])
  obtain ⟨a, halert⟩ := Notice.exists_alert? (n := ⟨input.tool, m.key input.tool, v, r⟩)
    hregression hsample s.detector
  have hdisk : (input.conclude s (.ok (some Channel.log)) h r disk).disk =
      (Emitter.tell ⟨Channel.log, ⟨some path, []⟩, s.detector⟩ disk
        ⟨input.tool, m.key input.tool, v, r⟩).2.2 := by
    unfold conclude
    simp only [hproblem, Settings.tell_of_load Channel.log hledger, hnotices]
    rfl
  rw [hdisk]
  exact ⟨_, (Emitter.told _ disk _).write rfl rfl hnone halert⟩

end RunInput

end BenchHistory
