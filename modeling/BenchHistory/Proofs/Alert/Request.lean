import BenchHistory.Proofs.Alert.Emission

/-!
# Requests to an emitter

An emitter serves requests: to tell of a verdict, to tell of an evaluation, to read its ledger
again. As long as the ledger agrees with its file, reading it again changes nothing, so that any
requests come to telling of their notices one by one (`serveAll_eq_tellAll`). Of these only the
regressions count (`serve_regressions`).
-/

namespace BenchHistory

/-- What an emitter is asked to do. -/
inductive Request where
  | emit (n : Notice)
  | evaluation (ev : Detector.Evaluation) (r : Run)
  | reload

/-- The notices of an evaluation of a run. -/
def Detector.Evaluation.notices (ev : Detector.Evaluation) (r : Run) : List Notice :=
  ev.verdicts.map fun v => ⟨ev.tool, v.key, v.verdict, r⟩

/-- The notices that a request is about, in order. -/
def Request.notices : Request → List Notice
  | .emit n => [n]
  | .evaluation ev r => ev.notices r
  | .reload => []

namespace Emitter

variable {ρ σ : Type} [Sink ρ] [Storage σ]

/-! ## Requests -/

/-- The emitter with its ledger read again, if the ledger has a file and that can be read. -/
def reload (e : Emitter ρ) (disk : σ) : Emitter ρ :=
  match e.ledger.path with
  | none => e
  | some path =>
    match Ledger.load disk path with
    | .ok l => { e with ledger := l }
    | .error _ => e

/-- The emitter and the files after a request. -/
def serve (e : Emitter ρ) (disk : σ) : Request → Emitter ρ × σ
  | .emit n => (e.emit n.tool n.series n.verdict n.run disk).2
  | .evaluation ev r => (e.emitEvaluation ev r disk).2
  | .reload => (e.reload disk, disk)

/-- The emitter and the files after several requests, one after the other. -/
def serveAll (e : Emitter ρ) (disk : σ) : List Request → Emitter ρ × σ
  | [] => (e, disk)
  | q :: qs =>
    let (e, disk) := e.serve disk q
    e.serveAll disk qs

/-- What becomes of the notices of several requests. -/
def outcomes (e : Emitter ρ) (disk : σ) : List Request → List (Except EmitError Emitted)
  | [] => []
  | q :: qs =>
    let after := e.serve disk q
    (e.tellAll disk q.notices).1 ++ after.1.outcomes after.2 qs

theorem serveAll_cons (e : Emitter ρ) (disk : σ) (q : Request) (qs : List Request) :
    e.serveAll disk (q :: qs) = (e.serve disk q).1.serveAll (e.serve disk q).2 qs := rfl

theorem outcomes_cons (e : Emitter ρ) (disk : σ) (q : Request) (qs : List Request) :
    e.outcomes disk (q :: qs) =
      (e.tellAll disk q.notices).1 ++ (e.serve disk q).1.outcomes (e.serve disk q).2 qs := rfl

theorem emitFrom_eq_tellAll (e : Emitter ρ) (ev : Detector.Evaluation) (r : Run)
    (counts : EmitCounts) (disk : σ) (vs : List Detector.SeriesVerdict) :
    e.emitFrom ev.tool r counts disk vs =
      let t := e.tellAll disk (vs.map fun v => ⟨ev.tool, v.key, v.verdict, r⟩)
      (t.1.foldl EmitCounts.add counts, t.2) := by
  induction vs generalizing e counts disk with
  | nil => rfl
  | cons v vs ih =>
    unfold emitFrom
    rw [List.map_cons, tellAll_cons]
    simp only [ih, List.foldl_cons]
    rfl

theorem emitEvaluation_eq_tellAll (e : Emitter ρ) (ev : Detector.Evaluation) (r : Run) (disk : σ) :
    e.emitEvaluation ev r disk =
      let t := e.tellAll disk (ev.notices r)
      (t.1.foldl EmitCounts.add ⟨0, 0, 0, 0⟩, t.2) :=
  emitFrom_eq_tellAll e ev r _ disk ev.verdicts

/-! ## The ledger's file -/

omit [Sink ρ] in
theorem reload_of_synced {e : Emitter ρ} {disk : σ} (hsync : e.ledger.Synced disk) :
    e.reload disk = e := by
  unfold reload
  split
  · rfl
  · next path hpath =>
    rw [hsync path hpath]

theorem serve_eq_tellAll {e : Emitter ρ} {disk : σ} (hsync : e.ledger.Synced disk) (q : Request) :
    e.serve disk q = (e.tellAll disk q.notices).2 := by
  cases q with
  | emit n => rfl
  | evaluation ev r => exact congrArg Prod.snd (emitEvaluation_eq_tellAll e ev r disk)
  | reload =>
    show (e.reload disk, disk) = _
    rw [reload_of_synced hsync]
    rfl

theorem Told.backed {e e' : Emitter ρ} {disk disk' : σ} {n : Notice}
    {outcome : Except EmitError Emitted} (h : Told e disk n outcome e' disk')
    (hbacked : e.ledger.Backed disk) : e'.ledger.Backed disk' := by
  cases h with
  | delivered hnew halert hsink hwrite => exact hbacked.insert hwrite
  | _ => exact hbacked

theorem backed_tellAll {e : Emitter ρ} {disk : σ} (hbacked : e.ledger.Backed disk)
    (ns : List Notice) : (e.tellAll disk ns).2.1.ledger.Backed (e.tellAll disk ns).2.2 := by
  induction ns generalizing e disk with
  | nil => exact hbacked
  | cons n ns ih =>
    rw [tellAll_cons]
    exact ih ((told e disk n).backed hbacked)

/-- Requests come to telling of their notices one by one. -/
theorem serveAll_eq_tellAll {e : Emitter ρ} {disk : σ} (hbacked : e.ledger.Backed disk)
    (qs : List Request) :
    e.tellAll disk (qs.flatMap Request.notices) = (e.outcomes disk qs, e.serveAll disk qs) := by
  -- each request leaves ledger and file in agreement, so that the next one may be to read it again
  induction qs generalizing e disk with
  | nil => rfl
  | cons q qs ih =>
    have hone := serve_eq_tellAll hbacked.synced q
    have hrest := ih (backed_tellAll hbacked q.notices)
    rw [List.flatMap_cons, tellAll_append, outcomes_cons, serveAll_cons, hone]
    simp only [hrest]

theorem backed_serveAll {e : Emitter ρ} {disk : σ} (hbacked : e.ledger.Backed disk)
    (qs : List Request) : (e.serveAll disk qs).1.ledger.Backed (e.serveAll disk qs).2 := by
  have hall := backed_tellAll hbacked (qs.flatMap Request.notices)
  rw [serveAll_eq_tellAll hbacked] at hall
  exact hall

/-! ## Settings and other verdicts -/

theorem Told.config {e e' : Emitter ρ} {disk disk' : σ} {n : Notice}
    {outcome : Except EmitError Emitted} (h : Told e disk n outcome e' disk') :
    e'.config = e.config := by
  cases h <;> rfl

theorem config_tellAll (e : Emitter ρ) (disk : σ) (ns : List Notice) :
    (e.tellAll disk ns).2.1.config = e.config := by
  induction ns generalizing e disk with
  | nil => rfl
  | cons n ns ih =>
    rw [tellAll_cons]
    exact (ih _ _).trans (told e disk n).config

theorem config_serveAll {e : Emitter ρ} {disk : σ} (hbacked : e.ledger.Backed disk)
    (qs : List Request) : (e.serveAll disk qs).1.config = e.config := by
  have hall := config_tellAll e disk (qs.flatMap Request.notices)
  rw [serveAll_eq_tellAll hbacked] at hall
  exact hall

/-- Notices of no regression are as good as none. -/
theorem tellAll_filter (e : Emitter ρ) (disk : σ) (ns : List Notice) :
    (e.tellAll disk (ns.filter (·.verdict.isRegression))).2 = (e.tellAll disk ns).2 := by
  induction ns generalizing e disk with
  | nil => rfl
  | cons n ns ih =>
    by_cases hverdict : n.verdict.isRegression = true
    · have hfilter : (n :: ns).filter (·.verdict.isRegression) =
          n :: ns.filter (·.verdict.isRegression) := List.filter_cons_of_pos hverdict
      rw [hfilter, tellAll_cons, tellAll_cons]
      exact ih _ _
    · have hfilter : (n :: ns).filter (·.verdict.isRegression) =
          ns.filter (·.verdict.isRegression) := List.filter_cons_of_neg hverdict
      rw [hfilter, ih, tellAll_cons,
        tell_of_not_regression e disk (Bool.eq_false_of_not_eq_true hverdict)]

/-- Of an evaluation the regressions are what counts. -/
theorem serve_regressions (e : Emitter ρ) (disk : σ) (ev : Detector.Evaluation) (r : Run) :
    e.serve disk (.evaluation { ev with verdicts := ev.regressions } r) =
      e.serve disk (.evaluation ev r) := by
  have hnotices : ({ ev with verdicts := ev.regressions } : Detector.Evaluation).notices r =
      (ev.notices r).filter (·.verdict.isRegression) := by
    unfold Detector.Evaluation.notices Detector.Evaluation.regressions
    rw [List.filter_map]
    rfl
  unfold serve
  simp only [emitEvaluation_eq_tellAll, hnotices]
  exact tellAll_filter e disk (ev.notices r)

end Emitter

end BenchHistory
