import BenchHistory.Proofs.Alert.Accounting
import BenchHistory.Proofs.History.Append
import BenchHistory.Proofs.Run.Problems

/-!
# Alerts say what was found

The verdicts of an evaluation are on the samples of a run by place, and the emitter looks the
samples up again by metric. In a run without problems it finds the same ones
(`sample?_of_mem_verdicts`), so that no sample is missing and each alert says what one verdict says
(`offers_evaluate`).
-/

namespace BenchHistory

/-- The alert says of a run what a verdict on one of its samples says. -/
structure Alert.Reports (r : Run) (v : Detector.SeriesVerdict) (a : Alert) : Prop where
  key : a.key = keyOf r.commit.id v.key
  series : a.series = v.key
  value : a.value = v.observation.value
  unit : a.unit = v.observation.unit
  date : a.date = v.observation.date
  verdict : v.verdict = .regression a.ratio a.baseline
  threshold : a.threshold = v.threshold
  direction : a.direction = v.direction
  commitId : a.commitId = r.commit.id
  commitUrl : a.commitUrl = r.commit.url

/-! ## Samples of verdicts -/

namespace Detector

variable {c : Config} {h : History} {tool : String} {r : Run} {v : SeriesVerdict}

/-- Under the key of a verdict there is the sample that it is on. -/
theorem sample?_of_mem_verdicts (hr : r.WellFormed tool)
    (hv : v ∈ (evaluate c h tool r).verdicts) :
    ∃ s ∈ r.benches, v = evaluateSample c h tool r (placeOf h tool r) s ∧
      r.sample? v.key.name v.key.extra = some s := by
  obtain ⟨s, hs, rfl⟩ := List.mem_map.1 hv
  exact ⟨s, hs, rfl, hr.sample?_metric hs⟩

theorem nodup_keys_verdicts (hr : r.WellFormed tool) :
    ((evaluate c h tool r).verdicts.map SeriesVerdict.key).Nodup := by
  have hkeys : (evaluate c h tool r).verdicts.map SeriesVerdict.key =
      (r.benches.map Sample.metric).map fun m => ⟨tool, m.1, m.2⟩ := by
    unfold evaluate
    rw [List.map_map, List.map_map]
    rfl
  rw [hkeys]
  refine hr.metrics_nodup.map fun m m' heq => ?_
  cases m
  cases m'
  cases heq
  rfl

/-- A regression has an alert, and that says what the verdict says. -/
theorem exists_reports (hr : r.WellFormed tool) (hv : v ∈ (evaluate c h tool r).verdicts)
    (hverdict : v.verdict.isRegression = true) :
    ∃ a, ((evaluate c h tool r).notice r v).alert? c = some a ∧ a.Reports r v := by
  obtain ⟨s, -, hs, hsample⟩ := sample?_of_mem_verdicts hr hv
  obtain ⟨ratio, baseline, hregression⟩ :
      ∃ ratio baseline, v.verdict = .regression ratio baseline := by
    unfold Verdict.isRegression at hverdict
    split at hverdict
    · next ratio baseline heq => exact ⟨ratio, baseline, heq⟩
    · cases hverdict
  refine ⟨.ofRegression c tool v.key r s ratio baseline, ?_, ?_⟩
  · unfold Evaluation.notice Notice.alert?
    simp only [hregression, hsample, Option.map_some]
    rfl
  · rw [hs] at hregression ⊢
    exact ⟨rfl, rfl, rfl, rfl, rfl, hregression, rfl, rfl, rfl, rfl⟩

end Detector

/-! ## Offers -/

theorem forall₂_filterMap {α β : Type} {f : α → Option β} {p : α → β → Prop} {xs : List α}
    (h : ∀ x ∈ xs, ∃ y, f x = some y ∧ p x y) : List.Forall₂ p xs (xs.filterMap f) := by
  induction xs with
  | nil => exact .nil
  | cons x xs ih =>
    obtain ⟨⟨y, hy, hp⟩, h⟩ := List.forall_mem_cons.1 h
    rw [List.filterMap_cons_some hy]
    exact .cons hp (ih h)

namespace Emitter

variable {ρ σ : Type} [Sink ρ] [Storage σ]

theorem Told.of_missingSample {e e' : Emitter ρ} {disk disk' : σ} {n : Notice}
    {series : SeriesKey} (h : Told e disk n (.error (.missingSample series)) e' disk') :
    n.verdict.isRegression = true ∧ n.alert? e.config = none := by
  cases h with
  | missing hverdict _ halert => exact ⟨hverdict, halert⟩

/-- Only a regression without an alert lacks a sample. -/
theorem exists_of_missingSample {e : Emitter ρ} {disk : σ} {ns : List Notice} {series : SeriesKey}
    (h : .error (.missingSample series) ∈ (e.tellAll disk ns).1) :
    ∃ n ∈ ns, n.verdict.isRegression = true ∧ n.alert? e.config = none := by
  induction ns generalizing e disk with
  | nil => cases h
  | cons n ns ih =>
    have htold := told e disk n
    rw [tellAll_cons, List.mem_cons] at h
    obtain hfirst | hlater := h
    · generalize e.tell disk n = t at htold hfirst
      obtain ⟨outcome, e', disk'⟩ := t
      cases hfirst
      exact ⟨n, List.mem_cons_self, htold.of_missingSample⟩
    · obtain ⟨m, hm, hmissing⟩ := ih hlater
      rw [htold.config] at hmissing
      exact ⟨m, List.mem_cons_of_mem n hm, hmissing⟩

theorem Told.asked {e e' : Emitter ρ} {disk disk' : σ} {n : Notice}
    {outcome : Except EmitError Emitted} (h : Told e disk n outcome e' disk')
    (hfound : ∀ series, outcome ≠ .error (.missingSample series)) (c : EmitCounts) :
    (c.add outcome).delivered + (c.add outcome).failed =
      c.delivered + c.failed + (Notice.offers e.config [n] [outcome]).length := by
  cases h with
  | suppressed | already => simp [EmitCounts.add, Notice.offers, Emitted.taken?]
  | missing => exact absurd rfl (hfound _)
  | refused _ halert | unrecorded _ halert | delivered _ halert =>
    simp [EmitCounts.add, Notice.offers, Emitted.taken?, halert]
    omega

theorem asked_tellAll {e : Emitter ρ} {disk : σ} {ns : List Notice}
    (hfound : ∀ series, .error (.missingSample series) ∉ (e.tellAll disk ns).1) (c : EmitCounts) :
    let t := e.tellAll disk ns
    (t.1.foldl EmitCounts.add c).delivered + (t.1.foldl EmitCounts.add c).failed =
      c.delivered + c.failed + (Notice.offers e.config ns t.1).length := by
  induction ns generalizing e disk c with
  | nil => rfl
  | cons n ns ih =>
    have htold := told e disk n
    rw [tellAll_cons] at hfound ⊢
    simp only [List.mem_cons, not_or] at hfound
    have hone := htold.asked (fun series heq => (hfound series).1 heq.symm) c
    have hrest := ih (fun series => (hfound series).2) (c.add (e.tell disk n).1)
    rw [htold.config] at hrest
    simp only [List.foldl_cons]
    rw [hrest, hone, offers_cons e.config n ns, List.length_append, Nat.add_assoc]

/--
An emitter with the settings of the detector is told of the evaluation of a run without problems.
No sample is missing: what is not delivered was offered, too. The offers are one for one, and in
order, for regressions of the evaluation, and each says what its verdict says. No two verdicts are
on the same series, so that the alert shows which one it is for.
-/
theorem offers_evaluate (e : Emitter ρ) (disk : σ) (h : History) {tool : String} {r : Run}
    (hr : r.problems tool = []) :
    let ev := Detector.evaluate e.config h tool r
    let counts := (e.emitEvaluation ev r disk).1
    let offers := e.offers disk [.evaluation ev r]
    (∀ series, .error (.missingSample series) ∉ e.outcomes disk [.evaluation ev r]) ∧
      counts.delivered + counts.failed = offers.length ∧
      List.Forall₂ (Alert.Reports r) (e.pending disk ev r) (offers.map Prod.fst) ∧
      (e.pending disk ev r).Sublist ev.regressions ∧
      (ev.verdicts.map Detector.SeriesVerdict.key).Nodup := by
  intro ev counts offers
  have hwell : r.WellFormed tool := Run.problems_eq_nil_iff.1 hr
  have hfound : ∀ series, .error (.missingSample series) ∉ (e.tellAll disk (ev.notices r)).1 := by
    intro series hmissing
    obtain ⟨n, hn, hverdict, hnone⟩ := exists_of_missingSample hmissing
    obtain ⟨v, hv, rfl⟩ := List.mem_map.1 hn
    obtain ⟨a, ha, -⟩ := Detector.exists_reports hwell hv hverdict
    cases ha.symm.trans hnone
  refine ⟨?_, ?_, ?_, pending_sublist e disk ev r, Detector.nodup_keys_verdicts hwell⟩
  · rw [outcomes_evaluation]
    exact hfound
  · have hasked := asked_tellAll hfound ⟨0, 0, 0, 0⟩
    simp only [Nat.zero_add] at hasked
    simp only [counts, offers, emitEvaluation_eq_tellAll, offers_evaluation]
    exact hasked
  · show List.Forall₂ _ _ ((e.offers disk [.evaluation ev r]).map Prod.fst)
    rw [map_offers_evaluation]
    refine forall₂_filterMap fun v hv => ?_
    have hmem : v ∈ ev.verdicts := List.mem_of_mem_filter ((pending_sublist e disk ev r).subset hv)
    exact Detector.exists_reports hwell hmem (isRegression_of_mem_pending hv)

/-- Two scenarios of one metric, one of which takes twice as long as before. -/
theorem offers_evaluate_two_scenarios :
    let run (id : String) (date : ℤ) (x : Float) : Run := ⟨.ofId id "", date, "t",
      [⟨"m", 1, none, "s", none, []⟩, ⟨"m", x, none, "s", some "x", []⟩], []⟩
    let h := (History.empty "").attempts [("t", run "c0" 1 1)]
    let r := run "c1" 2 2
    let e : Emitter Rehearsal := ⟨⟨[false], []⟩, .inMemory, .default⟩
    let disk := Snapshot.ofFound []
    let ev := Detector.evaluate .default h "t" r
    r.problems "t" = [] ∧ (e.emitEvaluation ev r disk).1 = ⟨0, 0, 1, 1⟩ ∧
      (e.offers disk [.evaluation ev r]).map (·.1.series) = [⟨"t", "m", some "x"⟩] ∧
      List.Forall₂ (Alert.Reports r) (e.pending disk ev r)
        ((e.offers disk [.evaluation ev r]).map Prod.fst) := by
  intro run h r e disk ev
  have hr : r.problems "t" = [] := by decide
  obtain ⟨-, -, hreports, -⟩ := offers_evaluate e disk h hr
  have hcounts : (e.emitEvaluation ev r disk).1 = ⟨0, 0, 1, 1⟩ := by decide
  have hoffers : (e.offers disk [.evaluation ev r]).map (·.1.series) = [⟨"t", "m", some "x"⟩] := by
    decide
  exact ⟨hr, hcounts, hoffers, hreports⟩

end Emitter

end BenchHistory
