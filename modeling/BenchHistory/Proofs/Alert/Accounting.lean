import BenchHistory.Proofs.Alert.Delivery

/-!
# Every verdict is counted

An emitter that tells of an evaluation adds each verdict to one count. A failure leaves the ledger
alone, so that it does not matter to the verdicts behind it: the sink is offered the alert of every
regression that is pending when it is reached (`map_offers_evaluation`). With a sink that takes
everything no regressions fail but those without a sample (`emitEvaluation_accounts`).
-/

namespace BenchHistory

namespace Sink

variable {ρ : Type} [Sink ρ]

/-- The sink after some alerts were handed to it. -/
def after (s : ρ) (as : List Alert) : ρ :=
  as.foldl (fun s a => (deliver s a).2) s

/-- The sink takes every alert, whatever it was handed before. -/
def TakesAll (s : ρ) : Prop :=
  ∀ as a, (deliver (after s as) a).1 = .ok ()

theorem TakesAll.of_deliver {s s' : ρ} {a : Alert} {outcome : Except DeliveryError Unit}
    (h : TakesAll s) (hs : deliver s a = (outcome, s')) : outcome = .ok () ∧ TakesAll s' := by
  constructor
  · have hfirst := h [] a
    unfold after at hfirst
    rw [List.foldl_nil, hs] at hfirst
    exact hfirst
  · intro as b
    have hlater := h (a :: as) b
    unfold after at hlater
    rw [List.foldl_cons, hs] at hlater
    exact hlater

end Sink

/-- The notice of one verdict of an evaluation of a run. -/
def Detector.Evaluation.notice (ev : Detector.Evaluation) (r : Run)
    (v : Detector.SeriesVerdict) : Notice :=
  ⟨ev.tool, v.key, v.verdict, r⟩

namespace Notice

/-- The notice is of a regression that the ledger does not know of. -/
def pending (l : Ledger) (n : Notice) : Bool :=
  n.verdict.isRegression && !l.contains n.key

theorem pending_iff {l : Ledger} {n : Notice} :
    n.pending l = true ↔ n.verdict.isRegression = true ∧ n.key ∉ l.keys := by
  simp [pending, Ledger.contains]

theorem alert?_eq_none_iff {c : Detector.Config} {n : Notice}
    (hverdict : n.verdict.isRegression = true) :
    n.alert? c = none ↔ n.run.sample? n.series.name n.series.extra = none := by
  constructor
  · intro halert
    by_contra hsample
    obtain ⟨s, hs⟩ := Option.ne_none_iff_exists'.1 hsample
    obtain ⟨a, ha⟩ := exists_alert? hverdict hs c
    rw [halert] at ha
    cases ha
  · intro hsample
    unfold alert?
    split
    · rw [hsample]
      rfl
    · rfl

end Notice

namespace Emitter

variable {ρ σ : Type} [Sink ρ] [Storage σ]

/-- The emitter with another sink. -/
def withSink {ρ' : Type} (e : Emitter ρ) (sink : ρ') : Emitter ρ' :=
  ⟨sink, e.ledger, e.config⟩

/-! ## What is pending -/

/-- The ledger when the verdict at a place of an evaluation is reached. -/
def ledgerAt (e : Emitter ρ) (disk : σ) (ev : Detector.Evaluation) (r : Run) (i : ℕ) : Ledger :=
  (e.emitEvaluation { ev with verdicts := ev.verdicts.take i } r disk).2.1.ledger

/-- The regressions that the ledger does not know of when they are reached, in order. -/
def pending (e : Emitter ρ) (disk : σ) (ev : Detector.Evaluation) (r : Run) :
    List Detector.SeriesVerdict :=
  (List.range ev.verdicts.length).filterMap fun i =>
    ev.verdicts[i]?.filter fun v => (ev.notice r v).pending (e.ledgerAt disk ev r i)

section Steps

variable (e : Emitter ρ) (disk : σ) (ev : Detector.Evaluation) (r : Run)
  (v : Detector.SeriesVerdict) (vs : List Detector.SeriesVerdict)

theorem ledgerAt_zero : e.ledgerAt disk ev r 0 = e.ledger := rfl

theorem ledgerAt_succ (i : ℕ) :
    e.ledgerAt disk { ev with verdicts := v :: vs } r (i + 1) =
      (e.tell disk (ev.notice r v)).2.1.ledgerAt (e.tell disk (ev.notice r v)).2.2
        { ev with verdicts := vs } r i := by
  unfold ledgerAt
  simp only [emitEvaluation_eq_tellAll]
  rfl

theorem pending_cons :
    e.pending disk { ev with verdicts := v :: vs } r =
      let t := e.tell disk (ev.notice r v)
      [v].filter (fun v => (ev.notice r v).pending e.ledger) ++
        t.2.1.pending t.2.2 { ev with verdicts := vs } r := by
  have hnotice : ∀ ws, ({ ev with verdicts := ws } : Detector.Evaluation).notice r =
      ev.notice r := fun ws => rfl
  unfold pending
  simp only [hnotice, List.length_cons, List.range_succ_eq_map, List.filterMap_cons,
    List.filterMap_map, List.getElem?_cons_zero, ledgerAt_zero]
  by_cases h : (ev.notice r v).pending e.ledger = true
  · simp [Option.filter_some, h, ledgerAt_succ]
  · simp [Option.filter_some, h, ledgerAt_succ]

end Steps

theorem isRegression_of_mem_pending {e : Emitter ρ} {disk : σ} {ev : Detector.Evaluation}
    {r : Run} {v : Detector.SeriesVerdict} (hv : v ∈ e.pending disk ev r) :
    v.verdict.isRegression = true := by
  obtain ⟨i, -, hfound⟩ := List.mem_filterMap.1 hv
  obtain ⟨-, hpending⟩ := Option.filter_eq_some_iff.1 hfound
  exact (Notice.pending_iff.1 hpending).1

theorem pending_sublist (e : Emitter ρ) (disk : σ) (ev : Detector.Evaluation) (r : Run) :
    (e.pending disk ev r).Sublist ev.regressions := by
  have hverdicts : (e.pending disk ev r).Sublist ev.verdicts := by
    obtain ⟨tool, commitId, date, vs⟩ := ev
    induction vs generalizing e disk with
    | nil => exact List.Sublist.refl _
    | cons v vs ih =>
      rw [pending_cons e disk ⟨tool, commitId, date, vs⟩ r v vs]
      exact List.filter_sublist.append (ih _ _)
  have hall : (e.pending disk ev r).filter (·.verdict.isRegression) = e.pending disk ev r :=
    List.filter_eq_self.2 fun v hv => isRegression_of_mem_pending hv
  rw [← hall]
  exact hverdicts.filter _

/-! ## One verdict -/

section Told

variable {e e' : Emitter ρ} {disk disk' : σ} {n : Notice} {outcome : Except EmitError Emitted}

/-- What is no regression is counted as suppressed, and a regression in another way. -/
theorem Told.counts (h : Told e disk n outcome e' disk') (c : EmitCounts) :
    (c.add outcome).suppressed = c.suppressed + [n].countP (!·.verdict.isRegression) ∧
      (c.add outcome).delivered + (c.add outcome).alreadyEmitted + (c.add outcome).failed =
        c.delivered + c.alreadyEmitted + c.failed + [n].countP (·.verdict.isRegression) := by
  have hverdict : outcome ≠ .ok .suppressed → n.verdict.isRegression = true := by
    intro hne
    cases h with
    | suppressed => exact absurd rfl hne
    | already hverdict | missing hverdict => exact hverdict
    | refused _ halert | unrecorded _ halert | delivered _ halert =>
      exact Notice.isRegression_of_alert? halert
  cases h with
  | suppressed hnone => simp [EmitCounts.add, hnone]
  | _ =>
    have hregression := hverdict nofun
    simp only [EmitCounts.add, List.countP_singleton, hregression]
    refine ⟨rfl, ?_⟩
    simp only [if_true]
    omega

theorem Told.deliveredKeys_new (h : Told e disk n outcome e' disk') :
    (Emitted.deliveredKeys [outcome]).Nodup ∧
      ∀ k ∈ Emitted.deliveredKeys [outcome], k ∉ e.ledger.keys := by
  cases h with
  | delivered hnew => exact ⟨List.nodup_singleton _, List.forall_mem_singleton.2 hnew⟩
  | _ => exact ⟨List.nodup_nil, List.forall_mem_nil _⟩

theorem Told.of_not_pending (h : Told e disk n outcome e' disk')
    (hpending : ¬ n.pending e.ledger = true) :
    outcome = .ok .suppressed ∨ outcome = .ok (.alreadyEmitted n.key) := by
  rw [Notice.pending_iff, not_and_not_right] at hpending
  cases h with
  | suppressed => exact .inl rfl
  | already => exact .inr rfl
  | missing hverdict hnew => exact absurd (hpending hverdict) hnew
  | refused hnew halert | unrecorded hnew halert | delivered hnew halert =>
    exact absurd (hpending (Notice.isRegression_of_alert? halert)) hnew

/-- The sink is offered the alert of a pending notice. -/
theorem Told.map_offers (h : Told e disk n outcome e' disk') :
    (Notice.offers e.config [n] [outcome]).map Prod.fst =
      ([n].filter (·.pending e.ledger)).filterMap (·.alert? e.config) := by
  by_cases hpending : n.pending e.ledger = true
  · rw [List.filter_cons_of_pos hpending]
    rw [Notice.pending_iff] at hpending
    cases h with
    | suppressed hverdict => rw [hpending.1] at hverdict; cases hverdict
    | already _ hold => exact absurd hold hpending.2
    | missing _ _ halert => simp [Notice.offers, halert]
    | refused _ halert | unrecorded _ halert | delivered _ halert =>
      simp [Notice.offers, Emitted.taken?, halert]
  · rw [List.filter_cons_of_neg hpending]
    obtain rfl | rfl := h.of_not_pending hpending
    · simp [Notice.offers, Emitted.taken?]
    · simp [Notice.offers, Emitted.taken?]

/-- With a sink that takes everything, what has an alert is in the ledger in the end. -/
theorem Told.accepted (h : Told e disk n outcome e' disk') (hsink : Sink.TakesAll e.sink)
    (hwritten : ∀ l, outcome ≠ .error (.ledger l)) :
    Sink.TakesAll e'.sink ∧ ((n.alert? e.config).isSome → n.key ∈ e'.ledger.keys) := by
  cases h with
  | suppressed hverdict =>
    refine ⟨hsink, fun halert => ?_⟩
    obtain ⟨a, ha⟩ := Option.isSome_iff_exists.1 halert
    rw [Notice.isRegression_of_alert? ha] at hverdict
    cases hverdict
  | already _ hold => exact ⟨hsink, fun _ => hold⟩
  | missing _ _ hnone =>
    rw [hnone]
    exact ⟨hsink, nofun⟩
  | refused _ _ hdeliver => cases (hsink.of_deliver hdeliver).1
  | unrecorded => exact absurd rfl (hwritten _)
  | delivered _ _ hdeliver =>
    exact ⟨(hsink.of_deliver hdeliver).2, fun _ => Ledger.mem_insert.2 (.inl rfl)⟩

/-- With a sink that takes everything, what fails is pending and has no alert. -/
theorem Told.failed (h : Told e disk n outcome e' disk') (hsink : Sink.TakesAll e.sink)
    (hwritten : ∀ l, outcome ≠ .error (.ledger l)) (c : EmitCounts) :
    (c.add outcome).failed =
      c.failed + ([n].filter (·.pending e.ledger)).countP fun n => (n.alert? e.config).isNone := by
  by_cases hpending : n.pending e.ledger = true
  · rw [List.filter_cons_of_pos hpending]
    rw [Notice.pending_iff] at hpending
    cases h with
    | suppressed hverdict => rw [hpending.1] at hverdict; cases hverdict
    | already _ hold => exact absurd hold hpending.2
    | missing _ _ halert => simp [EmitCounts.add, halert]
    | refused _ _ hdeliver => cases (hsink.of_deliver hdeliver).1
    | unrecorded => exact absurd rfl (hwritten _)
    | delivered _ halert => simp [EmitCounts.add, halert]
  · rw [List.filter_cons_of_neg hpending]
    obtain rfl | rfl := h.of_not_pending hpending
    · rfl
    · rfl

end Told

/-! ## Any number of verdicts -/

theorem counts_tellAll (e : Emitter ρ) (disk : σ) (ns : List Notice) (c : EmitCounts) :
    let t := (e.tellAll disk ns).1.foldl EmitCounts.add c
    t.suppressed = c.suppressed + ns.countP (!·.verdict.isRegression) ∧
      t.delivered + t.alreadyEmitted + t.failed =
        c.delivered + c.alreadyEmitted + c.failed + ns.countP (·.verdict.isRegression) := by
  induction ns generalizing e disk c with
  | nil => exact ⟨rfl, rfl⟩
  | cons n ns ih =>
    obtain ⟨hsuppressed, hothers⟩ := (told e disk n).counts c
    obtain ⟨hsuppressed', hothers'⟩ :=
      ih (e.tell disk n).2.1 (e.tell disk n).2.2 (c.add (e.tell disk n).1)
    have hcons : ∀ p : Notice → Bool, (n :: ns).countP p = [n].countP p + ns.countP p := by
      intro p
      rw [← List.countP_append]
      rfl
    rw [tellAll_cons, hcons, hcons]
    simp only [List.foldl_cons]
    omega

/-- What is delivered was not recorded before, and is delivered once. -/
theorem deliveredKeys_new_tellAll (e : Emitter ρ) (disk : σ) (ns : List Notice) :
    (Emitted.deliveredKeys (e.tellAll disk ns).1).Nodup ∧
      ∀ k ∈ Emitted.deliveredKeys (e.tellAll disk ns).1, k ∉ e.ledger.keys := by
  induction ns generalizing e disk with
  | nil => exact ⟨List.nodup_nil, List.forall_mem_nil _⟩
  | cons n ns ih =>
    have htold := told e disk n
    obtain ⟨hone, hfirst⟩ := htold.deliveredKeys_new
    obtain ⟨hrest, hlater⟩ := ih (e.tell disk n).2.1 (e.tell disk n).2.2
    simp only [htold.ledger, Ledger.mem_insertAll, not_or] at hlater
    rw [tellAll_cons, deliveredKeys_cons (e.tell disk n).1, List.forall_mem_append]
    refine ⟨List.nodup_append.2 ⟨hone, hrest, ?_⟩, hfirst, fun k hk => (hlater k hk).1⟩
    rintro k hk _ hk' rfl
    exact (hlater k hk').2 hk

theorem exists_perm_tellAll (e : Emitter ρ) (disk : σ) (ns : List Notice) :
    ∃ new : List String, new.Nodup ∧ (∀ k ∈ new, k ∉ e.ledger.keys) ∧
      new.length = ((e.tellAll disk ns).1.foldl EmitCounts.add ⟨0, 0, 0, 0⟩).delivered ∧
      (e.tellAll disk ns).2.1.ledger.keys.Perm (e.ledger.keys ++ new) := by
  obtain ⟨hnodup, hnew⟩ := deliveredKeys_new_tellAll e disk ns
  refine ⟨_, hnodup, hnew, ?_, ?_⟩
  · rw [delivered_foldl_add, Nat.zero_add]
  · rw [ledger_tellAll]
    exact Ledger.perm_insertAll hnodup hnew

theorem filter_notice (p : Notice → Bool) (ev : Detector.Evaluation) (r : Run)
    (v : Detector.SeriesVerdict) :
    [ev.notice r v].filter p = ([v].filter fun v => p (ev.notice r v)).map (ev.notice r) :=
  List.filter_map (l := [v])

theorem map_offers_tellAll (e : Emitter ρ) (disk : σ) (ev : Detector.Evaluation) (r : Run) :
    (Notice.offers e.config (ev.notices r) (e.tellAll disk (ev.notices r)).1).map Prod.fst =
      (e.pending disk ev r).filterMap fun v => (ev.notice r v).alert? e.config := by
  obtain ⟨tool, commitId, date, vs⟩ := ev
  induction vs generalizing e disk with
  | nil => rfl
  | cons v vs ih =>
    let ev : Detector.Evaluation := ⟨tool, commitId, date, vs⟩
    have htold := told e disk (ev.notice r v)
    -- what comes later is pending for the emitter that the first verdict leaves, failed or not
    have hrest := ih (e.tell disk (ev.notice r v)).2.1 (e.tell disk (ev.notice r v)).2.2
    rw [htold.config] at hrest
    have hnotices : Detector.Evaluation.notices ⟨tool, commitId, date, v :: vs⟩ r =
        ev.notice r v :: ev.notices r := rfl
    rw [hnotices, tellAll_cons, offers_cons, List.map_append, htold.map_offers, hrest,
      pending_cons e disk ev r v vs, List.filterMap_append, filter_notice, List.filterMap_map]
    rfl

/--
With a sink that takes everything, what has an alert is in the ledger in the end, and what fails is
pending and has none.
-/
theorem accepted_tellAll {e : Emitter ρ} {disk : σ} {ev : Detector.Evaluation} {r : Run}
    (hsink : Sink.TakesAll e.sink)
    (hwritten : ∀ l, .error (.ledger l) ∉ (e.tellAll disk (ev.notices r)).1) (c : EmitCounts) :
    let t := e.tellAll disk (ev.notices r)
    (∀ n ∈ ev.notices r, (n.alert? e.config).isSome → n.key ∈ t.2.1.ledger.keys) ∧
      (t.1.foldl EmitCounts.add c).failed = c.failed +
        (e.pending disk ev r).countP fun v => ((ev.notice r v).alert? e.config).isNone := by
  obtain ⟨tool, commitId, date, vs⟩ := ev
  induction vs generalizing e disk c with
  | nil => exact ⟨List.forall_mem_nil _, rfl⟩
  | cons v vs ih =>
    let ev : Detector.Evaluation := ⟨tool, commitId, date, vs⟩
    have hnotices : Detector.Evaluation.notices ⟨tool, commitId, date, v :: vs⟩ r =
        ev.notice r v :: ev.notices r := rfl
    have htold := told e disk (ev.notice r v)
    rw [hnotices, tellAll_cons] at hwritten ⊢
    simp only [List.mem_cons, not_or] at hwritten
    have hfirst : ∀ l, (e.tell disk (ev.notice r v)).1 ≠ .error (.ledger l) :=
      fun l heq => (hwritten l).1 heq.symm
    obtain ⟨hsink', hrecorded⟩ := htold.accepted hsink hfirst
    obtain ⟨hlater, hfailed⟩ := ih hsink' (c.add (e.tell disk _).1) fun l => (hwritten l).2
    rw [htold.config] at hlater hfailed
    constructor
    · rw [List.forall_mem_cons]
      refine ⟨fun halert => ?_, hlater⟩
      -- what is in the ledger stays in it
      rw [ledger_tellAll]
      exact Ledger.mem_insertAll.2 (.inl (hrecorded halert))
    · simp only [List.foldl_cons]
      rw [hfailed, htold.failed hsink hfirst c, pending_cons e disk ev r v vs, List.countP_append,
        filter_notice, List.countP_map, Nat.add_assoc]
      rfl

/-! ## Evaluations -/

theorem outcomes_evaluation (e : Emitter ρ) (disk : σ) (ev : Detector.Evaluation) (r : Run) :
    e.outcomes disk [.evaluation ev r] = (e.tellAll disk (ev.notices r)).1 := by
  rw [outcomes_cons]
  exact List.append_nil _

theorem offers_evaluation (e : Emitter ρ) (disk : σ) (ev : Detector.Evaluation) (r : Run) :
    e.offers disk [.evaluation ev r] =
      Notice.offers e.config (ev.notices r) (e.tellAll disk (ev.notices r)).1 := by
  have houtcomes := congrArg Prod.fst (tellAll_recorded e disk (ev.notices r))
  have hoffers : e.offers disk [.evaluation ev r] =
      (e.recorded.tellAll disk (ev.notices r)).2.1.sink.offers :=
    congrArg (fun t => t.2.1.sink.offers) (emitEvaluation_eq_tellAll e.recorded ev r disk)
  rw [hoffers, offers_tellAll, houtcomes]
  rfl

/-- In the course of an evaluation the sink is offered the alerts of what is pending. -/
theorem map_offers_evaluation (e : Emitter ρ) (disk : σ) (ev : Detector.Evaluation) (r : Run) :
    (e.offers disk [.evaluation ev r]).map Prod.fst =
      (e.pending disk ev r).filterMap fun v => (ev.notice r v).alert? e.config := by
  rw [offers_evaluation, map_offers_tellAll]

theorem isSome_alert?_of_mem_pending {e : Emitter ρ} {disk : σ} {ev : Detector.Evaluation}
    {r : Run} {v : Detector.SeriesVerdict} (hv : v ∈ e.pending disk ev r) (c : Detector.Config) :
    ((ev.notice r v).alert? c).isSome = (r.sample? v.key.name v.key.extra).isSome := by
  have hnone := Notice.alert?_eq_none_iff (c := c) (n := ev.notice r v)
    (isRegression_of_mem_pending hv)
  rw [Bool.eq_iff_iff, ← not_iff_not, Option.not_isSome_iff_eq_none, Option.not_isSome_iff_eq_none]
  exact hnone

/--
All verdicts of an evaluation are counted, as suppressed if they are no regressions. The ledger
gains a new key for each delivery. The sink is offered one alert for each pending regression whose
sample is in the run, in order, whatever became of those before. When a sink that takes everything
is told of the evaluation again, all regressions with a sample come to be in the ledger, and those
that fail lack the sample.
-/
theorem emitEvaluation_accounts (e : Emitter ρ) (disk : σ) (ev : Detector.Evaluation) (r : Run) :
    let t := e.emitEvaluation ev r disk
    t.1.suppressed = ev.verdicts.countP (!·.verdict.isRegression) ∧
      t.1.delivered + t.1.alreadyEmitted + t.1.failed = ev.regressions.length ∧
      (∃ new : List String, new.Nodup ∧ (∀ k ∈ new, k ∉ e.ledger.keys) ∧
        new.length = t.1.delivered ∧ t.2.1.ledger.keys.Perm (e.ledger.keys ++ new)) ∧
      (e.offers disk [.evaluation ev r]).map (some ·.1) =
        ((e.pending disk ev r).filter fun v => (r.sample? v.key.name v.key.extra).isSome).map
          (fun v => (ev.notice r v).alert? e.config) ∧
      ∀ {ρ' : Type} [Sink ρ'] (sink : ρ') (disk' : σ), Sink.TakesAll sink →
        let e' := t.2.1.withSink sink
        (∀ l, .error (.ledger l) ∉ e'.outcomes disk' [.evaluation ev r]) →
          let again := e'.emitEvaluation ev r disk'
          (∀ v ∈ ev.regressions, (r.sample? v.key.name v.key.extra).isSome →
            Alert.keyOf r.commit.id v.key ∈ again.2.1.ledger.keys) ∧
          again.1.failed =
            (e'.pending disk' ev r).countP fun v => (r.sample? v.key.name v.key.extra).isNone := by
  obtain ⟨hsuppressed, hothers⟩ := counts_tellAll e disk (ev.notices r) ⟨0, 0, 0, 0⟩
  have hledger := exists_perm_tellAll e disk (ev.notices r)
  have hverdicts : ∀ p : Notice → Bool, (ev.notices r).countP p =
      ev.verdicts.countP fun v => p (ev.notice r v) := fun p => List.countP_map
  simp only [hverdicts, Nat.zero_add] at hsuppressed hothers
  rw [List.countP_eq_length_filter] at hothers
  rw [emitEvaluation_eq_tellAll]
  intro t
  refine ⟨hsuppressed, hothers, hledger, ?_, ?_⟩
  · have hoffers := congrArg (List.map some) (map_offers_evaluation e disk ev r)
    rw [List.map_map, List.map_filterMap_some_eq_filter_map_isSome, List.filter_map] at hoffers
    rw [← List.filter_congr fun v hv => isSome_alert?_of_mem_pending hv e.config]
    exact hoffers
  · intro ρ' _ sink disk' hsink e' hwritten
    rw [outcomes_evaluation] at hwritten
    obtain ⟨hrecorded, hfailed⟩ := accepted_tellAll (e := e') hsink hwritten ⟨0, 0, 0, 0⟩
    rw [emitEvaluation_eq_tellAll]
    constructor
    · intro v hv hsample
      obtain ⟨hmem, hverdict⟩ := List.mem_filter.1 hv
      obtain ⟨s, hs⟩ := Option.isSome_iff_exists.1 hsample
      obtain ⟨a, ha⟩ := Notice.exists_alert? (n := ev.notice r v) hverdict hs e'.config
      exact hrecorded (ev.notice r v) (List.mem_map_of_mem hmem) (Option.isSome_of_eq_some ha)
    · simp only
      rw [hfailed, Nat.zero_add]
      refine List.countP_congr fun v hv => ?_
      have hsame := isSome_alert?_of_mem_pending hv e'.config
      rw [← Option.not_isSome, ← Option.not_isSome, hsame]

/-- A ledger that is kept in no file can always be written. -/
theorem written_of_inMemory {e : Emitter ρ} (hpath : e.ledger.path = none) (disk : σ)
    (ns : List Notice) (l : LedgerError) : .error (.ledger l) ∉ (e.tellAll disk ns).1 := by
  induction ns generalizing e disk with
  | nil => exact List.not_mem_nil
  | cons n ns ih =>
    have htold := told e disk n
    have hpath' : (e.tell disk n).2.1.ledger.path = none := by
      rw [htold.ledger]
      exact hpath
    rw [tellAll_cons]
    simp only [List.mem_cons, not_or]
    refine ⟨fun hfirst => ?_, ih hpath' _⟩
    generalize e.tell disk n = t at htold hfirst
    obtain ⟨outcome, e', disk'⟩ := t
    cases htold with
    | unrecorded _ _ _ hsome =>
      rw [hpath] at hsome
      cases hsome
    | _ => cases hfirst

theorem takesAll_log : Sink.TakesAll Channel.log := by
  have hafter : ∀ as, Sink.after Channel.log as = .log := by
    intro as
    induction as with
    | nil => rfl
    | cons a as ih => exact ih
  intro as a
  rw [hafter]
  rfl

/-- A refusal, a missing sample, and a series that comes up again. -/
theorem emitEvaluation_accounts_after_refusal :
    let r : Run := ⟨.ofId "c1" "", 1, "t", [⟨"m", 2, none, "s", none, []⟩], []⟩
    let v (name : String) (verdict : Verdict) : Detector.SeriesVerdict :=
      ⟨⟨"t", name, none⟩, ⟨1, "c1", 2, "s", 0⟩, verdict, .smallerIsBetter, 0.5⟩
    let ev : Detector.Evaluation := ⟨"t", "c1", 1, [v "m" (.regression 2 1),
      v "x" (.regression 2 1), v "m" (.regression 2 1), v "m" .baseline]⟩
    let e : Emitter Rehearsal := ⟨⟨[false], []⟩, .inMemory, .default⟩
    let disk := Snapshot.ofFound []
    (e.emitEvaluation ev r disk).1 = ⟨1, 0, 1, 2⟩ ∧
      (e.offers disk [.evaluation ev r]).map (·.1.series.name) = ["m", "m"] ∧
      Sink.TakesAll Channel.log ∧
      ∃ e', e' = (e.emitEvaluation ev r disk).2.1.withSink Channel.log ∧
        (∀ l, .error (.ledger l) ∉ e'.outcomes disk [.evaluation ev r]) ∧
        (∀ w ∈ ev.regressions, (r.sample? w.key.name w.key.extra).isSome →
          Alert.keyOf r.commit.id w.key ∈ (e'.emitEvaluation ev r disk).2.1.ledger.keys) ∧
        (e'.emitEvaluation ev r disk).1 = ⟨0, 2, 1, 1⟩ := by
  intro r v ev e disk
  have hcounts : (e.emitEvaluation ev r disk).1 = ⟨1, 0, 1, 2⟩ := by decide
  have hoffers : (e.offers disk [.evaluation ev r]).map (·.1.series.name) = ["m", "m"] := by
    decide
  refine ⟨hcounts, hoffers, takesAll_log, _, rfl, ?_⟩
  have hpath : ((e.emitEvaluation ev r disk).2.1.withSink Channel.log).ledger.path = none := by
    show (e.emitEvaluation ev r disk).2.1.ledger.path = none
    rw [emitEvaluation_eq_tellAll, ledger_tellAll]
    rfl
  have hwritten := written_of_inMemory hpath disk (ev.notices r)
  rw [← outcomes_evaluation] at hwritten
  obtain ⟨-, -, -, -, hagain⟩ := emitEvaluation_accounts e disk ev r
  obtain ⟨hrecorded, -⟩ := hagain Channel.log disk takesAll_log hwritten
  exact ⟨hwritten, hrecorded, by decide +kernel⟩

end Emitter

end BenchHistory
