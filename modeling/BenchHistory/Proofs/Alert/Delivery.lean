import BenchHistory.Proofs.Alert.Request
import BenchHistory.Snapshot

/-!
# Delivering at most once

What the sink was offered is seen by a `Recorder` around it, which changes nothing else
(`tellAll_recorded`), and can be told from the outcomes as well (`offers_eq`). From this follows
for any requests what the ledger gains and what the sink is never offered
(`delivery_at_most_once`).
-/

namespace BenchHistory

/-- A sink with all alerts that it was offered, and whether it took them. -/
structure Recorder (ρ : Type) where
  sink : ρ
  offers : List (Alert × Bool)

instance {ρ : Type} [Sink ρ] : Sink (Recorder ρ) where
  name s := Sink.name s.sink
  deliver s a :=
    let (outcome, sink) := Sink.deliver s.sink a
    (outcome, ⟨sink, s.offers ++ [(a, outcome.isOk)]⟩)

theorem Recorder.offers_deliver {ρ : Type} [Sink ρ] {s s' : Recorder ρ} {a : Alert}
    {outcome : Except DeliveryError Unit} (h : Sink.deliver s a = (outcome, s')) :
    s'.offers = s.offers ++ [(a, outcome.isOk)] := by
  cases h
  rfl

/-- The answer of the sink that an outcome shows, if the sink was asked. -/
def Emitted.taken? : Except EmitError Emitted → Option Bool
  | .ok (.delivered _) => some true
  | .error (.delivery _) => some false
  | .error (.ledger _) => some true
  | _ => none

/-- What the sink was offered, and whether it took it, for notices with these outcomes. -/
def Notice.offers (c : Detector.Config) (ns : List Notice)
    (outcomes : List (Except EmitError Emitted)) : List (Alert × Bool) :=
  (ns.zip outcomes).filterMap fun p =>
    (p.1.alert? c).bind fun a => (Emitted.taken? p.2).map fun taken => (a, taken)

/-- The keys of the alerts that the sink took. -/
def Alert.takenKeys (offers : List (Alert × Bool)) : List String :=
  (offers.filter (·.2)).map (·.1.key)

/-- Once an alert was taken, none with its key is offered. -/
def Alert.TakenLast (offers : List (Alert × Bool)) : Prop :=
  offers.Pairwise fun o p => o.2 = true → p.1.key ≠ o.1.key

namespace Alert

theorem takenKeys_append (xs ys : List (Alert × Bool)) :
    takenKeys (xs ++ ys) = takenKeys xs ++ takenKeys ys := by
  unfold takenKeys
  rw [List.filter_append, List.map_append]

theorem key_mem_takenKeys {offers : List (Alert × Bool)} {o : Alert × Bool} (ho : o ∈ offers)
    (htaken : o.2 = true) : o.1.key ∈ takenKeys offers :=
  List.mem_map_of_mem (List.mem_filter.2 ⟨ho, htaken⟩)

theorem TakenLast.nodup {offers : List (Alert × Bool)} (h : TakenLast offers) :
    (takenKeys offers).Nodup := by
  unfold takenKeys List.Nodup
  rw [List.pairwise_map, List.pairwise_filter]
  exact h.imp fun hne htaken _ => (hne htaken).symm

/-- An alert that was refused and not taken since was never taken. -/
theorem TakenLast.not_mem_takenKeys {earlier later : List (Alert × Bool)} {a : Alert}
    (h : TakenLast (earlier ++ (a, false) :: later)) (hlater : a.key ∉ takenKeys later) :
    a.key ∉ takenKeys (earlier ++ (a, false) :: later) := by
  have hearlier : a.key ∉ takenKeys earlier := by
    intro hmem
    obtain ⟨o, ho, hkey⟩ := List.mem_map.1 hmem
    obtain ⟨ho, htaken⟩ := List.mem_filter.1 ho
    exact (List.pairwise_append.1 h).2.2 o ho (a, false) List.mem_cons_self htaken hkey.symm
  have hrefused : takenKeys ((a, false) :: later) = takenKeys later := rfl
  rw [takenKeys_append, hrefused, List.mem_append, not_or]
  exact ⟨hearlier, hlater⟩

end Alert

namespace Emitter

variable {ρ σ : Type} [Sink ρ] [Storage σ]

/-! ## Recorded offers -/

/-- The emitter with a recorder around its sink. -/
def recorded (e : Emitter ρ) : Emitter (Recorder ρ) :=
  ⟨⟨e.sink, []⟩, e.ledger, e.config⟩

/-- What the sink is offered in the course of requests, and whether it takes it. -/
def offers (e : Emitter ρ) (disk : σ) (qs : List Request) : List (Alert × Bool) :=
  (e.recorded.serveAll disk qs).1.sink.offers

/-- The emitter without the recorder around its sink. -/
def forget (e : Emitter (Recorder ρ)) : Emitter ρ :=
  ⟨e.sink.sink, e.ledger, e.config⟩

theorem offer_forget (e : Emitter (Recorder ρ)) (a : Alert) (disk : σ) :
    e.forget.offer a disk =
      let t := e.offer a disk
      (t.1, t.2.1.forget, t.2.2) := by
  have hdeliver : Sink.deliver e.sink a =
      let answer := Sink.deliver e.sink.sink a
      (answer.1, ⟨answer.2, e.sink.offers ++ [(a, answer.1.isOk)]⟩) := rfl
  unfold offer
  rw [hdeliver]
  match Sink.deliver e.sink.sink a with
  | (.error d, sink) => rfl
  | (.ok (), sink) =>
    match e.ledger.record a.key disk with
    | (.error l, ledger, disk') => rfl
    | (.ok _, ledger, disk') => rfl

/-- A recorder changes nothing else. -/
theorem tell_forget (e : Emitter (Recorder ρ)) (disk : σ) (n : Notice) :
    e.forget.tell disk n =
      let t := e.tell disk n
      (t.1, t.2.1.forget, t.2.2) := by
  by_cases hverdict : n.verdict.isRegression = true
  · have hledger : e.forget.ledger = e.ledger := rfl
    have hconfig : e.forget.config = e.config := rfl
    rw [tell_of_regression _ disk hverdict, tell_of_regression _ disk hverdict, hledger, hconfig]
    by_cases hkey : n.key ∈ e.ledger.keys
    · simp only [if_pos hkey]
    · simp only [if_neg hkey]
      match n.alert? e.config with
      | none => rfl
      | some a => exact offer_forget e a disk
  · rw [Bool.not_eq_true] at hverdict
    rw [tell_of_not_regression _ disk hverdict, tell_of_not_regression _ disk hverdict]

theorem tellAll_forget (e : Emitter (Recorder ρ)) (disk : σ) (ns : List Notice) :
    e.forget.tellAll disk ns =
      let t := e.tellAll disk ns
      (t.1, t.2.1.forget, t.2.2) := by
  induction ns generalizing e disk with
  | nil => rfl
  | cons n ns ih => simp only [tellAll_cons, tell_forget, ih]

/-- What became of the notices is the same with a recorder, and so are the ledger and the files. -/
theorem tellAll_recorded (e : Emitter ρ) (disk : σ) (ns : List Notice) :
    e.tellAll disk ns =
      let t := e.recorded.tellAll disk ns
      (t.1, t.2.1.forget, t.2.2) :=
  tellAll_forget e.recorded disk ns

theorem offers_cons (c : Detector.Config) (n : Notice) (ns : List Notice)
    (outcome : Except EmitError Emitted) (outcomes : List (Except EmitError Emitted)) :
    Notice.offers c (n :: ns) (outcome :: outcomes) =
      Notice.offers c [n] [outcome] ++ Notice.offers c ns outcomes := by
  unfold Notice.offers
  rw [← List.filterMap_append]
  rfl

theorem Told.offers {e e' : Emitter (Recorder ρ)} {disk disk' : σ} {n : Notice}
    {outcome : Except EmitError Emitted} (h : Told e disk n outcome e' disk') :
    e'.sink.offers = e.sink.offers ++ Notice.offers e.config [n] [outcome] := by
  cases h with
  | suppressed | already | missing => simp [Notice.offers, Emitted.taken?]
  | refused hnew halert hsink | unrecorded hnew halert hsink | delivered hnew halert hsink =>
    simp [Notice.offers, Emitted.taken?, halert, Recorder.offers_deliver hsink, Except.isOk,
      Except.toBool]

theorem offers_tellAll (e : Emitter (Recorder ρ)) (disk : σ) (ns : List Notice) :
    (e.tellAll disk ns).2.1.sink.offers =
      e.sink.offers ++ Notice.offers e.config ns (e.tellAll disk ns).1 := by
  induction ns generalizing e disk with
  | nil => simp [Notice.offers]
  | cons n ns ih =>
    have htold := told e disk n
    rw [tellAll_cons]
    simp only
    rw [ih, htold.offers, htold.config, List.append_assoc, ← offers_cons]

/-- What the sink is offered in the course of requests can be told from the outcomes. -/
theorem offers_eq {e : Emitter ρ} {disk : σ} (hbacked : e.ledger.Backed disk)
    (qs : List Request) :
    e.offers disk qs =
      Notice.offers e.config (qs.flatMap Request.notices) (e.outcomes disk qs) := by
  have hrecorded : e.recorded.ledger.Backed disk := hbacked
  have houtcomes : (e.recorded.tellAll disk (qs.flatMap Request.notices)).1 =
      e.outcomes disk qs := by
    have hsame := congrArg Prod.fst (tellAll_recorded e disk (qs.flatMap Request.notices))
    rw [serveAll_eq_tellAll hbacked] at hsame
    exact hsame.symm
  have hoffers := offers_tellAll e.recorded disk (qs.flatMap Request.notices)
  rw [houtcomes, serveAll_eq_tellAll hrecorded] at hoffers
  exact hoffers

/-! ## What the sink is offered -/

theorem Told.offers_new {e e' : Emitter ρ} {disk disk' : σ} {n : Notice}
    {outcome : Except EmitError Emitted} (h : Told e disk n outcome e' disk') :
    ∀ o ∈ Notice.offers e.config [n] [outcome], o.1.key ∉ e.ledger.keys := by
  cases h with
  | suppressed | already | missing => simp [Notice.offers, Emitted.taken?]
  | refused hnew halert hsink | unrecorded hnew halert hsink | delivered hnew halert hsink =>
    simpa [Notice.offers, Emitted.taken?, halert, Notice.key_of_alert? halert] using hnew

theorem offers_new_tellAll (e : Emitter ρ) (disk : σ) (ns : List Notice) :
    ∀ o ∈ Notice.offers e.config ns (e.tellAll disk ns).1, o.1.key ∉ e.ledger.keys := by
  induction ns generalizing e disk with
  | nil => simp [Notice.offers]
  | cons n ns ih =>
    have htold := told e disk n
    have hrest := ih (e.tell disk n).2.1 (e.tell disk n).2.2
    rw [htold.config, htold.ledger] at hrest
    rw [tellAll_cons, offers_cons, List.forall_mem_append]
    refine ⟨htold.offers_new, fun o ho hmem => ?_⟩
    exact hrest o ho (Ledger.mem_insertAll.2 (.inl hmem))

theorem Told.takenKeys {e e' : Emitter ρ} {disk disk' : σ} {n : Notice}
    {outcome : Except EmitError Emitted} (h : Told e disk n outcome e' disk')
    (hwritten : ∀ l, outcome ≠ .error (.ledger l)) :
    Alert.takenKeys (Notice.offers e.config [n] [outcome]) =
      Emitted.deliveredKeys [outcome] := by
  cases h with
  | suppressed | already | missing => simp [Notice.offers, Emitted.taken?, Alert.takenKeys,
      Emitted.deliveredKeys]
  | unrecorded => exact absurd rfl (hwritten _)
  | refused hnew halert hsink | delivered hnew halert hsink =>
    simp [Notice.offers, Emitted.taken?, Alert.takenKeys, Emitted.deliveredKeys, halert,
      Notice.key_of_alert? halert]

theorem takenKeys_tellAll {e : Emitter ρ} {disk : σ} {ns : List Notice}
    (hwritten : ∀ l, .error (.ledger l) ∉ (e.tellAll disk ns).1) :
    Alert.takenKeys (Notice.offers e.config ns (e.tellAll disk ns).1) =
      Emitted.deliveredKeys (e.tellAll disk ns).1 := by
  induction ns generalizing e disk with
  | nil => rfl
  | cons n ns ih =>
    have htold := told e disk n
    rw [tellAll_cons] at hwritten ⊢
    simp only [List.mem_cons, not_or] at hwritten
    have hone := htold.takenKeys fun l heq => (hwritten l).1 heq.symm
    have hrest := ih fun l => (hwritten l).2
    rw [htold.config] at hrest
    rw [offers_cons, Alert.takenKeys_append, hone, hrest]
    exact (deliveredKeys_cons _ _).symm

theorem takenLast_single (c : Detector.Config) (n : Notice) (outcome : Except EmitError Emitted) :
    Alert.TakenLast (Notice.offers c [n] [outcome]) := by
  unfold Alert.TakenLast Notice.offers
  rw [List.zip_cons_cons, List.zip_nil_left, List.filterMap_cons]
  split <;> simp

theorem takenLast_tellAll {e : Emitter ρ} {disk : σ} {ns : List Notice}
    (hwritten : ∀ l, .error (.ledger l) ∉ (e.tellAll disk ns).1) :
    Alert.TakenLast (Notice.offers e.config ns (e.tellAll disk ns).1) := by
  induction ns generalizing e disk with
  | nil => exact List.Pairwise.nil
  | cons n ns ih =>
    have htold := told e disk n
    have hlater := offers_new_tellAll (e.tell disk n).2.1 (e.tell disk n).2.2 ns
    rw [tellAll_cons] at hwritten ⊢
    simp only [List.mem_cons, not_or] at hwritten
    have hone := htold.takenKeys fun l heq => (hwritten l).1 heq.symm
    have hrest := ih fun l => (hwritten l).2
    rw [htold.config] at hrest hlater
    rw [offers_cons]
    refine List.pairwise_append.2 ⟨takenLast_single _ _ _, hrest, ?_⟩
    intro o ho p hp htaken hkey
    -- the key of the alert that was taken is in the ledger from then on
    have hmem := Alert.key_mem_takenKeys ho htaken
    rw [hone, ← hkey] at hmem
    refine hlater p hp ?_
    rw [htold.ledger]
    exact Ledger.mem_insertAll.2 (.inr hmem)

/-! ## Any number of requests -/

section Requests

variable {e : Emitter ρ} {disk : σ} {qs : List Request}

theorem offers_new (hbacked : e.ledger.Backed disk) (qs : List Request) :
    ∀ o ∈ e.offers disk qs, o.1.key ∉ e.ledger.keys := by
  have hnew := offers_new_tellAll e disk (qs.flatMap Request.notices)
  rw [serveAll_eq_tellAll hbacked, ← offers_eq hbacked] at hnew
  exact hnew

theorem written_tellAll (hbacked : e.ledger.Backed disk)
    (hwritten : ∀ l, .error (.ledger l) ∉ e.outcomes disk qs) :
    ∀ l, .error (.ledger l) ∉ (e.tellAll disk (qs.flatMap Request.notices)).1 := by
  rw [serveAll_eq_tellAll hbacked]
  exact hwritten

theorem takenLast_offers (hbacked : e.ledger.Backed disk)
    (hwritten : ∀ l, .error (.ledger l) ∉ e.outcomes disk qs) :
    Alert.TakenLast (e.offers disk qs) := by
  have hlast := takenLast_tellAll (written_tellAll hbacked hwritten)
  rw [serveAll_eq_tellAll hbacked, ← offers_eq hbacked] at hlast
  exact hlast

theorem ledger_serveAll (hbacked : e.ledger.Backed disk)
    (hwritten : ∀ l, .error (.ledger l) ∉ e.outcomes disk qs) :
    (e.serveAll disk qs).1.ledger = { e.ledger with
      keys := Ledger.insertAll e.ledger.keys (Alert.takenKeys (e.offers disk qs)) } := by
  have htaken := takenKeys_tellAll (written_tellAll hbacked hwritten)
  have hledger := ledger_tellAll e disk (qs.flatMap Request.notices)
  rw [← htaken, serveAll_eq_tellAll hbacked, ← offers_eq hbacked] at hledger
  exact hledger

end Requests

/-! ## One more request -/

theorem offers_emit {e : Emitter ρ} {disk : σ} (hbacked : e.ledger.Backed disk) (n : Notice) :
    e.offers disk [.emit n] = Notice.offers e.config [n] [(e.tell disk n).1] :=
  offers_eq hbacked [.emit n]

/-- The sink is offered an alert whose key is not in the ledger. -/
theorem Told.offers_of_new {e e' : Emitter ρ} {disk disk' : σ} {n : Notice} {a : Alert}
    {outcome : Except EmitError Emitted} (h : Told e disk n outcome e' disk')
    (halert : n.alert? e.config = some a) (hnew : a.key ∉ e.ledger.keys) :
    ∃ taken, Notice.offers e.config [n] [outcome] = [(a, taken)] := by
  rw [Notice.key_of_alert? halert] at hnew
  cases h with
  | suppressed hverdict =>
    rw [Notice.isRegression_of_alert? halert] at hverdict
    cases hverdict
  | already hverdict hold => exact absurd hold hnew
  | missing hverdict hnew' hnone =>
    rw [halert] at hnone
    cases hnone
  | refused | unrecorded | delivered => simp [Notice.offers, Emitted.taken?, halert]

/-- The tool that a notice names shows in its alert as the direction only. -/
theorem alert?_tool (c : Detector.Config) (n : Notice) (tool : String) :
    ({ n with tool := tool } : Notice).alert? c =
      (n.alert? c).map fun a => { a with direction := c.direction tool } := by
  obtain ⟨-, series, verdict, run⟩ := n
  unfold Notice.alert?
  cases verdict with
  | regression ratio baseline => cases run.sample? series.name series.extra <;> rfl
  | _ => rfl

theorem offers_of_new {e : Emitter ρ} {disk : σ} (hbacked : e.ledger.Backed disk) {n : Notice}
    {a : Alert} (halert : n.alert? e.config = some a) (hnew : a.key ∉ e.ledger.keys)
    (tool : String) :
    ∃ taken, e.offers disk [.emit { n with tool := tool }] =
      [({ a with direction := e.config.direction tool }, taken)] := by
  have htool : ({ n with tool := tool } : Notice).alert? e.config =
      some { a with direction := e.config.direction tool } := by
    rw [alert?_tool, halert, Option.map_some]
  rw [offers_emit hbacked]
  exact (told _ _ _).offers_of_new htool hnew

theorem offers_of_not_regression {e : Emitter ρ} {disk : σ} (hbacked : e.ledger.Backed disk)
    {n : Notice} (hverdict : n.verdict.isRegression = false) : e.offers disk [.emit n] = [] := by
  rw [offers_emit hbacked, tell_of_not_regression e disk hverdict]
  simp [Notice.offers, Emitted.taken?]

theorem offers_regressions (e : Emitter ρ) (disk : σ) (ev : Detector.Evaluation) (r : Run) :
    e.offers disk [.evaluation { ev with verdicts := ev.regressions } r] =
      e.offers disk [.evaluation ev r] :=
  congrArg (fun t => t.1.sink.offers) (serve_regressions e.recorded disk ev r)

/--
Requests of any kind, a sink that takes and refuses as it likes, and a ledger whose file can be
written. In the end the ledger holds the keys that it held at first and those of the alerts that
the sink took, in memory as in its file. No two alerts that the sink took have the same key, and
none that it was offered has a key that the ledger held at first. An alert that was refused and
not taken since is offered again when the same series, verdict and run come up, under any tool.
What is no regression changes nothing and does not come before the sink.
-/
theorem delivery_at_most_once {e : Emitter ρ} {disk : σ} {qs : List Request}
    (hbacked : e.ledger.Backed disk)
    (hwritten : ∀ l, .error (.ledger l) ∉ e.outcomes disk qs) :
    let after := e.serveAll disk qs
    let offers := e.offers disk qs
    (∀ key, key ∈ after.1.ledger.keys ↔ key ∈ e.ledger.keys ∨ key ∈ Alert.takenKeys offers) ∧
      after.1.ledger.path = e.ledger.path ∧ after.1.ledger.Synced after.2 ∧
      (Alert.takenKeys offers).Nodup ∧
      (∀ o ∈ offers, o.1.key ∉ e.ledger.keys) ∧
      (∀ earlier a later, offers = earlier ++ (a, false) :: later →
        a.key ∉ Alert.takenKeys later →
          ∀ n : Notice, n.alert? e.config = some a → ∀ tool,
            ∃ taken, after.1.offers after.2 [.emit { n with tool := tool }] =
              [({ a with direction := e.config.direction tool }, taken)]) ∧
      (∀ n : Notice, n.verdict.isRegression = false →
        after.1.serve after.2 (.emit n) = after ∧ after.1.offers after.2 [.emit n] = []) ∧
      ∀ ev r,
        let regressions := Request.evaluation { ev with verdicts := ev.regressions } r
        after.1.serve after.2 regressions = after.1.serve after.2 (.evaluation ev r) ∧
          after.1.offers after.2 [regressions] = after.1.offers after.2 [.evaluation ev r] := by
  intro after offers
  have hafter : after.1.ledger.Backed after.2 := backed_serveAll hbacked qs
  have hconfig : after.1.config = e.config := config_serveAll hbacked qs
  have hlast : Alert.TakenLast offers := takenLast_offers hbacked hwritten
  have hnew : ∀ o ∈ offers, o.1.key ∉ e.ledger.keys := offers_new hbacked qs
  have hledger : after.1.ledger = { e.ledger with
      keys := Ledger.insertAll e.ledger.keys (Alert.takenKeys offers) } :=
    ledger_serveAll hbacked hwritten
  have hkeys : ∀ key, key ∈ after.1.ledger.keys ↔
      key ∈ e.ledger.keys ∨ key ∈ Alert.takenKeys offers := by
    intro key
    rw [hledger]
    exact Ledger.mem_insertAll
  refine ⟨hkeys, by rw [hledger], hafter.synced, hlast.nodup, hnew, ?_, ?_, ?_⟩
  · intro earlier a later hsplit hlater n halert tool
    have hnot : a.key ∉ after.1.ledger.keys := by
      rw [hkeys, not_or]
      rw [hsplit] at hlast hnew ⊢
      exact ⟨hnew (a, false) (by simp), hlast.not_mem_takenKeys hlater⟩
    rw [← hconfig] at halert ⊢
    exact offers_of_new hafter halert hnot tool
  · intro n hverdict
    have htell := tell_of_not_regression after.1 after.2 hverdict
    exact ⟨congrArg Prod.snd htell, offers_of_not_regression hafter hverdict⟩
  · intro ev r regressions
    exact ⟨serve_regressions _ _ ev r, offers_regressions _ _ ev r⟩

/-- A refusal, a delivery, and no more deliveries after the ledger's file was read again. -/
theorem delivery_at_most_once_after_refusal :
    let r : Run := ⟨.ofId "c1" "", 1, "t", [⟨"m", 2, none, "s", none, []⟩], []⟩
    let n : Notice := ⟨"t", ⟨"t", "m", none⟩, .regression 2 1, r⟩
    let e : Emitter Rehearsal := ⟨⟨[false], []⟩, ⟨some "alerts.json", []⟩, .default⟩
    let disk := Snapshot.ofFound []
    let qs : List Request := [.emit n, .emit n, .reload, .emit n]
    let after := e.serveAll disk qs
    let offers := e.offers disk qs
    e.ledger.Backed disk ∧ (∀ l, .error (.ledger l) ∉ e.outcomes disk qs) ∧
      e.outcomes disk qs = [.error (.delivery (.rejected "planned" "planned failure")),
        .ok (.delivered n.key), .ok (.alreadyEmitted n.key)] ∧
      (∀ key, key ∈ after.1.ledger.keys ↔
        key ∈ e.ledger.keys ∨ key ∈ Alert.takenKeys offers) ∧
      after.1.ledger.Synced after.2 ∧ (Alert.takenKeys offers).Nodup ∧
      ∀ o ∈ offers, o.1.key ∉ e.ledger.keys := by
  intro r n e disk qs after offers
  have hload : Ledger.load disk "alerts.json" = .ok e.ledger := rfl
  have hbacked : e.ledger.Backed disk :=
    Ledger.backed_of_load hload fun _ _ _ => Snapshot.read_write
  obtain ⟨a, ha⟩ : ∃ a, n.alert? e.config = some a := ⟨_, rfl⟩
  have hkey := Notice.key_of_alert? ha
  let e' : Emitter Rehearsal := { e with sink := ⟨[], []⟩ }
  let e'' : Emitter Rehearsal :=
    { e with sink := ⟨[], [a]⟩, ledger := ⟨some "alerts.json", [n.key]⟩ }
  let disk' : Snapshot := ⟨[], [], [⟨"alerts.json", Ledger.render [n.key]⟩]⟩
  have hrefused : e.tell disk n =
      (.error (.delivery (.rejected "planned" "planned failure")), e', disk) := by
    rw [tell_of_regression _ _ rfl, ha]
    rfl
  have hdelivered : e'.tell disk n = (.ok (.delivered n.key), e'', disk') := by
    rw [tell_of_regression _ _ rfl, show n.alert? e'.config = some a from ha]
    simp only [e'', disk', ← hkey]
    rfl
  have halready : (e''.tell disk' n).1 = .ok (.alreadyEmitted n.key) :=
    tell_eq_alreadyEmitted_iff.2 ⟨rfl, List.mem_singleton_self n.key⟩
  have houtcomes : e.outcomes disk qs =
      [.error (.delivery (.rejected "planned" "planned failure")), .ok (.delivered n.key),
        .ok (.alreadyEmitted n.key)] := by
    have hall := congrArg Prod.fst (serveAll_eq_tellAll hbacked qs)
    have hnotices : qs.flatMap Request.notices = [n, n, n] := rfl
    rw [hnotices] at hall
    simp only [tellAll_cons, tellAll_nil, hrefused, hdelivered, halready] at hall
    exact hall.symm
  have hwritten : ∀ l, .error (.ledger l) ∉ e.outcomes disk qs := by
    rw [houtcomes]
    simp
  have hmain := delivery_at_most_once hbacked hwritten
  obtain ⟨hkeys, -, hsynced, hnodup, hnew, -⟩ := hmain
  exact ⟨hbacked, hwritten, houtcomes, hkeys, hsynced, hnodup, hnew⟩

end Emitter

end BenchHistory
