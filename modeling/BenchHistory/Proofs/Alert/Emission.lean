import BenchHistory.Alert.Emitter
import BenchHistory.Proofs.Alert.Ledger

/-!
# What becomes of verdicts

An emitter is handed verdicts one by one. `Told` lists the ways that one of them can end, with
what each does to the sink, the ledger and the files, and `told` says that there are no others.
From this follows what any number of verdicts does to the ledger (`ledger_tellAll`): it gains the
keys of the alerts that were delivered.
-/

namespace BenchHistory

/-- A verdict on a run's sample of a series, of which an emitter is to tell. -/
structure Notice where
  tool : String
  series : SeriesKey
  verdict : Verdict
  run : Run

namespace Notice

/-- The key of the alert that the notice leads to. -/
def key (n : Notice) : String :=
  Alert.keyOf n.run.commit.id n.series

/-- The alert that the notice leads to, if it is of a regression and the run has the sample. -/
def alert? (c : Detector.Config) (n : Notice) : Option Alert :=
  match n.verdict with
  | .regression ratio baseline =>
    (n.run.sample? n.series.name n.series.extra).map fun s =>
      .ofRegression c n.tool n.series n.run s ratio baseline
  | _ => none

theorem key_of_alert? {c : Detector.Config} {n : Notice} {a : Alert} (h : n.alert? c = some a) :
    a.key = n.key := by
  unfold alert? at h
  split at h
  · obtain ⟨s, -, rfl⟩ := Option.map_eq_some_iff.1 h
    rfl
  · cases h

theorem isRegression_of_alert? {c : Detector.Config} {n : Notice} {a : Alert}
    (h : n.alert? c = some a) : n.verdict.isRegression = true := by
  unfold alert? at h
  split at h
  · next hv => rw [hv]; rfl
  · cases h

theorem exists_alert? {n : Notice} (hverdict : n.verdict.isRegression = true) {s : Sample}
    (hs : n.run.sample? n.series.name n.series.extra = some s) (c : Detector.Config) :
    ∃ a, n.alert? c = some a := by
  unfold alert?
  rw [hs]
  split
  · exact ⟨_, rfl⟩
  · next hother =>
    unfold Verdict.isRegression at hverdict
    split at hverdict
    · next ratio baseline heq => exact absurd heq (hother ratio baseline)
    · cases hverdict

end Notice

/-- The keys of the alerts that were delivered. -/
def Emitted.deliveredKeys (outcomes : List (Except EmitError Emitted)) : List String :=
  outcomes.filterMap fun
    | .ok (.delivered key) => some key
    | _ => none

namespace Emitter

variable {ρ σ : Type} [Sink ρ] [Storage σ]

/-- Tells of one notice. -/
def tell (e : Emitter ρ) (disk : σ) (n : Notice) : Except EmitError Emitted × Emitter ρ × σ :=
  e.emit n.tool n.series n.verdict n.run disk

/-- Tells of notices one after the other, and says what became of each. -/
def tellAll (e : Emitter ρ) (disk : σ) :
    List Notice → List (Except EmitError Emitted) × Emitter ρ × σ
  | [] => ([], e, disk)
  | n :: ns =>
    let (outcome, e, disk) := e.tell disk n
    let (outcomes, e, disk) := e.tellAll disk ns
    (outcome :: outcomes, e, disk)

/-! ## One notice -/

/--
The ways that a notice can end: it is no regression; its alert was delivered before; the run lacks
the sample; the sink refuses the alert; the sink takes it and the ledger's file cannot be written;
or the alert is delivered and recorded.
-/
inductive Told (e : Emitter ρ) (disk : σ) (n : Notice) :
    Except EmitError Emitted → Emitter ρ → σ → Prop
  | suppressed (hverdict : n.verdict.isRegression = false) :
      Told e disk n (.ok .suppressed) e disk
  | already (hverdict : n.verdict.isRegression = true) (hold : n.key ∈ e.ledger.keys) :
      Told e disk n (.ok (.alreadyEmitted n.key)) e disk
  | missing (hverdict : n.verdict.isRegression = true) (hnew : n.key ∉ e.ledger.keys)
      (halert : n.alert? e.config = none) :
      Told e disk n (.error (.missingSample n.series)) e disk
  | refused {a : Alert} {d : DeliveryError} {sink : ρ} (hnew : n.key ∉ e.ledger.keys)
      (halert : n.alert? e.config = some a) (hsink : Sink.deliver e.sink a = (.error d, sink)) :
      Told e disk n (.error (.delivery d)) { e with sink := sink } disk
  | unrecorded {a : Alert} {sink : ρ} {path place : String} (hnew : n.key ∉ e.ledger.keys)
      (halert : n.alert? e.config = some a) (hsink : Sink.deliver e.sink a = (.ok (), sink))
      (hpath : e.ledger.path = some path)
      (hwrite : Storage.write disk path
        (Ledger.render (Ledger.insert n.key e.ledger.keys)) = .error place) :
      Told e disk n (.error (.ledger (.file place))) { e with sink := sink } disk
  | delivered {a : Alert} {sink : ρ} {disk' : σ} (hnew : n.key ∉ e.ledger.keys)
      (halert : n.alert? e.config = some a) (hsink : Sink.deliver e.sink a = (.ok (), sink))
      (hwrite : ∀ path, e.ledger.path = some path →
        Storage.write disk path (Ledger.render (Ledger.insert n.key e.ledger.keys)) = .ok disk') :
      Told e disk n (.ok (.delivered n.key))
        { e with
          sink := sink
          ledger := { e.ledger with keys := Ledger.insert n.key e.ledger.keys } } disk'

theorem told_offer {e : Emitter ρ} {disk : σ} {n : Notice} {a : Alert}
    (hnew : n.key ∉ e.ledger.keys) (halert : n.alert? e.config = some a) :
    let t := e.offer a disk
    Told e disk n t.1 t.2.1 t.2.2 := by
  have hkey := Notice.key_of_alert? halert
  unfold offer
  match hsink : Sink.deliver e.sink a with
  | (.error d, sink) => exact .refused hnew halert hsink
  | (.ok (), sink) =>
    obtain ⟨disk', hrecord, hwrite⟩ | ⟨path, place, hpath, hwrite, hrecord⟩ :=
      Ledger.record_cases (l := e.ledger) hnew disk
    · simp only [hkey, hrecord]
      exact .delivered hnew halert hsink hwrite
    · simp only [hkey, hrecord]
      exact .unrecorded hnew halert hsink hpath hwrite

theorem tell_of_not_regression (e : Emitter ρ) (disk : σ) {n : Notice}
    (hverdict : n.verdict.isRegression = false) : e.tell disk n = (.ok .suppressed, e, disk) := by
  unfold tell emit
  split
  · next heq =>
    rw [heq] at hverdict
    cases hverdict
  · rfl

theorem tell_of_regression (e : Emitter ρ) (disk : σ) {n : Notice}
    (hverdict : n.verdict.isRegression = true) :
    e.tell disk n =
      if n.key ∈ e.ledger.keys then (.ok (.alreadyEmitted n.key), e, disk)
      else
        match n.alert? e.config with
        | none => (.error (.missingSample n.series), e, disk)
        | some a => e.offer a disk := by
  obtain ⟨tool, series, verdict, run⟩ := n
  cases verdict with
  | regression ratio baseline =>
    unfold tell emit Notice.alert? Ledger.contains
    simp only [decide_eq_true_eq]
    cases run.sample? series.name series.extra <;> rfl
  | _ => cases hverdict

/-- A notice ends in one of the ways. -/
theorem told (e : Emitter ρ) (disk : σ) (n : Notice) :
    let t := e.tell disk n
    Told e disk n t.1 t.2.1 t.2.2 := by
  by_cases hverdict : n.verdict.isRegression = true
  · rw [tell_of_regression e disk hverdict]
    by_cases hkey : n.key ∈ e.ledger.keys
    · rw [if_pos hkey]
      exact .already hverdict hkey
    · rw [if_neg hkey]
      match halert : n.alert? e.config with
      | none => exact .missing hverdict hkey halert
      | some a => exact told_offer hkey halert
  · rw [Bool.not_eq_true] at hverdict
    rw [tell_of_not_regression e disk hverdict]
    exact .suppressed hverdict

/-! ## Any number of notices -/

@[simp] theorem tellAll_nil (e : Emitter ρ) (disk : σ) : e.tellAll disk [] = ([], e, disk) := rfl

theorem tellAll_cons (e : Emitter ρ) (disk : σ) (n : Notice) (ns : List Notice) :
    e.tellAll disk (n :: ns) =
      let t := e.tell disk n
      let u := t.2.1.tellAll t.2.2 ns
      (t.1 :: u.1, u.2) := rfl

theorem tellAll_append (e : Emitter ρ) (disk : σ) (ns later : List Notice) :
    e.tellAll disk (ns ++ later) =
      let t := e.tellAll disk ns
      let u := t.2.1.tellAll t.2.2 later
      (t.1 ++ u.1, u.2) := by
  induction ns generalizing e disk with
  | nil => rfl
  | cons n ns ih => simp only [List.cons_append, tellAll_cons, ih]

theorem Told.ledger {e e' : Emitter ρ} {disk disk' : σ} {n : Notice}
    {outcome : Except EmitError Emitted} (h : Told e disk n outcome e' disk') :
    e'.ledger = { e.ledger with
      keys := Ledger.insertAll e.ledger.keys (Emitted.deliveredKeys [outcome]) } := by
  cases h <;> rfl

theorem deliveredKeys_cons (outcome : Except EmitError Emitted)
    (outcomes : List (Except EmitError Emitted)) :
    Emitted.deliveredKeys (outcome :: outcomes) =
      Emitted.deliveredKeys [outcome] ++ Emitted.deliveredKeys outcomes := by
  unfold Emitted.deliveredKeys
  rw [← List.filterMap_append]
  rfl

theorem delivered_foldl_add (outcomes : List (Except EmitError Emitted)) (n : EmitCounts) :
    (outcomes.foldl EmitCounts.add n).delivered =
      n.delivered + (Emitted.deliveredKeys outcomes).length := by
  induction outcomes generalizing n with
  | nil => rfl
  | cons outcome outcomes ih =>
    have hone : (n.add outcome).delivered =
        n.delivered + (Emitted.deliveredKeys [outcome]).length := by
      match outcome with
      | .ok .suppressed | .ok (.delivered _) | .ok (.alreadyEmitted _) | .error _ => rfl
    rw [List.foldl_cons, ih, hone, deliveredKeys_cons outcome outcomes, List.length_append,
      Nat.add_assoc]

/-- The ledger gains the keys of the alerts that were delivered, and keeps its place. -/
theorem ledger_tellAll (e : Emitter ρ) (disk : σ) (ns : List Notice) :
    (e.tellAll disk ns).2.1.ledger = { e.ledger with
      keys := Ledger.insertAll e.ledger.keys
        (Emitted.deliveredKeys (e.tellAll disk ns).1) } := by
  induction ns generalizing e disk with
  | nil => rfl
  | cons n ns ih =>
    rw [tellAll_cons]
    simp only
    rw [deliveredKeys_cons (e.tell disk n).1, ih, (told e disk n).ledger, Ledger.insertAll_append]

/-! ## Where an outcome comes from -/

theorem take_tellAll (e : Emitter ρ) (disk : σ) (ns : List Notice) (i : ℕ) :
    (e.tellAll disk (ns.take i)).1 = (e.tellAll disk ns).1.take i := by
  induction ns generalizing e disk i with
  | nil => simp
  | cons n ns ih =>
    cases i with
    | zero => rfl
    | succ i => simp only [List.take_succ_cons, tellAll_cons, ih]

theorem getElem?_tellAll (e : Emitter ρ) (disk : σ) (ns : List Notice) (i : ℕ) :
    (e.tellAll disk ns).1[i]? = ns[i]?.map fun n =>
      let before := (e.tellAll disk (ns.take i)).2
      (before.1.tell before.2 n).1 := by
  induction ns generalizing e disk i with
  | nil => rfl
  | cons n ns ih =>
    cases i with
    | zero => rfl
    | succ i => simp only [tellAll_cons, List.getElem?_cons_succ, List.take_succ_cons, ih]

theorem mem_deliveredKeys {key : String} {outcomes : List (Except EmitError Emitted)} :
    key ∈ Emitted.deliveredKeys outcomes ↔ .ok (.delivered key) ∈ outcomes := by
  unfold Emitted.deliveredKeys
  rw [List.mem_filterMap]
  constructor
  · rintro ⟨outcome, hmem, heq⟩
    split at heq
    · cases heq
      exact hmem
    · cases heq
  · exact fun hmem => ⟨_, hmem, rfl⟩

theorem key_of_tell_delivered {e : Emitter ρ} {disk : σ} {n : Notice} {key : String}
    (h : (e.tell disk n).1 = .ok (.delivered key)) : n.key = key := by
  have htold := told e disk n
  generalize e.tell disk n = t at htold h
  obtain ⟨outcome, e', disk'⟩ := t
  cases htold <;> cases h
  rfl

theorem exists_of_delivered {e : Emitter ρ} {disk : σ} {ns : List Notice} {j : ℕ} {key : String}
    (h : (e.tellAll disk ns).1[j]? = some (.ok (.delivered key))) :
    ∃ m, ns[j]? = some m ∧ m.key = key := by
  rw [getElem?_tellAll] at h
  obtain ⟨m, hm, houtcome⟩ := Option.map_eq_some_iff.1 h
  exact ⟨m, hm, key_of_tell_delivered houtcome⟩

theorem tell_eq_alreadyEmitted_iff {e : Emitter ρ} {disk : σ} {n : Notice} :
    (e.tell disk n).1 = .ok (.alreadyEmitted n.key) ↔
      n.verdict.isRegression = true ∧ n.key ∈ e.ledger.keys := by
  have htold := told e disk n
  generalize e.tell disk n = t at htold
  obtain ⟨outcome, e', disk'⟩ := t
  cases htold <;> simp [*]

/--
From an empty ledger on, an alert is said to have been delivered before exactly if it is of a
regression and an earlier notice ended in the delivery of an alert with its key.
-/
theorem tellAll_eq_alreadyEmitted_iff {e : Emitter ρ} {disk : σ} (hempty : e.ledger.keys = [])
    {ns : List Notice} {i : ℕ} {n : Notice} (hn : ns[i]? = some n) :
    (e.tellAll disk ns).1[i]? = some (.ok (.alreadyEmitted n.key)) ↔
      n.verdict.isRegression = true ∧
        ∃ j m, j < i ∧ ns[j]? = some m ∧ m.key = n.key ∧
          (e.tellAll disk ns).1[j]? = some (.ok (.delivered m.key)) := by
  -- before its turn comes the ledger holds what was delivered for the notices before it
  have hkeys : n.key ∈ (e.tellAll disk (ns.take i)).2.1.ledger.keys ↔
      ∃ j m, j < i ∧ ns[j]? = some m ∧ m.key = n.key ∧
        (e.tellAll disk ns).1[j]? = some (.ok (.delivered m.key)) := by
    rw [ledger_tellAll, hempty, Ledger.mem_insertAll, or_iff_right List.not_mem_nil,
      mem_deliveredKeys, take_tellAll, List.mem_iff_getElem?]
    simp only [List.getElem?_take]
    constructor
    · rintro ⟨j, hj⟩
      split at hj
      · next hlt =>
        obtain ⟨m, hm, hkey⟩ := exists_of_delivered hj
        exact ⟨j, m, hlt, hm, hkey, by rw [hkey]; exact hj⟩
      · cases hj
    · rintro ⟨j, m, hlt, -, hkey, hj⟩
      exact ⟨j, by rw [if_pos hlt, hj, hkey]⟩
  rw [getElem?_tellAll, hn, Option.map_some, Option.some_inj, tell_eq_alreadyEmitted_iff, hkeys]

end Emitter

end BenchHistory
