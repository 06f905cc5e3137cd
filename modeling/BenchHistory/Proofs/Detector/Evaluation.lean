import BenchHistory.Detector.Evaluation
import BenchHistory.Proofs.Detector.Replay
import BenchHistory.Proofs.History.Series

/-!
# Evaluation and replay

A run is evaluated against the runs before its place only. So it is the same whether the run is
about to be stored, was just stored or has long been stored (`evaluate_of_extends`), and each
verdict is the one that a replay of the whole series gives at that place.
-/

namespace BenchHistory.Detector

variable (c : Config)

theorem placeOf_of_position? {h : History} {tool : String} {r : Run} {i : ℕ}
    (hpos : h.position? tool r.publication = some i) : placeOf h tool r = i := by
  unfold placeOf
  rw [hpos, Option.getD_some]

/-- Runs behind the place of a run do not count. -/
theorem evaluate_of_extends {h h' : History} {tool : String} {r : Run}
    (hext : h.runs tool <+: h'.runs tool) (hplace : placeOf h' tool r = placeOf h tool r)
    (hle : placeOf h tool r ≤ (h.runs tool).length) :
    evaluate c h' tool r = evaluate c h tool r := by
  have hsame : ∀ s : Sample, evaluateSample c h' tool r (placeOf h tool r) s =
      evaluateSample c h tool r (placeOf h tool r) s := by
    intro s
    have hbefore := History.queryBefore_of_extends (k := s.key tool) hext hle
    simp only [evaluateSample, hbefore]
  unfold evaluate
  rw [hplace, List.map_congr_left fun s _ => hsame s]

theorem placeOf_congr {h h' : History} {tool : String}
    (hruns : h'.runs tool = h.runs tool) (r : Run) : placeOf h' tool r = placeOf h tool r := by
  unfold placeOf History.position?
  rw [hruns]

theorem evaluate_congr {h h' : History} {tool : String}
    (hruns : h'.runs tool = h.runs tool) (r : Run) :
    evaluate c h' tool r = evaluate c h tool r := by
  unfold evaluate evaluateSample
  simp only [placeOf_congr hruns, History.queryBefore, Sample.key, hruns]

theorem evaluate_push {h : History} {tool : String} {r q : Run}
    (hpos : h.position? tool r.publication = none) (hq : q.publication = r.publication) :
    evaluate c (h.push tool q) tool r = evaluate c h tool r := by
  have hbefore : placeOf h tool r = (h.runs tool).length := by
    unfold placeOf
    rw [hpos, Option.getD_none]
  have hpushed : (h.push tool q).position? tool r.publication = some (h.runs tool).length := by
    rw [← hq] at hpos ⊢
    exact History.position?_push hpos
  refine evaluate_of_extends c (History.runs_prefix_push h tool tool q) ?_ hbefore.le
  rw [placeOf_of_position? hpushed, hbefore]

/-- The verdict on a sample of a stored run, next to the replay of its series. -/
theorem evaluateSample_eq_replay {h : History} {tool : String} {i : ℕ} {r : Run} {s : Sample}
    (hr : (h.runs tool)[i]? = some r) (hs : r.sample? s.name s.extra = some s) :
    let k := s.key tool
    let n := ((h.runs tool).take i).countP (Run.measures k)
    (h.query k)[n]? = some (evaluateSample c h tool r i s).observation ∧
      (replay c k.tool (h.query k)).1[n]? = some (evaluateSample c h tool r i s).verdict := by
  intro k n
  have hquery := History.query_eq_of_getElem? (k := k) hr hs
  have hlen : (h.queryBefore k i).length = n := length_observationsFrom 0 k _
  rw [hquery, ← hlen]
  refine ⟨?_, ?_⟩
  · rw [List.getElem?_append_right le_rfl, Nat.sub_self]
    rfl
  · rw [getElem?_replay]
    rfl

/--
Each verdict on a run of a history that was built from nothing is the verdict that the replay of
the whole series gives at the run's observation.
-/
theorem verdicts_eq_replay (url : String) (cs : List (String × Run)) {tool : String} {i j : ℕ}
    {r : Run} {s : Sample}
    (hr : (((History.empty url).attempts cs).runs tool)[i]? = some r)
    (hs : r.benches[j]? = some s) :
    let h := (History.empty url).attempts cs
    let k := s.key tool
    let n := ((h.runs tool).take i).countP (Run.measures k)
    ∃ v, (evaluate c h tool r).verdicts[j]? = some v ∧ v.key = k ∧
      (h.query k)[n]? = some v.observation ∧
        (replay c k.tool (h.query k)).1[n]? = some v.verdict := by
  intro h k n
  have hsound : h.Sound := (History.sound_empty url).attempts cs
  have hplace : placeOf h tool r = i :=
    placeOf_of_position? (hsound.position?_of_getElem? hr)
  have hsample : r.sample? s.name s.extra = some s :=
    (hsound.wellFormed tool r (List.mem_of_getElem? hr)).sample?_metric (List.mem_of_getElem? hs)
  obtain ⟨hobs, hverdict⟩ := evaluateSample_eq_replay c hr hsample
  refine ⟨evaluateSample c h tool r i s, ?_, rfl, hobs, hverdict⟩
  unfold evaluate
  rw [hplace, List.getElem?_map, hs, Option.map_some]

/-- A run with two samples, the second of which continues a series. -/
theorem verdicts_eq_replay_second_run :
    let first : Run := ⟨.ofId "a" "", 1, "t", [⟨"m", 1, none, "s", none, []⟩], []⟩
    let second : Run := ⟨.ofId "b" "", 2, "t",
      [⟨"n", 1, none, "", none, []⟩, ⟨"m", 2, none, "s", none, []⟩], []⟩
    let h := (History.empty "").attempts [("t", first), ("u", second), ("t", second)]
    let k : SeriesKey := ⟨"t", "m", none⟩
    let n := ((h.runs "t").take 1).countP (Run.measures k)
    (h.runs "t")[1]? = some second ∧ second.benches[1]? = some ⟨"m", 2, none, "s", none, []⟩ ∧
      ∃ v, (evaluate .default h "t" second).verdicts[1]? = some v ∧ v.key = k ∧
        (h.query k)[n]? = some v.observation ∧
          (replay .default "t" (h.query k)).1[n]? = some v.verdict := by
  intro first second h k n
  have hr : (h.runs "t")[1]? = some second := by
    simp only [h, first, second]
    rfl
  exact ⟨hr, rfl, verdicts_eq_replay .default "" _ (j := 1) hr rfl⟩

/--
A run that was added has the evaluation that it had before it was added, whatever is added later.
-/
theorem evaluate_attempts_of_added {h h' : History} {tool : String} {r : Run} {i : ℕ}
    (hadd : h.append tool r = .ok (.added i, h')) (later : List (String × Run)) :
    evaluate c h' tool r = evaluate c h tool r ∧
      evaluate c (h'.attempts later) tool r = evaluate c h tool r := by
  obtain ⟨-, hpos, -, -, rfl⟩ := History.append_eq_added_iff.1 hadd
  have hbefore : placeOf h tool r = (h.runs tool).length := by
    unfold placeOf
    rw [hpos, Option.getD_none]
  have hpushed : (h.push tool (History.stored tool r)).position? tool r.publication =
      some (h.runs tool).length := by
    rw [← History.publication_stored tool r] at hpos ⊢
    exact History.position?_push hpos
  have hpush := History.runs_prefix_push h tool tool (History.stored tool r)
  have hlater := History.runs_prefix_attempts (h.push tool (History.stored tool r)) later tool
  refine ⟨?_, ?_⟩
  · refine evaluate_of_extends c hpush ?_ hbefore.le
    rw [placeOf_of_position? hpushed, hbefore]
  · refine evaluate_of_extends c (hpush.trans hlater) ?_ hbefore.le
    rw [placeOf_of_position? (History.position?_of_extends hlater hpushed), hbefore]

/-- A second run, evaluated before it is added, then again, and behind later runs. -/
theorem evaluate_attempts_of_second_run :
    let first : Run := ⟨.ofId "a" "", 1, "t", [⟨"m", 1, none, "s", none, []⟩], []⟩
    let second : Run := ⟨.ofId "b" "", 2, "t", [⟨"m", 2, none, "s", none, []⟩], []⟩
    let h := (History.empty "").attempt ("t", first)
    let h' := h.push "t" second
    let later := [("t", second), ("t", { second with date := 3 }), ("u", first)]
    h.append "t" second = .ok (.added 1, h') ∧
      evaluate .default h' "t" second = evaluate .default h "t" second ∧
        evaluate .default (h'.attempts later) "t" second = evaluate .default h "t" second := by
  intro first second h h' later
  have hadd : h.append "t" second = .ok (.added 1, h') := by
    simp only [h', h, first, second]
    rfl
  exact ⟨hadd, evaluate_attempts_of_added .default hadd later⟩

end BenchHistory.Detector
