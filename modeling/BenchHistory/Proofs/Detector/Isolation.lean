import BenchHistory.Detector.Evaluation
import Mathlib.Data.Int.Notation
import Mathlib.Data.List.Basic

/-!
# Series do not interfere

All series of a tool share its runs. Yet what is said of a metric depends on what the runs show of
that metric alone: their commits and dates, and the value and the unit of its sample
(`Run.shown`). Two histories whose runs show the same of a metric therefore give the same verdict
on it, whatever else they hold (`verdict_of_shown`).
-/

namespace BenchHistory

/-- What a run shows of a metric: its publication, and the value and the unit if it has a sample. -/
def Run.shown (name : String) (extra : Option String) (r : Run) :
    (String × ℤ) × Option (Float × String) :=
  (r.publication, (r.sample? name extra).map fun s => (s.value, s.unit))

variable {name : String} {extra : Option String}

theorem Run.observation?_eq_map_shown (r : Run) (index : ℕ) :
    r.observation? index name extra = (r.shown name extra).2.map fun p =>
      ⟨(r.shown name extra).1.2, (r.shown name extra).1.1, p.1, p.2, index⟩ := by
  unfold observation? shown
  rw [Option.map_map]
  rfl

theorem Run.observation?_eq_of_shown {r r' : Run} (h : r.shown name extra = r'.shown name extra)
    (index : ℕ) : r.observation? index name extra = r'.observation? index name extra := by
  rw [observation?_eq_map_shown, observation?_eq_map_shown, h]

theorem observationsFrom_eq_of_shown {rs rs' : List Run}
    (h : rs.map (Run.shown name extra) = rs'.map (Run.shown name extra)) (index : ℕ) :
    observationsFrom index name extra rs = observationsFrom index name extra rs' := by
  induction rs generalizing rs' index with
  | nil =>
    rw [List.map_nil] at h
    rw [List.map_eq_nil_iff.1 h.symm]
  | cons r rs ih =>
    cases rs' with
    | nil => cases h
    | cons r' rs' =>
      obtain ⟨hfirst, hrest⟩ := List.cons.inj h
      rw [observationsFrom, observationsFrom, Run.observation?_eq_of_shown hfirst, ih hrest]

namespace History

variable {h h' : History} {tool : String}
  (hruns : (h.runs tool).map (Run.shown name extra) = (h'.runs tool).map (Run.shown name extra))

include hruns

theorem queryBefore_eq_of_shown (runIndex : ℕ) :
    h.queryBefore ⟨tool, name, extra⟩ runIndex = h'.queryBefore ⟨tool, name, extra⟩ runIndex := by
  unfold queryBefore
  apply observationsFrom_eq_of_shown
  rw [List.map_take, List.map_take, hruns]

theorem position?_eq_of_shown (publication : String × ℤ) :
    h.position? tool publication = h'.position? tool publication := by
  have hpublications : (h.runs tool).map Run.publication = (h'.runs tool).map Run.publication := by
    have hfst := congrArg (List.map Prod.fst) hruns
    rw [List.map_map, List.map_map] at hfst
    exact hfst
  have hfind : ∀ rs : List Run, rs.findIdx? (fun r => r.publication = publication) =
      (rs.map Run.publication).findIdx? (· = publication) := by
    intro rs
    rw [List.findIdx?_map]
    rfl
  unfold position?
  rw [hfind, hfind, hpublications]

end History

namespace Detector

variable {h h' : History} {tool : String} {r r' : Run} {s s' : Sample}

/-- The verdicts of an evaluation on a metric that the run has one sample of. -/
theorem filter_verdicts (c : Config) (h : History) (tool : String)
    (hs : r.benches.filter (fun s => s.metric = (name, extra)) = [s]) :
    (evaluate c h tool r).verdicts.filter (fun v => v.key = ⟨tool, name, extra⟩) =
      [evaluateSample c h tool r (placeOf h tool r) s] := by
  have hkey : ∀ s : Sample, (s.key tool = ⟨tool, name, extra⟩) = (s.metric = (name, extra)) := by
    intro s
    simp [Sample.key, Sample.metric]
  have hfilter : r.benches.filter ((fun v : SeriesVerdict => decide (v.key = ⟨tool, name, extra⟩)) ∘
      evaluateSample c h tool r (placeOf h tool r)) = [s] := by
    rw [← hs]
    congr 1
    funext s
    exact decide_eq_decide.2 (iff_of_eq (hkey s))
  unfold evaluate
  rw [List.filter_map, hfilter, List.map_singleton]

/--
The verdict on a metric is the same in two histories whose runs show the same of it, for two runs
with the same publication that each have one sample of it, with the same value and unit. The other
samples, the order of the samples and the runs of other tools do not matter.
-/
theorem verdict_of_shown (c : Config)
    (hruns : (h.runs tool).map (Run.shown name extra) =
      (h'.runs tool).map (Run.shown name extra))
    (hpublication : r.publication = r'.publication)
    (hs : r.benches.filter (fun s => s.metric = (name, extra)) = [s])
    (hs' : r'.benches.filter (fun s => s.metric = (name, extra)) = [s'])
    (hvalue : s.value = s'.value) (hunit : s.unit = s'.unit) :
    ∃ v, (evaluate c h tool r).verdicts.filter (fun v => v.key = ⟨tool, name, extra⟩) = [v] ∧
      (evaluate c h' tool r').verdicts.filter (fun v => v.key = ⟨tool, name, extra⟩) = [v] := by
  refine ⟨_, filter_verdicts c h tool hs, ?_⟩
  rw [filter_verdicts c h' tool hs']
  have hplace : placeOf h' tool r' = placeOf h tool r := by
    have hlength := congrArg List.length hruns
    rw [List.length_map, List.length_map] at hlength
    unfold placeOf
    rw [← hpublication, History.position?_eq_of_shown hruns, hlength]
  have hmetric : ∀ {r : Run} {s : Sample},
      r.benches.filter (fun s => s.metric = (name, extra)) = [s] →
        s.key tool = ⟨tool, name, extra⟩ := by
    intro r s hs
    have hmem : s ∈ r.benches.filter (fun s => s.metric = (name, extra)) := by
      rw [hs]
      exact List.mem_singleton_self s
    simpa [Sample.key, Sample.metric] using (List.mem_filter.1 hmem).2
  have hid : r'.commit.id = r.commit.id := congrArg Prod.fst hpublication.symm
  have hdate : r'.date = r.date := congrArg Prod.snd hpublication.symm
  rw [hplace]
  unfold evaluateSample
  simp only [hmetric hs, hmetric hs', hid, hdate, hvalue, hunit,
    History.queryBefore_eq_of_shown hruns]

/-- Other samples before and behind the metric's, with a label or without, and another tool. -/
theorem verdict_of_shown_among_others :
    let m (value : Float) : Sample := ⟨"m", value, none, "s", none, []⟩
    let n (value : Float) : Sample := ⟨"n", value, none, "s", none, []⟩
    let labelled : Sample := ⟨"m", 7, none, "MiB", some "", []⟩
    let run (id : String) (date : ℤ) (benches : List Sample) : Run :=
      ⟨.ofId id "", date, "t", benches, []⟩
    let h : History := ⟨2, "", [("t", [run "a" 1 [m 4, n 1], run "b" 2 [n 1]])], []⟩
    let h' : History := ⟨9, "", [("u", [run "x" 9 [m 1]]),
      ("t", [run "a" 1 [labelled, m 4], run "b" 2 [labelled]])], []⟩
    let r := run "c" 3 [n 2, m 9]
    let r' := run "c" 3 [m 9, labelled]
    (h.runs "t").map (Run.shown "m" none) = (h'.runs "t").map (Run.shown "m" none) ∧
      r.publication = r'.publication ∧
      ∃ v, (evaluate .default h "t" r).verdicts.filter (fun v => v.key = ⟨"t", "m", none⟩) =
          [v] ∧
        (evaluate .default h' "t" r').verdicts.filter (fun v => v.key = ⟨"t", "m", none⟩) =
          [v] := by
  intro m n labelled run h h' r r'
  have hruns : (h.runs "t").map (Run.shown "m" none) = (h'.runs "t").map (Run.shown "m" none) := by
    decide
  have hs : r.benches.filter (fun s => s.metric = ("m", none)) = [m 9] := rfl
  have hs' : r'.benches.filter (fun s => s.metric = ("m", none)) = [m 9] := rfl
  exact ⟨hruns, rfl, verdict_of_shown .default hruns rfl hs hs' rfl rfl⟩

end Detector

end BenchHistory
