import BenchHistory.Run.Problem
import Mathlib.Data.List.Nodup

/-!
# Runs without problems

`WellFormed` says what a run has to be for `Run.problems` to find nothing
(`problems_eq_nil_iff`).
-/

namespace BenchHistory

theorem listIf_eq_nil_iff {α : Type} {c : Prop} [Decidable c] {a : α} :
    listIf c a = [] ↔ ¬ c := by
  unfold listIf
  split <;> simp_all

theorem mem_listIf {α : Type} {c : Prop} [Decidable c] {a b : α} :
    b ∈ listIf c a ↔ c ∧ b = a := by
  unfold listIf
  split <;> simp_all

namespace Sample

/-- Samples with a name and a finite value, none of which repeats a metric that was seen. -/
theorem problemsFrom_eq_nil_iff {index : ℕ} {seen : List (String × Option String)}
    {samples : List Sample} :
    problemsFrom index seen samples = [] ↔
      (∀ s ∈ samples, Text.allBlank s.name = false ∧ s.value.isFinite = true) ∧
        (samples.map metric).Nodup ∧ ∀ s ∈ samples, s.metric ∉ seen := by
  induction samples generalizing index seen with
  | nil => simp [problemsFrom]
  | cons s rest ih =>
    simp only [problemsFrom, problems, List.append_eq_nil_iff, listIf_eq_nil_iff, ih,
      Bool.not_eq_true, Bool.not_eq_false, List.map_cons, List.nodup_cons, List.mem_map,
      List.forall_mem_cons, not_exists, not_and]
    simp only [List.mem_cons, not_or]
    constructor
    · rintro ⟨⟨⟨hname, hvalue⟩, hnew⟩, hrest, hnodup, hseen⟩
      exact ⟨⟨⟨hname, hvalue⟩, hrest⟩, ⟨fun t ht => (hseen t ht).1, hnodup⟩, hnew,
        fun t ht => (hseen t ht).2⟩
    · rintro ⟨⟨⟨hname, hvalue⟩, hrest⟩, ⟨hfirst, hnodup⟩, hnew, hseen⟩
      exact ⟨⟨⟨hname, hvalue⟩, hnew⟩, hrest, hnodup, fun t ht => ⟨hfirst t ht, hseen t ht⟩⟩

end Sample

namespace Run

/-- What a run has to be to be stored under a tool. -/
structure WellFormed (tool : String) (r : Run) : Prop where
  tool_named : Text.allBlank tool = false
  tool_agrees : r.tool = "" ∨ r.tool = tool
  commit_named : Text.allBlank r.commit.id = false
  measured : r.benches ≠ []
  samples_named : ∀ s ∈ r.benches, Text.allBlank s.name = false
  finite : ∀ s ∈ r.benches, s.value.isFinite = true
  metrics_nodup : (r.benches.map Sample.metric).Nodup

theorem problems_eq_nil_iff {tool : String} {r : Run} :
    r.problems tool = [] ↔ r.WellFormed tool := by
  simp only [problems, List.append_eq_nil_iff, listIf_eq_nil_iff, Sample.problemsFrom_eq_nil_iff,
    Bool.not_eq_true, not_and, Decidable.not_not, List.not_mem_nil, not_false_eq_true]
  constructor
  · rintro ⟨⟨⟨⟨htool, hagree⟩, hid⟩, hne⟩, hsamples, hnodup, -⟩
    exact ⟨htool, Classical.or_iff_not_imp_left.2 hagree, hid, hne,
      fun s hs => (hsamples s hs).1, fun s hs => (hsamples s hs).2, hnodup⟩
  · rintro ⟨htool, hagree, hid, hne, hnamed, hfinite, hnodup⟩
    exact ⟨⟨⟨⟨htool, Classical.or_iff_not_imp_left.1 hagree⟩, hid⟩, hne⟩,
      fun s hs => ⟨hnamed s hs, hfinite s hs⟩, hnodup, fun _ _ => trivial⟩

theorem WellFormed.sample?_metric {tool : String} {r : Run} (h : r.WellFormed tool) {s : Sample}
    (hs : s ∈ r.benches) : r.sample? s.name s.extra = some s := by
  obtain ⟨t, ht⟩ : ∃ t, r.sample? s.name s.extra = some t :=
    Option.isSome_iff_exists.1 (List.find?_isSome.2 ⟨s, hs, by simp [Sample.metric]⟩)
  have hmetric : t.metric = s.metric := by simpa [Sample.metric] using List.find?_some ht
  have hmem : t ∈ r.benches := List.mem_of_find?_eq_some ht
  rw [ht, List.inj_on_of_nodup_map h.metrics_nodup hmem hs hmetric]

end Run

end BenchHistory
