import BenchHistory.Proofs.Run.Shapes

/-!
# The output of a harness

A run comes of the output of a harness if the output is a list of elements that keep the rules and
tell different metrics, and if tool and commit are named. The run has the elements for samples, one
for one and in their order. Otherwise every broken rule is told with the place of its element
(`ofHarness_grammar`).
-/

namespace BenchHistory.Ingest

/-! ## Problems of the parts and of the whole -/

section

variable {tool : String} {r : Run} {found ps : List Problem} {p : Problem}

theorem mem_addProblems_iff :
    p ∈ addProblems found (r.problems tool) ↔ p ∈ found ∨ p ∈ r.problems tool := by
  rw [addProblems_eq (Run.nodup_problems tool r)]
  simp only [List.mem_append, List.mem_filter, decide_eq_true_eq]
  tauto

theorem finish_eq_ok_iff {r' : Run} :
    finish tool r found = .ok r' ↔ r' = r ∧ found = [] ∧ r.WellFormed tool := by
  have hnone : addProblems found (r.problems tool) = [] ↔ found = [] ∧ r.WellFormed tool := by
    rw [addProblems_eq (Run.nodup_problems tool r), List.append_eq_nil_iff,
      ← Run.problems_eq_nil_iff]
    refine and_congr_right fun hfound => ?_
    simp [hfound]
  rw [finish_eq, ← hnone]
  split
  · next h => simp [h, eq_comm]
  · next h => simp [h]

theorem mem_of_finish_error (h : finish tool r found = .error ps) :
    p ∈ ps ↔ p ∈ found ∨ p ∈ r.problems tool := by
  rw [finish_eq] at h
  split at h
  · cases h
  · cases h
    exact mem_addProblems_iff

end

/-! ## What is accepted -/

/-- What has to be handed over for a run to come of it. -/
structure Accepted (tool : String) (commit : Commit) (output : Json) : Prop where
  tool_named : Text.allBlank tool = false
  commit_named : Text.allBlank commit.id = false
  elements : ∃ js, output = .array js ∧ js ≠ [] ∧
    (∀ j ∈ js, ∀ rule ∈ rules, rule.kept j = true) ∧ (js.map metricOf).Nodup

variable {tool : String} {date : ℤ} {commit : Commit} {output : Json} {js : List Json}

theorem ofHarness_eq (tool : String) (date : ℤ) (commit : Commit) (output : Json) :
    ofHarness tool date commit output =
      finish tool ⟨commit, date, tool, (samples "output" output).1, []⟩
        (listIf (Text.allBlank commit.id) .commitIdEmpty ++ (samples "output" output).2) := rfl

theorem accepted_of_ofHarness {r : Run} (h : ofHarness tool date commit output = .ok r) :
    Accepted tool commit output ∧ ∃ js, output = .array js ∧ List.Forall₂ ReadAs js r.benches := by
  rw [ofHarness_eq, finish_eq_ok_iff, List.append_eq_nil_iff] at h
  obtain ⟨rfl, ⟨-, hnone⟩, hwell⟩ := h
  obtain ⟨js, rfl, hall, hread⟩ := forall₂_of_samples hnone
  have hne : js ≠ [] := by
    rintro rfl
    exact hwell.measured (List.forall₂_nil_left_iff.1 hread)
  exact ⟨⟨hwell.tool_named, hwell.commit_named, js, rfl, hne,
    fun j hj => readable_iff.1 (hall j hj), (nodup_metrics_iff hread).1 hwell.metrics_nodup⟩,
    js, rfl, hread⟩

theorem Accepted.exists_run (houtput : output.Valid) (h : Accepted tool commit output)
    (date : ℤ) : ∃ r, ofHarness tool date commit output = .ok r := by
  obtain ⟨js, rfl, hne, hkept, hnodup⟩ := h.elements
  have hnone : (samples "output" (.array js)).2 = [] :=
    snd_samplesFrom_eq_nil_iff.2 fun j hj => readable_iff.2 (hkept j hj)
  obtain ⟨_, ⟨⟩, -, hread⟩ := forall₂_of_samples hnone
  have hmeasured : (samples "output" (.array js)).1 ≠ [] := by
    intro hnil
    rw [hnil] at hread
    exact hne (List.forall₂_nil_right_iff.1 hread)
  have hnamed : ∀ s ∈ (samples "output" (.array js)).1, Text.allBlank s.name = false :=
    fun s hs => named_of_mem_samples hs
  refine ⟨_, finish_eq_ok_iff.2 ⟨rfl, ?_, ?_⟩⟩
  · rw [List.append_eq_nil_iff, listIf_eq_nil_iff, h.commit_named]
    exact ⟨Bool.false_ne_true, hnone⟩
  · exact {
      tool_named := h.tool_named
      tool_agrees := .inr rfl
      commit_named := h.commit_named
      measured := hmeasured
      samples_named := hnamed
      finite := fun s hs => (valid_of_mem_samples houtput s hs).finite
      metrics_nodup := (nodup_metrics_iff hread).2 hnodup }

/--
The output of a harness is taken in if and only if it is as described by `Accepted`. The samples of
the run then are its elements, one for one and in their order. If it is refused then for every rule
that an element breaks a problem is told that is of this rule alone and has the element's place.
-/
theorem ofHarness_grammar (tool : String) (date : ℤ) (commit : Commit) {output : Json}
    (houtput : output.Valid) :
    ((∃ r, ofHarness tool date commit output = .ok r) ↔ Accepted tool commit output) ∧
    (∀ r, ofHarness tool date commit output = .ok r →
      r.commit = commit ∧ r.date = date ∧ r.tool = tool ∧ r.other = [] ∧
        ∃ js, output = .array js ∧ List.Forall₂ ReadAs js r.benches) ∧
    ∀ ps, ofHarness tool date commit output = .error ps →
      ∀ js, output = .array js → ∀ i j, js[i]? = some j →
        ∀ rule ∈ rules, rule.kept j = false →
          ∃ p ∈ ps, ∀ rule', Breach "output" i j rule' p ↔ rule' = rule := by
  refine ⟨⟨?_, fun h => h.exists_run houtput date⟩, fun r h => ?_, ?_⟩
  · rintro ⟨r, h⟩
    exact (accepted_of_ofHarness h).1
  · obtain rfl := eq_of_finish h
    exact ⟨rfl, rfl, rfl, rfl, (accepted_of_ofHarness h).2⟩
  · rintro ps h js rfl i j hj rule hrule hbroken
    obtain ⟨p, hp⟩ := exists_breach_iff.2 hbroken
    have htold : p ∈ (samples "output" (.array js)).2 :=
      mem_samples_iff.2 ⟨i, j, hj, rule, hrule, hp⟩
    refine ⟨p, ?_, fun rule' => ⟨fun hp' => hp.rule_eq hp' rfl, ?_⟩⟩
    · exact (mem_of_finish_error h).2 (.inl (List.mem_append_right _ htold))
    · rintro rfl
      exact hp

/-- The same name with and without a label; and a name that is missing. -/
theorem ofHarness_grammar_labels :
    let plain := Json.object [("name", .string "m"), ("value", .int 1), ("unit", .null)]
    let labelled := Json.object [("name", .string "m"), ("value", .int 2), ("extra", .string "x")]
    let unnamed := Json.object [("value", .int 3)]
    (Json.array [plain, labelled]).Valid ∧ (Json.array [plain, unnamed]).Valid ∧
      (∃ r, ofHarness "t" 1000 (.ofId "c" "") (.array [plain, labelled]) = .ok r ∧
        r.tool = "t" ∧ List.Forall₂ ReadAs [plain, labelled] r.benches) ∧
      ∃ ps, ofHarness "t" 1000 (.ofId "c" "") (.array [plain, unnamed]) = .error ps ∧
        ∃ p ∈ ps, ∀ rule, Breach "output" 1 unnamed rule p ↔ rule = .name := by
  intro plain labelled unnamed
  have hint (n : ℤ) (hlow : -2 ^ 63 ≤ n) (hhigh : n < 2 ^ 64) : (Json.int n).Valid :=
    .number ⟨hlow, hhigh⟩
  have hplain : plain.Valid := by
    refine .object (by decide) ?_
    simp only [List.forall_mem_cons]
    exact ⟨.string "m", hint 1 (by decide) (by decide), .null, by simp⟩
  have hlabelled : labelled.Valid := by
    refine .object (by decide) ?_
    simp only [List.forall_mem_cons]
    exact ⟨.string "m", hint 2 (by decide) (by decide), .string "x", by simp⟩
  have hunnamed : unnamed.Valid := by
    refine .object (by decide) ?_
    simp only [List.forall_mem_cons]
    exact ⟨hint 3 (by decide) (by decide), by simp⟩
  have hvalid : (Json.array [plain, labelled]).Valid := .array (by simp [hplain, hlabelled])
  have hvalid' : (Json.array [plain, unnamed]).Valid := .array (by simp [hplain, hunnamed])
  refine ⟨hvalid, hvalid', ?_, ?_⟩
  · obtain ⟨haccepted, hrun, -⟩ := ofHarness_grammar "t" 1000 (.ofId "c" "") hvalid
    obtain ⟨r, hr⟩ := haccepted.2 ⟨by decide, by decide, _, rfl, by simp, by decide, by
      simp [metricOf, plain, labelled, present, Json.get?, Keyed.get?]⟩
    obtain ⟨-, -, htool, -, js, ⟨⟩, hread⟩ := hrun r hr
    exact ⟨r, hr, htool, hread⟩
  · obtain ⟨haccepted, -, hrefused⟩ := ofHarness_grammar "t" 1000 (.ofId "c" "") hvalid'
    cases hps : ofHarness "t" 1000 (.ofId "c" "") (.array [plain, unnamed]) with
    | ok r =>
      obtain ⟨-, -, js, ⟨⟩, -, hkept, -⟩ := haccepted.1 ⟨r, hps⟩
      exact absurd (hkept unnamed (by simp) .name (by decide)) (by decide)
    | error ps => exact ⟨ps, rfl, hrefused ps hps _ rfl 1 unnamed rfl .name (by decide) rfl⟩

end BenchHistory.Ingest
