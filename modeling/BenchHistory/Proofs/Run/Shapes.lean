import BenchHistory.Proofs.Run.Elements
import BenchHistory.Proofs.Run.Violations

/-!
# Two shapes of a run

A job hands over the output of a harness with a commit, or a complete run. If both say the same
they come to the same run, or to the same problems (`ofHarness_ofRun`): the samples are read alike
but for the name of their list (`samples_under`), and a problem of the run as a whole is none that
was met in reading the samples (`path?_of_mem_problems`).
-/

open scoped List

namespace BenchHistory

namespace Problem

/-- The name of the list in which a problem was met when its samples were read. -/
def path? : Problem → Option String
  | .nameEmpty path _ => some path
  | .samplesInvalid path => some path
  | .sampleInvalid path _ => some path
  | .nameMissing path _ => some path
  | .valueMissing path _ _ => some path
  | .textInvalid path _ _ _ => some path
  | _ => none

/-- The same problem in a list of another name. -/
def under (path : String) : Problem → Problem
  | .nameEmpty _ i => .nameEmpty path i
  | .samplesInvalid _ => .samplesInvalid path
  | .sampleInvalid _ i => .sampleInvalid path i
  | .nameMissing _ i => .nameMissing path i
  | .valueMissing _ i name => .valueMissing path i name
  | .textInvalid _ i field found => .textInvalid path i field found
  | p => p

theorem under_of_path?_eq_none {p : Problem} (h : p.path? = none) (path : String) :
    p.under path = p := by
  cases p <;> first | rfl | cases h

theorem path?_under (p : Problem) (path : String) :
    (p.under path).path? = p.path?.map fun _ => path := by
  cases p <;> rfl

end Problem

/-! ## The problems of a run as a whole -/

namespace Run

variable {tool : String} {r : Run}

/-- No problem of a run whose samples have names was met when its samples were read. -/
theorem path?_of_mem_problems (hnamed : ∀ s ∈ r.benches, Text.allBlank s.name = false)
    {p : Problem} (hp : p ∈ r.problems tool) : p.path? = none := by
  cases mem_problems_iff.1 hp with
  | nameEmpty hs hblank =>
    rw [hnamed _ (List.mem_of_getElem? hs)] at hblank
    cases hblank
  | _ => rfl

theorem map_under_problems (hnamed : ∀ s ∈ r.benches, Text.allBlank s.name = false)
    (path : String) : (r.problems tool).map (Problem.under path) = r.problems tool := by
  have hid : ∀ p ∈ r.problems tool, p.under path = id p := fun p hp =>
    Problem.under_of_path?_eq_none (path?_of_mem_problems hnamed hp) path
  rw [List.map_congr_left hid, List.map_id]

theorem commitIdEmpty_mem_problems_iff :
    .commitIdEmpty ∈ r.problems tool ↔ Text.allBlank r.commit.id = true := by
  rw [mem_problems_iff]
  refine ⟨fun hp => ?_, .commitIdEmpty⟩
  cases hp with
  | commitIdEmpty hblank => exact hblank

end Run

/-! ## Reading samples -/

namespace Ingest

/-- What was found in a list of another name. -/
def Found.under {α : Type} (path : String) (f : Found α) : Found α :=
  (f.1, f.2.map (Problem.under path))

variable (path path' : String) (index : ℕ)

theorem optionalText_under (ms : List (String × Json)) (field : String) :
    optionalText ms field path' index = (optionalText ms field path index).under path' := by
  unfold optionalText
  split <;> rfl

theorem nameOf_under (ms : List (String × Json)) :
    nameOf ms path' index = (nameOf ms path index).under path' := by
  unfold nameOf
  split
  · split <;> rfl
  · rfl

theorem valueOf_under (ms : List (String × Json)) (name : String) :
    valueOf ms path' index name = (valueOf ms path index name).under path' := by
  unfold valueOf
  split <;> rfl

theorem sample_under (j : Json) :
    sample path' index j = (sample path index j).under path' := by
  cases j with
  | object ms =>
    unfold sample
    simp only [optionalText_under path path' index, nameOf_under path path' index,
      valueOf_under path path' index, Found.under, ← List.map_append, List.map_eq_nil_iff]
    split <;> rfl
  | _ => rfl

theorem samplesFrom_under (js : List Json) :
    samplesFrom path' index js = (samplesFrom path index js).under path' := by
  induction js generalizing index with
  | nil => rfl
  | cons j js ih =>
    unfold samplesFrom
    simp only [sample_under path path' index, ih, Found.under, List.map_append]

/-- Samples are read alike in lists of different names. -/
theorem samples_under (j : Json) : samples path' j = (samples path j).under path' := by
  cases j with
  | array js => exact samplesFrom_under path path' 0 js
  | _ => rfl

variable {path index}

theorem path?_of_mem_samples {j : Json} {p : Problem} (hp : p ∈ (samples path j).2) :
    p.path? = some path := by
  cases j with
  | array js =>
    obtain ⟨i, j, -, rule, -, hbreach⟩ := mem_samples_iff.1 hp
    cases hbreach <;> rfl
  | _ =>
    rw [List.mem_singleton.1 hp]
    rfl

theorem named_of_mem_samples {j : Json} {s : Sample} (hs : s ∈ (samples path j).1) :
    Text.allBlank s.name = false := by
  cases j with
  | array js =>
    have hread : List.Forall₂ ReadAs (js.filter readable) (samples path (.array js)).1 :=
      forall₂_samples
    obtain ⟨i, hi, rfl⟩ := List.getElem_of_mem hs
    have hi' : i < (js.filter readable).length := by rwa [hread.length_eq]
    exact (hread.get hi' hi).named (List.mem_filter.1 (List.getElem_mem hi')).2
  | _ => cases hs

/-! ## Both shapes -/

/-- Problems of the run as a whole go behind those that were met before. -/
theorem addProblems_eq {ps : List Problem} (hnodup : ps.Nodup) (found : List Problem) :
    addProblems found ps = found ++ ps.filter (· ∉ found) := by
  induction ps generalizing found with
  | nil => simp [addProblems]
  | cons p ps ih =>
    obtain ⟨hp, hnodup⟩ := List.nodup_cons.1 hnodup
    unfold addProblems
    by_cases hmem : p ∈ found
    · rw [if_pos hmem, ih hnodup, List.filter_cons_of_neg (by simp [hmem])]
    · have hsame : ps.filter (· ∉ found ++ [p]) = ps.filter (· ∉ found) := by
        refine List.filter_congr fun q hq => ?_
        have hne : q ≠ p := fun heq => hp (heq ▸ hq)
        simp [hne]
      rw [if_neg hmem, ih hnodup, hsame, List.filter_cons_of_pos (by simp [hmem]),
        List.append_assoc, List.singleton_append]

variable {tool : String} {r : Run}

/-- It does not matter which problems of the run as a whole were met before. -/
theorem addProblems_perm {early late : List Problem} (hnodup : early.Nodup)
    (hearly : ∀ p ∈ early, p ∈ r.problems tool) (hlate : ∀ p ∈ late, p ∉ r.problems tool) :
    addProblems (early ++ late) (r.problems tool) ~ r.problems tool ++ late := by
  have hfilter : (r.problems tool).filter (· ∉ early ++ late) =
      (r.problems tool).filter (· ∉ early) := by
    refine List.filter_congr fun p hp => ?_
    have hne : p ∉ late := fun hmem => hlate p hmem hp
    simp [hne]
  have hwhole : early ++ (r.problems tool).filter (· ∉ early) ~ r.problems tool := by
    refine (List.perm_ext_iff_of_nodup ?_ (Run.nodup_problems tool r)).2 fun p => ?_
    · refine List.nodup_append'.2 ⟨hnodup, (Run.nodup_problems tool r).filter _, ?_⟩
      intro p hp hfiltered
      simp [hp] at hfiltered
    · by_cases hp : p ∈ early
      · simp [hp, hearly p hp]
      · simp [hp]
  rw [addProblems_eq (Run.nodup_problems tool r), hfilter, List.append_assoc]
  calc early ++ (late ++ (r.problems tool).filter (· ∉ early))
      _ ~ early ++ ((r.problems tool).filter (· ∉ early) ++ late) :=
        List.perm_append_comm.append_left early
      _ = early ++ (r.problems tool).filter (· ∉ early) ++ late := by rw [List.append_assoc]
      _ ~ r.problems tool ++ late := hwhole.append_right late

/-- The same problems are told when the samples were read from a list of another name. -/
theorem addProblems_under (path : String) {early found : List Problem}
    (hnamed : ∀ s ∈ r.benches, Text.allBlank s.name = false) (hnodup : early.Nodup)
    (hearly : ∀ p ∈ early, p ∈ r.problems tool) (hfound : ∀ p ∈ found, p.path? = some path)
    (path' : String) :
    (addProblems (early ++ found) (r.problems tool)).map (Problem.under path') ~
      addProblems (found.map (Problem.under path')) (r.problems tool) := by
  have hread : ∀ p, p.path?.isSome → p ∉ r.problems tool := by
    intro p hsome hmem
    rw [Run.path?_of_mem_problems hnamed hmem] at hsome
    cases hsome
  have hfirst : addProblems (early ++ found) (r.problems tool) ~ r.problems tool ++ found :=
    addProblems_perm hnodup hearly fun p hp => hread p (by rw [hfound p hp]; rfl)
  have hsecond : addProblems ([] ++ found.map (Problem.under path')) (r.problems tool) ~
      r.problems tool ++ found.map (Problem.under path') := by
    refine addProblems_perm List.nodup_nil (fun p hp => by cases hp) ?_
    intro q hq
    obtain ⟨p, hp, rfl⟩ := List.mem_map.1 hq
    exact hread _ (by rw [Problem.path?_under, hfound p hp]; rfl)
  calc (addProblems (early ++ found) (r.problems tool)).map (Problem.under path')
      _ ~ (r.problems tool ++ found).map (Problem.under path') := hfirst.map _
      _ = r.problems tool ++ found.map (Problem.under path') := by
        rw [List.map_append, Run.map_under_problems hnamed]
      _ ~ addProblems (found.map (Problem.under path')) (r.problems tool) := hsecond.symm

theorem finish_eq (tool : String) (r : Run) (found : List Problem) :
    finish tool r found = if addProblems found (r.problems tool) = [] then .ok r
      else .error (addProblems found (r.problems tool)) := by
  unfold finish
  split <;> simp_all

/-- The complete run that says what a commit, a date and the output of a harness say. -/
def complete (tool : String) (date : ℤ) (commit : Commit) (output : Json) : Json :=
  .object [("commit", commit.toJson), ("date", .int date), ("tool", .string tool),
    ("benches", output)]

theorem ofRun_complete {date : ℤ} (hpositive : 0 < date) (hsmall : date < 2 ^ 63) {c : Commit}
    (hc : c.Valid) (tool : String) (now : ℤ) (output : Json) :
    ofRun tool now (complete tool date c output) =
      finish tool ⟨c, date, tool, (samples "benches" output).1, []⟩
        (samples "benches" output).2 := by
  have hcommit : commitOf [("commit", c.toJson), ("date", .int date), ("tool", .string tool),
      ("benches", output)] = (c, []) := by
    unfold commitOf
    simp [Keyed.get?, Commit.decode_toJson hc]
  have hdate : dateOf now [("commit", c.toJson), ("date", .int date), ("tool", .string tool),
      ("benches", output)] = (date, []) := by
    unfold dateOf
    simp [Keyed.get?, Json.int, hpositive]
    omega
  unfold complete ofRun
  simp only [hcommit, hdate]
  rfl

/--
The output of a harness with a commit, and the complete run that says the same, come to the same
run, or to the same problems in some order but for the name of the list of samples.
-/
theorem ofHarness_ofRun (tool : String) {date : ℤ} (hpositive : 0 < date)
    (hsmall : date < 2 ^ 63) {c : Commit}
    (hc : (∃ text, Decode.read Commit.decode text = .ok c) ∨
      ∃ j : Json, j.Valid ∧ Commit.decode j.toDraft = .ok c)
    (output : Json) (now : ℤ) :
    (∃ r, ofHarness tool date c output = .ok r ∧
      ofRun tool now (complete tool date c output) = .ok r) ∨
    ∃ ps qs, ofHarness tool date c output = .error ps ∧
      ofRun tool now (complete tool date c output) = .error qs ∧
      ps.map (Problem.under "benches") ~ qs := by
  obtain ⟨benches, found, hread⟩ : ∃ benches found, samples "output" output = (benches, found) :=
    ⟨_, _, rfl⟩
  have hread' : samples "benches" output = (benches, found.map (Problem.under "benches")) := by
    rw [samples_under "output" "benches", hread]
    rfl
  let r : Run := ⟨c, date, tool, benches, []⟩
  let early : List Problem := listIf (Text.allBlank c.id) .commitIdEmpty
  have hharness : ofHarness tool date c output = finish tool r (early ++ found) := by
    unfold ofHarness
    rw [hread]
  have hrun : ofRun tool now (complete tool date c output) =
      finish tool r (found.map (Problem.under "benches")) := by
    rw [ofRun_complete hpositive hsmall (Commit.valid_of_read hc), hread']
  have hsame : (addProblems (early ++ found) (r.problems tool)).map (Problem.under "benches") ~
      addProblems (found.map (Problem.under "benches")) (r.problems tool) := by
    refine addProblems_under "output" ?_ ?_ ?_ ?_ "benches"
    · exact fun s hs => named_of_mem_samples (by rw [hread]; exact hs)
    · unfold early listIf
      split_ifs <;> simp
    · intro p hp
      obtain ⟨hblank, rfl⟩ := mem_listIf.1 hp
      exact Run.commitIdEmpty_mem_problems_iff.2 hblank
    · exact fun p hp => path?_of_mem_samples (by rw [hread]; exact hp)
  rw [hharness, hrun, finish_eq, finish_eq]
  by_cases hfine : addProblems (early ++ found) (r.problems tool) = []
  · rw [hfine] at hsame
    exact .inl ⟨r, if_pos hfine, if_pos hsame.nil_eq.symm⟩
  · have hfails : addProblems (found.map (Problem.under "benches")) (r.problems tool) ≠ [] := by
      intro hnil
      rw [hnil] at hsame
      exact hfine (List.map_eq_nil_iff.1 hsame.eq_nil)
    exact .inr ⟨_, _, if_neg hfine, if_neg hfails, hsame⟩

/-- A blank commit id is told first with a harness, and behind the samples with a complete run. -/
theorem ofHarness_ofRun_malformed :
    let commit := Json.object [("id", .string " "), ("message", .string "")]
    let output := Json.array [.object [("name", .string "m"), ("value", .null)]]
    let told (path : String) : Problem := .valueMissing path 0 "m"
    (commit.Valid ∧ Commit.decode commit.toDraft = .ok (.ofId " " "")) ∧
      ofHarness "t" 1000 (.ofId " " "") output =
        .error [.commitIdEmpty, told "output", .benchesEmpty] ∧
      ∃ qs, ofRun "t" 0 (complete "t" 1000 (.ofId " " "") output) = .error qs ∧
        [.commitIdEmpty, told "benches", .benchesEmpty] ~ qs := by
  intro commit output told
  have hvalid : commit.Valid := by
    refine .object (by decide) fun e he => ?_
    obtain rfl | rfl : e = ("id", .string " ") ∨ e = ("message", .string "") := by simpa using he
    · exact .string " "
    · exact .string ""
  have hcommit : Commit.decode commit.toDraft = .ok (.ofId " " "") := rfl
  have hharness : ofHarness "t" 1000 (.ofId " " "") output =
      .error [.commitIdEmpty, told "output", .benchesEmpty] := rfl
  refine ⟨⟨hvalid, hcommit⟩, hharness, ?_⟩
  have hpositive : (0 : ℤ) < 1000 := by decide
  obtain ⟨r, hok, -⟩ | ⟨ps, qs, hfails, hrun, hsame⟩ :=
    ofHarness_ofRun "t" hpositive (by decide) (.inr ⟨commit, hvalid, hcommit⟩) output 0
  · rw [hharness] at hok
    cases hok
  · rw [hharness] at hfails
    cases hfails
    exact ⟨qs, hrun, hsame⟩

end Ingest

end BenchHistory
