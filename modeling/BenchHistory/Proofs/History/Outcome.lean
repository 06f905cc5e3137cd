import BenchHistory.Proofs.History.Append

/-!
# What adding a run does

The checks of `append` come in a fixed order, and there is one equation for each way that they
can end (`append_of_problems`, `append_of_position`, `append_of_younger`, `append_of_new`). From
these follow which outcome an attempt has and what it changes, for any history whatsoever
(`append_outcome`), and that a run once added is a duplicate for ever
(`append_again_of_added`).
-/

namespace BenchHistory.History

variable {h : History} {tool : String} {r : Run}

theorem attempts_append (h : History) (earlier later : List (String × Run)) :
    h.attempts (earlier ++ later) = (h.attempts earlier).attempts later :=
  List.foldl_append

/-! ## The checks -/

/-- Whether a run of the tool has the commit and the date of the given one. -/
def Published (h : History) (tool : String) (r : Run) : Prop :=
  ∃ s ∈ h.runs tool, s.publication = r.publication

/-- Whether the tool's last run is younger than the given one. -/
def Older (h : History) (tool : String) (r : Run) : Prop :=
  ∃ last ∈ (h.runs tool).getLast?, r.date < last.date

theorem position?_eq_none_iff : h.position? tool r.publication = none ↔ ¬ h.Published tool r := by
  unfold position? Published
  simp [List.findIdx?_eq_none_iff]

theorem exists_position?_iff :
    (∃ i, h.position? tool r.publication = some i) ↔ h.Published tool r := by
  rw [← Option.isSome_iff_exists, ← not_iff_not, Option.not_isSome_iff_eq_none,
    position?_eq_none_iff]

theorem younger?_eq_none_iff : h.younger? tool r.date = none ↔ ¬ h.Older tool r := by
  unfold younger? Older
  simp [Option.filter_eq_none_iff]

/-! ## The outcomes -/

theorem append_of_problems (hp : r.problems tool ≠ []) :
    h.append tool r = .error (.malformed (r.problems tool)) := by
  unfold append
  split
  · next p ps heq => rw [heq]
  · next hnil => exact absurd hnil hp

theorem append_of_position {i : ℕ} (hp : r.problems tool = [])
    (hpos : h.position? tool r.publication = some i) :
    h.append tool r = .ok (.duplicate i, h) := by
  unfold append
  simp only [hp, hpos]

theorem append_of_younger {last : Run} (hp : r.problems tool = [])
    (hpos : h.position? tool r.publication = none) (hlast : h.younger? tool r.date = some last) :
    h.append tool r = .error (.outOfOrder tool r.commit.id r.date last.date) := by
  unfold append
  simp only [hp, hpos, hlast]

/-- A run that is neither malformed nor published before nor too old is added. -/
theorem append_of_new (hp : r.problems tool = [])
    (hpos : h.position? tool r.publication = none) (hlast : h.younger? tool r.date = none) :
    h.append tool r = .ok (.added (h.runs tool).length, h.push tool (stored tool r)) := by
  unfold append
  simp only [hp, hpos, hlast]

/-- Every run meets one of the four outcomes. -/
theorem append_cases (h : History) (tool : String) (r : Run) :
    (r.problems tool ≠ [] ∧
        h.append tool r = .error (.malformed (r.problems tool))) ∨
      (r.problems tool = [] ∧ h.Published tool r ∧
        ∃ i, h.append tool r = .ok (.duplicate i, h)) ∨
      (r.problems tool = [] ∧ ¬ h.Published tool r ∧ h.Older tool r ∧
        ∃ date, h.append tool r = .error (.outOfOrder tool r.commit.id r.date date)) ∨
      (r.problems tool = [] ∧ ¬ h.Published tool r ∧ ¬ h.Older tool r ∧
        h.append tool r = .ok (.added (h.runs tool).length, h.push tool (stored tool r))) := by
  by_cases hp : r.problems tool = []
  · by_cases hpub : h.Published tool r
    · obtain ⟨i, hpos⟩ := exists_position?_iff.2 hpub
      exact .inr (.inl ⟨hp, hpub, i, append_of_position hp hpos⟩)
    · have hpos := position?_eq_none_iff.2 hpub
      match hlast : h.younger? tool r.date with
      | some last =>
        have hold : h.Older tool r := by
          by_contra hold
          rw [younger?_eq_none_iff.2 hold] at hlast
          cases hlast
        exact .inr (.inr (.inl ⟨hp, hpub, hold, _, append_of_younger hp hpos hlast⟩))
      | none =>
        have hold := younger?_eq_none_iff.1 hlast
        exact .inr (.inr (.inr ⟨hp, hpub, hold, append_of_new hp hpos hlast⟩))
  · exact .inl ⟨hp, append_of_problems hp⟩

/-! ## The effect -/

theorem stored_eq (hagree : r.tool = "" ∨ r.tool = tool) :
    stored tool r = { r with tool := tool } := by
  unfold stored
  split
  · rfl
  · next hne => rw [← hagree.resolve_left hne]

theorem tools_push (h : History) (tool : String) (r : Run) :
    (h.push tool r).tools = if tool ∈ h.tools then h.tools else h.tools ++ [tool] := by
  unfold push tools
  split
  · next hmem => exact Keyed.keys_put_of_mem hmem _
  · next hnew =>
    rw [Keyed.put_of_not_mem hnew]
    exact List.map_append

theorem attempt_of_error {e : AppendError} (happ : h.append tool r = .error e) :
    h.attempt (tool, r) = h := by
  unfold attempt
  simp only [happ]

theorem attempt_of_ok {a : Appended} {h' : History} (happ : h.append tool r = .ok (a, h')) :
    h.attempt (tool, r) = h' := by
  unfold attempt
  simp only [happ]

/-- What an attempt answers. -/
def answer (h : History) (tool : String) (r : Run) : Except AppendError Appended :=
  (h.append tool r).map Prod.fst

theorem answer_eq_malformed_iff :
    (∃ ps, h.answer tool r = .error (.malformed ps)) ↔ r.problems tool ≠ [] := by
  unfold answer
  obtain ⟨hp, happ⟩ | ⟨hp, -, i, happ⟩ | ⟨hp, -, -, date, happ⟩ | ⟨hp, -, -, happ⟩ :=
    append_cases h tool r <;> simp [happ, hp, Except.map]

theorem answer_eq_duplicate_iff :
    (∃ i, h.answer tool r = .ok (.duplicate i)) ↔ r.problems tool = [] ∧ h.Published tool r := by
  unfold answer
  obtain ⟨hp, happ⟩ | ⟨hp, hpub, i, happ⟩ | ⟨hp, hpub, -, date, happ⟩ | ⟨hp, hpub, -, happ⟩ :=
    append_cases h tool r <;> simp [*, Except.map]

theorem answer_eq_outOfOrder_iff :
    (∃ t id date last, h.answer tool r = .error (.outOfOrder t id date last)) ↔
      r.problems tool = [] ∧ ¬ h.Published tool r ∧ h.Older tool r := by
  unfold answer
  obtain ⟨hp, happ⟩ | ⟨hp, hpub, i, happ⟩ | ⟨hp, hpub, hold, date, happ⟩ | ⟨hp, hpub, hold, happ⟩ :=
    append_cases h tool r <;> simp [*, Except.map]

/-- A run is answered to be added where it is pushed, and nothing else changes a history. -/
theorem attempt_of_answer (h : History) (tool : String) (r : Run) :
    ((∀ i, h.answer tool r ≠ .ok (.added i)) ∧ h.attempt (tool, r) = h) ∨
      (r.WellFormed tool ∧ ¬ h.Published tool r ∧ ¬ h.Older tool r ∧
        h.answer tool r = .ok (.added (h.runs tool).length) ∧
        h.attempt (tool, r) = h.push tool { r with tool := tool }) := by
  unfold answer
  obtain ⟨-, happ⟩ | ⟨-, -, i, happ⟩ | ⟨-, -, -, date, happ⟩ | ⟨hp, hpub, hold, happ⟩ :=
    append_cases h tool r
  · exact .inl ⟨by simp [happ, Except.map], attempt_of_error happ⟩
  · exact .inl ⟨by simp [happ, Except.map], attempt_of_ok happ⟩
  · exact .inl ⟨by simp [happ, Except.map], attempt_of_error happ⟩
  · have hwf := Run.problems_eq_nil_iff.1 hp
    rw [stored_eq hwf.tool_agrees] at happ
    exact .inr ⟨hwf, hpub, hold, by simp [happ, Except.map], attempt_of_ok happ⟩

/--
What an attempt to add a run answers, and what it does to the history. The checks come in a fixed
order: problems, an earlier publication, a younger last run. Unless the run is added nothing
changes. If it is, it stands behind the tool's runs and names its tool, and the rest is as it
was but for the time of the latest run. So the runs of each tool only grow at their end.
-/
theorem append_outcome (h : History) (tool : String) (r : Run) :
    let outcome := h.answer tool r
    let after := h.attempt (tool, r)
    let published := ∃ s ∈ h.runs tool, s.commit.id = r.commit.id ∧ s.date = r.date
    let older := ∃ last ∈ (h.runs tool).getLast?, r.date < last.date
    ((∃ ps, outcome = .error (.malformed ps)) ↔ r.problems tool ≠ []) ∧
      ((∃ i, outcome = .ok (.duplicate i)) ↔ r.problems tool = [] ∧ published) ∧
      ((∃ t id date last, outcome = .error (.outOfOrder t id date last)) ↔
        r.problems tool = [] ∧ ¬ published ∧ older) ∧
      ((∀ i, outcome ≠ .ok (.added i)) → after = h) ∧
      (∀ i, outcome = .ok (.added i) →
        i = (h.runs tool).length ∧ (r.tool = "" ∨ r.tool = tool) ∧
          after.runs tool = h.runs tool ++ [{ r with tool := tool }] ∧
          (∀ other, other ≠ tool → after.runs other = h.runs other) ∧
          after.tools = (if tool ∈ h.tools then h.tools else h.tools ++ [tool]) ∧
          after.repoUrl = h.repoUrl ∧ after.other = h.other ∧
          after.lastUpdate = max h.lastUpdate r.date) ∧
      ∀ earlier later other, (h.attempts earlier).runs other <+:
        (h.attempts (earlier ++ later)).runs other := by
  intro outcome after published older
  have hpublished : published ↔ h.Published tool r := by
    unfold Published Run.publication
    simp only [Prod.mk.injEq, published]
  rw [hpublished]
  refine ⟨answer_eq_malformed_iff, answer_eq_duplicate_iff, answer_eq_outOfOrder_iff, ?_, ?_, ?_⟩
  · intro hnot
    obtain ⟨-, hafter⟩ | ⟨-, -, -, hadded, -⟩ := attempt_of_answer h tool r
    · exact hafter
    · exact absurd hadded (hnot _)
  · intro i hi
    obtain ⟨hnot, -⟩ | ⟨hwf, -, -, hadded, hafter⟩ := attempt_of_answer h tool r
    · exact absurd hi (hnot i)
    · have hindex : i = (h.runs tool).length := by
        rw [show outcome = _ from hadded] at hi
        cases hi
        rfl
      rw [show after = _ from hafter]
      exact ⟨hindex, hwf.tool_agrees, runs_push_self h tool _,
        fun other hne => runs_push_of_ne h hne _, tools_push h tool _, rfl, rfl, rfl⟩
  · intro earlier later other
    rw [attempts_append]
    exact runs_prefix_attempts _ later other

/-! ## Publishing again -/

theorem position?_of_added {h' : History} {i : ℕ} (hadd : h.append tool r = .ok (.added i, h')) :
    h'.position? tool r.publication = some i := by
  obtain ⟨-, hpos, -, rfl, rfl⟩ := append_eq_added_iff.1 hadd
  have hfound : (h.push tool (stored tool r)).position? tool (stored tool r).publication =
      some (h.runs tool).length := by
    apply position?_push
    rw [publication_stored]
    exact hpos
  rwa [publication_stored] at hfound

theorem position?_attempts {p : String × ℤ} {i : ℕ} (hpos : h.position? tool p = some i)
    (later : List (String × Run)) : (h.attempts later).position? tool p = some i :=
  position?_of_extends (runs_prefix_attempts h later tool) hpos

/--
A run that has been added is found where it was added, whatever is tried later. Any run of its
commit and date is then a duplicate of it, however old it is: the history stays as it is.
-/
theorem append_again_of_added {h' : History} {i : ℕ} (hadd : h.append tool r = .ok (.added i, h'))
    (later : List (String × Run)) :
    (h'.attempts later).position? tool (r.commit.id, r.date) = some i ∧
      ∀ again : Run, again.problems tool = [] → again.commit.id = r.commit.id →
        again.date = r.date →
          (h'.attempts later).append tool again = .ok (.duplicate i, h'.attempts later) := by
  have hpos : (h'.attempts later).position? tool r.publication = some i :=
    position?_attempts (position?_of_added hadd) later
  refine ⟨hpos, ?_⟩
  intro again hp hid hdate
  apply append_of_position hp
  have hsame : again.publication = r.publication := Prod.ext hid hdate
  rw [hsame]
  exact hpos

/--
A history whose dates are out of order, with one publication in it twice. A run is added, a younger
one too, and then the first comes again with other values: it is older than the last by now.
-/
theorem append_again_of_added_out_of_order :
    let run (id : String) (date : ℤ) (value : Float) : Run :=
      ⟨.ofId id "", date, "t", [⟨"m", value, none, "s", none, []⟩], []⟩
    let h : History := ⟨7, "", [("t", [run "a" 7 1, run "b" 3 1, run "b" 3 2])], []⟩
    let h' := h.push "t" (run "c" 4 1)
    let later := [("t", run "a" 2 1), ("t", run "d" 9 1), ("u", run "c" 4 1)]
    h.append "t" (run "c" 4 1) = .ok (.added 3, h') ∧
      (h'.attempts later).younger? "t" 4 = some (run "d" 9 1) ∧
        (h'.attempts later).position? "t" ("c", 4) = some 3 ∧
          (run "c" 4 5).problems "t" = [] ∧
            (h'.attempts later).append "t" (run "c" 4 5) =
              .ok (.duplicate 3, h'.attempts later) := by
  intro run h h' later
  have hadd : h.append "t" (run "c" 4 1) = .ok (.added 3, h') := by
    simp only [h', h, run]
    rfl
  have hyounger : (h'.attempts later).younger? "t" 4 = some (run "d" 9 1) := by
    simp only [later, h', h, run]
    rfl
  have hp : (run "c" 4 5).problems "t" = [] := by
    simp only [run]
    rfl
  obtain ⟨hpos, hagain⟩ := append_again_of_added hadd later
  exact ⟨hadd, hyounger, hpos, hp, hagain _ hp rfl rfl⟩

end BenchHistory.History
