import BenchHistory.Proofs.History.Invariant

/-!
# Adding under different tools

What an attempt under a tool answers and adds depends on the runs of this tool alone
(`attempt_alike`). So two attempts under different tools may change places: both are answered as
before, and the histories differ in the order of the two tools if these are new, and else not at
all (`attempt_comm`). Of any number of attempts those under one tool leave the runs of this tool
as if there were no others (`runs_attempts_filter`).
-/

namespace BenchHistory

namespace History

variable {h h' : History} {t u : String} {r s : Run}

/-! ## Runs of one tool -/

/-- What an attempt answers depends on the runs of its tool alone. -/
theorem answer_congr (hruns : h'.runs t = h.runs t) (r : Run) :
    h'.answer t r = h.answer t r := by
  have hposition : h'.position? t r.publication = h.position? t r.publication := by
    unfold position?
    rw [hruns]
  have hyounger : h'.younger? t r.date = h.younger? t r.date := by
    unfold younger?
    rw [hruns]
  unfold answer append
  rw [hposition, hyounger, hruns]
  split
  · rfl
  split
  · rfl
  split <;> rfl

/-- Two histories with the same runs of a tool both gain a run, or both stay as they are. -/
theorem attempt_alike (hruns : h'.runs t = h.runs t) (r : Run) :
    ((∀ i, h.answer t r ≠ .ok (.added i)) ∧ h.attempt (t, r) = h ∧ h'.attempt (t, r) = h') ∨
      (h.answer t r = .ok (.added (h.runs t).length) ∧
        h.attempt (t, r) = h.push t { r with tool := t } ∧
        h'.attempt (t, r) = h'.push t { r with tool := t }) := by
  have hsame : h'.answer t r = h.answer t r := answer_congr hruns r
  obtain ⟨hnot, hafter⟩ | ⟨-, -, -, hadded, hafter⟩ := attempt_of_answer h t r
  · obtain ⟨-, hafter'⟩ | ⟨-, -, -, hadded', -⟩ := attempt_of_answer h' t r
    · exact .inl ⟨hnot, hafter, hafter'⟩
    · rw [hsame] at hadded'
      exact absurd hadded' (hnot _)
  · obtain ⟨hnot', -⟩ | ⟨-, -, -, -, hafter'⟩ := attempt_of_answer h' t r
    · rw [hsame] at hnot'
      exact absurd hadded (hnot' _)
    · exact .inr ⟨hadded, hafter, hafter'⟩

theorem runs_attempt_of_ne (h : History) (hne : t ≠ u) (r : Run) :
    (h.attempt (u, r)).runs t = h.runs t := by
  obtain heq | ⟨-, -, -, heq⟩ := attempt_cases h (u, r)
  · rw [heq]
  · rw [heq]
    exact runs_push_of_ne h hne _

theorem runs_attempt_congr (hruns : h'.runs t = h.runs t) (r : Run) :
    (h'.attempt (t, r)).runs t = (h.attempt (t, r)).runs t := by
  obtain ⟨-, hafter, hafter'⟩ | ⟨-, hafter, hafter'⟩ := attempt_alike hruns r
  · rw [hafter, hafter', hruns]
  · rw [hafter, hafter', runs_push_self, runs_push_self, hruns]

/-- The runs of a tool are those that the attempts under this tool alone would leave. -/
theorem runs_attempts_filter (hruns : h'.runs t = h.runs t) (cs : List (String × Run)) :
    (h.attempts cs).runs t = (h'.attempts (cs.filter (·.1 = t))).runs t := by
  induction cs generalizing h h' with
  | nil => exact hruns.symm
  | cons c cs ih =>
    obtain ⟨u, r⟩ := c
    by_cases hu : u = t
    · subst hu
      rw [List.filter_cons_of_pos (by simp), attempts_cons, attempts_cons]
      exact ih (runs_attempt_congr hruns r)
    · rw [List.filter_cons_of_neg (by simp [hu]), attempts_cons]
      exact ih (hruns.trans (runs_attempt_of_ne h (Ne.symm hu) r).symm)

/-! ## Two tools -/

/-- Two histories that say the same of every tool and list the tools in some order each. -/
structure Agrees (a b : History) : Prop where
  runs : ∀ tool, a.runs tool = b.runs tool
  tools : a.tools.Perm b.tools
  lastUpdate : a.lastUpdate = b.lastUpdate
  repoUrl : a.repoUrl = b.repoUrl
  other : a.other = b.other
  size : a.size = b.size

theorem agrees_refl (h : History) : h.Agrees h :=
  ⟨fun _ => rfl, List.Perm.refl _, rfl, rfl, rfl, rfl⟩

theorem tools_push_push_of_new (hne : t ≠ u) (ht : t ∉ h.tools) (hu : u ∉ h.tools) (r s : Run) :
    ((h.push t r).push u s).tools = h.tools ++ [t, u] := by
  have hnew : u ∉ h.tools ++ [t] := by simp [hu, hne.symm]
  rw [tools_push, tools_push, if_neg ht, if_neg hnew, List.append_assoc]
  rfl

theorem push_comm (hne : t ≠ u) (hmem : t ∈ h.tools ∨ u ∈ h.tools) (r s : Run) :
    (h.push t r).push u s = (h.push u s).push t r := by
  have hu : (h.push t r).runs u = h.runs u := runs_push_of_ne h hne.symm r
  have ht : (h.push u s).runs t = h.runs t := runs_push_of_ne h hne s
  have hentries : ((h.push t r).push u s).entries = ((h.push u s).push t r).entries := by
    show Keyed.put u ((h.push t r).runs u ++ [s]) (Keyed.put t (h.runs t ++ [r]) h.entries) =
      Keyed.put t ((h.push u s).runs t ++ [r]) (Keyed.put u (h.runs u ++ [s]) h.entries)
    rw [hu, ht]
    exact Keyed.put_comm hne hmem _ _
  have hlast : max (max h.lastUpdate r.date) s.date = max (max h.lastUpdate s.date) r.date := by
    omega
  unfold push at hentries ⊢
  simp only at hentries ⊢
  rw [hentries, hlast]

/-- Two runs that are pushed under different tools may change places. -/
theorem agrees_push_push (h : History) (hne : t ≠ u) (r s : Run) :
    ((h.push t r).push u s).Agrees ((h.push u s).push t r) := by
  by_cases hmem : t ∈ h.tools ∨ u ∈ h.tools
  · rw [push_comm hne hmem]
    exact agrees_refl _
  · obtain ⟨ht, hu⟩ := not_or.1 hmem
    have hlast : max (max h.lastUpdate r.date) s.date = max (max h.lastUpdate s.date) r.date := by
      omega
    refine ⟨fun tool => ?_, ?_, hlast, rfl, rfl, by simp only [size_push]⟩
    · by_cases htool : tool = t
      · subst htool
        rw [runs_push_of_ne _ hne, runs_push_self, runs_push_self, runs_push_of_ne _ hne]
      by_cases htool' : tool = u
      · subst htool'
        rw [runs_push_self, runs_push_of_ne _ htool, runs_push_of_ne _ htool, runs_push_self]
      · simp only [runs_push_of_ne _ htool, runs_push_of_ne _ htool']
    · rw [tools_push_push_of_new hne ht hu, tools_push_push_of_new hne.symm hu ht]
      exact (List.Perm.swap u t []).append_left h.tools

/--
Attempts under two different tools are answered alike in either order, and the histories that they
leave agree. If both runs are the first of their tools, and both are added, the tools stand in the
order of the attempts; otherwise the histories are the same.
-/
theorem attempt_comm (h : History) (hne : t ≠ u) (r s : Run) :
    let a := (h.attempt (t, r)).attempt (u, s)
    let b := (h.attempt (u, s)).attempt (t, r)
    let first := t ∉ h.tools ∧ u ∉ h.tools ∧
      (∃ i, h.answer t r = .ok (.added i)) ∧ ∃ i, h.answer u s = .ok (.added i)
    (h.attempt (u, s)).answer t r = h.answer t r ∧
      (h.attempt (t, r)).answer u s = h.answer u s ∧
      a.Agrees b ∧ (¬ first → a = b) ∧
      (first → a.tools = h.tools ++ [t, u] ∧ b.tools = h.tools ++ [u, t]) := by
  intro a b first
  have ht : (h.attempt (u, s)).runs t = h.runs t := runs_attempt_of_ne h hne s
  have hu : (h.attempt (t, r)).runs u = h.runs u := runs_attempt_of_ne h hne.symm r
  refine ⟨answer_congr ht r, answer_congr hu s, ?_⟩
  obtain ⟨hnot, hr, hr'⟩ | ⟨hr, hpush, hpush'⟩ := attempt_alike ht r
  · -- the first run is not added, so either way the second one alone counts
    have hsame : a = b := by
      show (h.attempt (t, r)).attempt (u, s) = (h.attempt (u, s)).attempt (t, r)
      rw [hr, hr']
    rw [hsame]
    refine ⟨agrees_refl _, fun _ => rfl, ?_⟩
    rintro ⟨-, -, ⟨i, hi⟩, -⟩
    exact absurd hi (hnot i)
  obtain ⟨hnot, hs, hs'⟩ | ⟨hs, hpushed, hpushed'⟩ := attempt_alike hu s
  · have hsame : a = b := by
      show (h.attempt (t, r)).attempt (u, s) = (h.attempt (u, s)).attempt (t, r)
      rw [hs, hs']
    rw [hsame]
    refine ⟨agrees_refl _, fun _ => rfl, ?_⟩
    rintro ⟨-, -, -, i, hi⟩
    exact absurd hi (hnot i)
  · have ha : a = (h.push t { r with tool := t }).push u { s with tool := u } := by
      rw [← hpush]
      exact hpushed'
    have hb : b = (h.push u { s with tool := u }).push t { r with tool := t } := by
      rw [← hpushed]
      exact hpush'
    rw [ha, hb]
    refine ⟨agrees_push_push h hne _ _, fun hold => ?_, ?_⟩
    · apply push_comm hne
      by_contra hnew
      obtain ⟨htools, hutools⟩ := not_or.1 hnew
      exact hold ⟨htools, hutools, ⟨_, hr⟩, _, hs⟩
    · rintro ⟨htools, hutools, -, -⟩
      exact ⟨tools_push_push_of_new hne htools hutools _ _,
        tools_push_push_of_new hne.symm hutools htools _ _⟩

/-- The first runs of two tools beside a third one, the later of them published first. -/
theorem attempt_comm_first_runs :
    let run (id : String) (date : ℤ) : Run :=
      ⟨.ofId id "", date, "", [⟨"m", 1, none, "s", none, []⟩], []⟩
    let h : History := ⟨7, "", [("x", [run "a" 7])], []⟩
    let a := (h.attempt ("t", run "a" 9)).attempt ("u", run "a" 8)
    let b := (h.attempt ("u", run "a" 8)).attempt ("t", run "a" 9)
    "t" ≠ "u" ∧ h.answer "t" (run "a" 9) = .ok (.added 0) ∧
      (h.attempt ("u", run "a" 8)).answer "t" (run "a" 9) = .ok (.added 0) ∧
      a.Agrees b ∧ a.lastUpdate = 9 ∧ a.tools = ["x", "t", "u"] ∧ b.tools = ["x", "u", "t"] := by
  intro run h a b
  have hne : "t" ≠ "u" := by decide
  have ht : h.answer "t" (run "a" 9) = .ok (.added 0) := by
    simp only [h, run]
    rfl
  have hu : h.answer "u" (run "a" 8) = .ok (.added 0) := by
    simp only [h, run]
    rfl
  have hlast : a.lastUpdate = 9 := by
    simp only [a, h, run]
    rfl
  obtain ⟨hanswer, -, hagree, -, hfirst⟩ := attempt_comm h hne (run "a" 9) (run "a" 8)
  have htools := hfirst ⟨by decide, by decide, ⟨0, ht⟩, 0, hu⟩
  exact ⟨hne, ht, hanswer.trans ht, hagree, hlast, htools⟩

end History

end BenchHistory
