import BenchHistory.Proofs.History.Outcome
import Mathlib.Data.List.Chain
import Mathlib.Order.Bounds.Basic

/-!
# What every history keeps

A history is built from nothing by adding runs and by noting where the repository is. Whatever
the order of these changes, and whichever of them are refused, the history is `Orderly`
(`Orderly.change`), and it holds one run for each change that was answered as an addition
(`changes_empty`).
-/

namespace BenchHistory

namespace History

/-! ## Changes -/

/-- What can be done to a history. -/
inductive Change where
  | append (tool : String) (r : Run)
  | setRepoUrl (url : String)

/-- The history after a change, made or refused. -/
def change (h : History) : Change → History
  | .append tool r => h.attempt (tool, r)
  | .setRepoUrl url => h.setRepoUrl url

/-- The history after several changes, one after the other. -/
def changes (h : History) (cs : List Change) : History :=
  cs.foldl change h

/-- Whether a change is answered as the addition of a run. -/
def adds (h : History) : Change → Bool
  | .append tool r =>
    match h.answer tool r with
    | .ok a => a.isAdded
    | .error _ => false
  | .setRepoUrl _ => false

/-- How many changes are answered as the addition of a run. -/
def additions (h : History) : List Change → ℕ
  | [] => 0
  | c :: cs => (if h.adds c then 1 else 0) + (h.change c).additions cs

/-- A change adds a run that is well formed, new and not too old, or it leaves all runs alone. -/
theorem change_cases (h : History) (c : Change) :
    (h.adds c = false ∧ (h.change c).entries = h.entries ∧
        (h.change c).lastUpdate = h.lastUpdate) ∨
      ∃ tool r, r.WellFormed tool ∧ ¬ h.Published tool r ∧ ¬ h.Older tool r ∧
        h.adds c = true ∧ h.change c = h.push tool { r with tool := tool } := by
  cases c with
  | append tool r =>
    obtain ⟨hnot, hafter⟩ | ⟨hwf, hpub, hold, hadded, hafter⟩ := attempt_of_answer h tool r
    · have hadds : h.adds (.append tool r) = false := by
        match hanswer : h.answer tool r with
        | .ok (.added i) => exact absurd hanswer (hnot i)
        | .ok (.duplicate i) => simp only [adds, hanswer, Appended.isAdded]
        | .error e => simp only [adds, hanswer]
      exact .inl ⟨hadds, congrArg entries hafter, congrArg lastUpdate hafter⟩
    · refine .inr ⟨tool, r, hwf, hpub, hold, ?_, hafter⟩
      simp only [adds, hadded, Appended.isAdded]
  | setRepoUrl url =>
    have hafter : (h.setRepoUrl url).entries = h.entries ∧
        (h.setRepoUrl url).lastUpdate = h.lastUpdate := by
      unfold setRepoUrl
      split <;> exact ⟨rfl, rfl⟩
    exact .inl ⟨rfl, hafter⟩

/-! ## The invariant -/

/-- What holds of every history that was built from nothing. -/
structure Orderly (h : History) : Prop extends Sound h where
  dates_sorted : ∀ tool, ((h.runs tool).map Run.date).Pairwise (· ≤ ·)
  tool_named : ∀ tool, ∀ r ∈ h.runs tool, r.tool = tool
  tools_used : ∀ tool ∈ h.tools, h.runs tool ≠ []
  latest : IsGreatest (insert 0 {d | ∃ tool, ∃ r ∈ h.runs tool, r.date = d}) h.lastUpdate

theorem orderly_empty (url : String) : (empty url).Orderly where
  toSound := sound_empty url
  dates_sorted := by simp
  tool_named := by simp
  tools_used tool hmem := nomatch hmem
  latest := by
    refine ⟨.inl rfl, ?_⟩
    rintro d (rfl | ⟨tool, r, hr, -⟩)
    · exact le_refl 0
    · cases hr

theorem Orderly.dates_push {h : History} (ho : h.Orderly) {tool : String} {r : Run}
    (hold : ¬ h.Older tool r) : ((h.runs tool ++ [r]).map Run.date).Pairwise (· ≤ ·) := by
  -- only the last date is compared, so the order is passed on as a chain
  rw [← List.isChain_iff_pairwise, List.map_append, List.isChain_append, List.isChain_iff_pairwise]
  refine ⟨ho.dates_sorted tool, List.isChain_singleton _, ?_⟩
  intro d hd e he
  rw [List.getLast?_map] at hd
  obtain ⟨last, hlast, rfl⟩ := Option.mem_map.1 hd
  cases he
  exact not_lt.1 fun hlt => hold ⟨last, hlast, hlt⟩

/-- The runs after a push are those before it and the one that was pushed. -/
theorem exists_mem_runs_push {h : History} {tool : String} {r : Run} {p : Run → Prop} :
    (∃ t, ∃ s ∈ (h.push tool r).runs t, p s) ↔ p r ∨ ∃ t, ∃ s ∈ h.runs t, p s := by
  constructor
  · rintro ⟨t, s, hs, hp⟩
    by_cases hne : t = tool
    · subst hne
      rw [runs_push_self, List.mem_append, List.mem_singleton] at hs
      obtain hs | rfl := hs
      · exact .inr ⟨t, s, hs, hp⟩
      · exact .inl hp
    · rw [runs_push_of_ne h hne] at hs
      exact .inr ⟨t, s, hs, hp⟩
  · rintro (hp | ⟨t, s, hs, hp⟩)
    · refine ⟨tool, r, ?_, hp⟩
      rw [runs_push_self]
      exact List.mem_append_right _ (List.mem_singleton_self r)
    · exact ⟨t, s, (runs_prefix_push h tool t r).subset hs, hp⟩

theorem Orderly.latest_push {h : History} (ho : h.Orderly) (tool : String) (r : Run) :
    IsGreatest (insert 0 {d | ∃ t, ∃ s ∈ (h.push tool r).runs t, s.date = d})
      (max h.lastUpdate r.date) := by
  have hset : {d | ∃ t, ∃ s ∈ (h.push tool r).runs t, s.date = d} =
      insert r.date {d | ∃ t, ∃ s ∈ h.runs t, s.date = d} := by
    ext d
    exact exists_mem_runs_push.trans (or_congr_left eq_comm)
  rw [hset, Set.insert_comm, max_comm]
  exact ho.latest.insert r.date

theorem Orderly.push {h : History} (ho : h.Orderly) {tool : String} {r : Run}
    (hwf : r.WellFormed tool) (htool : r.tool = tool) (hnew : ¬ h.Published tool r)
    (hold : ¬ h.Older tool r) : (h.push tool r).Orderly where
  toSound := ho.toSound.push hwf (position?_eq_none_iff.2 hnew)
  dates_sorted other := by
    by_cases hne : other = tool
    · subst hne
      rw [runs_push_self]
      exact ho.dates_push hold
    · rw [runs_push_of_ne h hne]
      exact ho.dates_sorted other
  tool_named other := by
    by_cases hne : other = tool
    · subst hne
      rw [runs_push_self, List.forall_mem_append, List.forall_mem_singleton]
      exact ⟨ho.tool_named other, htool⟩
    · rw [runs_push_of_ne h hne]
      exact ho.tool_named other
  tools_used other hmem := by
    by_cases hne : other = tool
    · subst hne
      rw [runs_push_self]
      exact List.append_ne_nil_of_right_ne_nil _ (List.cons_ne_nil _ _)
    · rw [runs_push_of_ne h hne]
      refine ho.tools_used other ?_
      rw [tools_push] at hmem
      split at hmem
      · exact hmem
      · exact (List.mem_append.1 hmem).resolve_right fun heq => hne (List.mem_singleton.1 heq)
  latest := ho.latest_push tool r

/-- Only the runs and the time of the latest one count. -/
theorem Orderly.congr {h h' : History} (ho : h.Orderly) (hentries : h'.entries = h.entries)
    (hlast : h'.lastUpdate = h.lastUpdate) : h'.Orderly := by
  have hruns : h'.runs = h.runs := by
    funext tool
    unfold runs
    rw [hentries]
  have htools : h'.tools = h.tools := by
    unfold tools
    rw [hentries]
  refine ⟨⟨?_, ?_⟩, ?_, ?_, ?_, ?_⟩
  · rw [hruns]
    exact ho.wellFormed
  · rw [hruns]
    exact ho.publications_nodup
  · rw [hruns]
    exact ho.dates_sorted
  · rw [hruns]
    exact ho.tool_named
  · rw [htools, hruns]
    exact ho.tools_used
  · rw [hlast, hruns]
    exact ho.latest

theorem Orderly.change {h : History} (ho : h.Orderly) (c : Change) : (h.change c).Orderly := by
  obtain ⟨-, hentries, hlast⟩ | ⟨tool, r, hwf, hpub, hold, -, hafter⟩ := change_cases h c
  · exact ho.congr hentries hlast
  · have hstored := wellFormed_stored hwf
    rw [stored_eq hwf.tool_agrees] at hstored
    rw [hafter]
    exact ho.push hstored rfl hpub hold

theorem Orderly.changes {h : History} (ho : h.Orderly) (cs : List Change) :
    (h.changes cs).Orderly := by
  induction cs generalizing h with
  | nil => exact ho
  | cons c cs ih => exact ih (ho.change c)

/-! ## Counting -/

theorem size_push (h : History) (tool : String) (r : Run) :
    (h.push tool r).size = h.size + 1 :=
  Keyed.length_flatMap_put tool r h.entries

theorem size_change (h : History) (c : Change) :
    (h.change c).size = h.size + if h.adds c then 1 else 0 := by
  obtain ⟨hadds, hentries, -⟩ | ⟨tool, r, -, -, -, hadds, hafter⟩ := change_cases h c
  · unfold size
    rw [hentries, hadds]
    rfl
  · rw [hafter, hadds, size_push]
    rfl

theorem size_changes (h : History) (cs : List Change) :
    (h.changes cs).size = h.size + h.additions cs := by
  induction cs generalizing h with
  | nil => rfl
  | cons c cs ih =>
    have hone := size_change h c
    have hrest := ih (h.change c)
    show ((h.change c).changes cs).size = h.size + ((if h.adds c then 1 else 0) + _)
    omega

/--
Whatever is done to a history that was empty at first: the runs of each tool stand in the order
of their dates, no two of them are of one commit and date, and each of them names the tool, has
no problems and measures no metric twice. Every tool that is listed has a run, the time of the
latest run is the greatest of zero and the dates of all runs, and there are as many runs as were
answered to be added.
-/
theorem changes_empty (url : String) (cs : List Change) :
    let h := (empty url).changes cs
    (∀ tool,
      ((h.runs tool).map Run.date).Pairwise (· ≤ ·) ∧
        ((h.runs tool).map fun r => (r.commit.id, r.date)).Nodup ∧
        (∀ r ∈ h.runs tool,
          r.tool = tool ∧ r.problems tool = [] ∧ (r.benches.map fun s => (s.name, s.extra)).Nodup) ∧
        (tool ∈ h.tools → h.runs tool ≠ [])) ∧
      IsGreatest (insert 0 {d | ∃ tool, ∃ r ∈ h.runs tool, r.date = d}) h.lastUpdate ∧
      h.size = (empty url).additions cs := by
  intro h
  have ho : h.Orderly := (orderly_empty url).changes cs
  refine ⟨fun tool => ⟨ho.dates_sorted tool, ho.publications_nodup tool, fun r hr => ?_,
    ho.tools_used tool⟩, ho.latest, ?_⟩
  · have hwf := ho.wellFormed tool r hr
    exact ⟨ho.tool_named tool r hr, Run.problems_eq_nil_iff.2 hwf, hwf.metrics_nodup⟩
  · have hempty : (empty url).size = 0 := rfl
    rw [size_changes, hempty, Nat.zero_add]

end History

end BenchHistory
