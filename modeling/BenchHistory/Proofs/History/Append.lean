import BenchHistory.History.Series
import BenchHistory.Keyed
import BenchHistory.Proofs.Run.Problems
import Mathlib.Data.List.Infix

/-!
# Adding runs

An attempt to add a run either changes nothing or pushes the run (`attempt_cases`). From this
follow what any sequence of attempts keeps: the runs of a tool only grow at the end
(`runs_prefix_attempts`), a publication stays where it was first found
(`position?_of_extends`), and a history that was built from nothing is `Sound`.
-/

namespace BenchHistory.History

/-- The history after an attempt to add a run under a tool, added or not. -/
def attempt (h : History) (c : String × Run) : History :=
  match h.append c.1 c.2 with
  | .ok (_, h') => h'
  | .error _ => h

/-- The history after several attempts, one after the other. -/
def attempts (h : History) (cs : List (String × Run)) : History :=
  cs.foldl attempt h

@[simp] theorem attempts_nil (h : History) : h.attempts [] = h := rfl

@[simp] theorem attempts_cons (h : History) (c : String × Run) (cs : List (String × Run)) :
    h.attempts (c :: cs) = (h.attempt c).attempts cs := rfl

/-! ## One push -/

@[simp] theorem runs_empty (url tool : String) : (empty url).runs tool = [] := rfl

@[simp] theorem runs_push_self (h : History) (tool : String) (r : Run) :
    (h.push tool r).runs tool = h.runs tool ++ [r] := by
  unfold push
  simp only [runs, Keyed.get?_put_self, Option.getD_some]

theorem runs_push_of_ne (h : History) {tool other : String} (hne : other ≠ tool) (r : Run) :
    (h.push tool r).runs other = h.runs other := by
  unfold push
  simp only [runs, Keyed.get?_put_of_ne hne]

@[simp] theorem publication_stored (tool : String) (r : Run) :
    (stored tool r).publication = r.publication := by
  unfold stored
  split <;> rfl

@[simp] theorem benches_stored (tool : String) (r : Run) :
    (stored tool r).benches = r.benches := by
  unfold stored
  split <;> rfl

theorem tool_stored {tool : String} {r : Run} (h : r.tool = "" ∨ r.tool = tool) :
    (stored tool r).tool = tool := by
  unfold stored
  split
  · rfl
  · next hne => exact h.resolve_left hne

theorem wellFormed_stored {tool : String} {r : Run} (h : r.WellFormed tool) :
    (stored tool r).WellFormed tool where
  tool_named := h.tool_named
  tool_agrees := .inr (tool_stored h.tool_agrees)
  commit_named := by
    have hid : (stored tool r).commit.id = r.commit.id :=
      congrArg Prod.fst (publication_stored tool r)
    rw [hid]
    exact h.commit_named
  measured := by rw [benches_stored]; exact h.measured
  samples_named := by rw [benches_stored]; exact h.samples_named
  finite := by rw [benches_stored]; exact h.finite
  metrics_nodup := by rw [benches_stored]; exact h.metrics_nodup

/-! ## One attempt -/

/-- What it takes for a run to be added, and what is then done. -/
theorem append_eq_added_iff {h h' : History} {tool : String} {r : Run} {i : ℕ} :
    h.append tool r = .ok (.added i, h') ↔
      r.WellFormed tool ∧ h.position? tool r.publication = none ∧
        h.younger? tool r.date = none ∧ i = (h.runs tool).length ∧
          h' = h.push tool (stored tool r) := by
  rw [← Run.problems_eq_nil_iff]
  unfold append
  split
  · next hp => simp [hp]
  · next hp =>
    split
    · next hpos => simp [hpos]
    · next hpos =>
      split
      · next hyoung => simp [hyoung]
      · next hyoung => simp [hp, hpos, hyoung, eq_comm]

/-- An attempt changes nothing, or it pushes a well-formed run that was not published before. -/
theorem attempt_cases (h : History) (c : String × Run) :
    h.attempt c = h ∨
      (c.2.WellFormed c.1 ∧ h.position? c.1 c.2.publication = none ∧
        h.younger? c.1 c.2.date = none ∧ h.attempt c = h.push c.1 (stored c.1 c.2)) := by
  unfold attempt
  match happ : h.append c.1 c.2 with
  | .error _ => exact .inl rfl
  | .ok (.added i, h') =>
    obtain ⟨hwf, hpos, hyoung, -, rfl⟩ := append_eq_added_iff.1 happ
    exact .inr ⟨hwf, hpos, hyoung, rfl⟩
  | .ok (.duplicate i, h') =>
    refine .inl ?_
    unfold append at happ
    split at happ
    · cases happ
    · split at happ
      · cases happ
        rfl
      · split at happ <;> cases happ

theorem runs_prefix_push (h : History) (tool other : String) (r : Run) :
    h.runs other <+: (h.push tool r).runs other := by
  by_cases hne : other = tool
  · subst hne
    rw [runs_push_self]
    exact List.prefix_append _ _
  · rw [runs_push_of_ne h hne]

theorem runs_prefix_attempt (h : History) (c : String × Run) (tool : String) :
    h.runs tool <+: (h.attempt c).runs tool := by
  obtain heq | ⟨-, -, -, heq⟩ := attempt_cases h c
  · rw [heq]
  · rw [heq]
    exact runs_prefix_push h c.1 tool _

/-! ## Any number of attempts -/

/-- The runs of a tool stay, in their order, at the start of the list. -/
theorem runs_prefix_attempts (h : History) (cs : List (String × Run)) (tool : String) :
    h.runs tool <+: (h.attempts cs).runs tool := by
  induction cs generalizing h with
  | nil => exact List.prefix_refl _
  | cons c cs ih => exact (runs_prefix_attempt h c tool).trans (ih (h.attempt c))

/-- The place of a publication is the first one, so runs that come later do not change it. -/
theorem position?_of_extends {h h' : History} {tool : String} {p : String × ℤ} {i : ℕ}
    (hext : h.runs tool <+: h'.runs tool) (hpos : h.position? tool p = some i) :
    h'.position? tool p = some i := by
  obtain ⟨later, hlater⟩ := hext
  unfold position? at hpos ⊢
  rw [← hlater, List.findIdx?_append, hpos, Option.some_or]

theorem position?_push {h : History} {tool : String} {r : Run}
    (hpos : h.position? tool r.publication = none) :
    (h.push tool r).position? tool r.publication = some (h.runs tool).length := by
  unfold position? at hpos ⊢
  rw [runs_push_self, List.findIdx?_append, hpos]
  simp

/-! ## Histories built from nothing -/

/-- What holds of a history to which runs were added one by one. -/
structure Sound (h : History) : Prop where
  wellFormed : ∀ tool, ∀ r ∈ h.runs tool, r.WellFormed tool
  publications_nodup : ∀ tool, ((h.runs tool).map Run.publication).Nodup

theorem sound_empty (url : String) : (empty url).Sound where
  wellFormed := by simp
  publications_nodup := by simp

theorem Sound.push {h : History} (hs : h.Sound) {tool : String} {r : Run}
    (hwf : r.WellFormed tool) (hpos : h.position? tool r.publication = none) :
    (h.push tool r).Sound where
  wellFormed other := by
    by_cases hne : other = tool
    · subst hne
      rw [runs_push_self, List.forall_mem_append, List.forall_mem_singleton]
      exact ⟨hs.wellFormed other, hwf⟩
    · rw [runs_push_of_ne h hne]
      exact hs.wellFormed other
  publications_nodup other := by
    by_cases hne : other = tool
    · subst hne
      have hnew : ∀ s ∈ h.runs other, s.publication ≠ r.publication := by
        simpa [position?, List.findIdx?_eq_none_iff] using hpos
      rw [runs_push_self, List.map_append, List.map_singleton, List.nodup_append]
      refine ⟨hs.publications_nodup other, List.nodup_singleton _, ?_⟩
      simpa using fun s hmem => hnew s hmem
    · rw [runs_push_of_ne h hne]
      exact hs.publications_nodup other

theorem Sound.attempt {h : History} (hs : h.Sound) (c : String × Run) : (h.attempt c).Sound := by
  obtain heq | ⟨hwf, hpos, -, heq⟩ := attempt_cases h c
  · rw [heq]
    exact hs
  · rw [heq]
    exact hs.push (wellFormed_stored hwf) (by rw [publication_stored]; exact hpos)

theorem Sound.attempts {h : History} (hs : h.Sound) (cs : List (String × Run)) :
    (h.attempts cs).Sound := by
  induction cs generalizing h with
  | nil => exact hs
  | cons c cs ih => exact ih (hs.attempt c)

theorem Sound.position?_of_getElem? {h : History} (hs : h.Sound) {tool : String} {i : ℕ} {r : Run}
    (hr : (h.runs tool)[i]? = some r) : h.position? tool r.publication = some i := by
  obtain ⟨hi, rfl⟩ := List.getElem?_eq_some_iff.1 hr
  unfold position?
  rw [List.findIdx?_eq_some_iff_getElem]
  refine ⟨hi, by simp, fun j hj => ?_⟩
  intro heq
  have hsame : ((h.runs tool).map Run.publication)[j]? =
      ((h.runs tool).map Run.publication)[i]? := by
    simpa [List.getElem?_eq_getElem hi, List.getElem?_eq_getElem (hj.trans hi)] using heq
  have hji : j = i :=
    (List.getElem?_inj (by simpa using hj.trans hi) (hs.publications_nodup tool)).1 hsame
  omega

end BenchHistory.History
