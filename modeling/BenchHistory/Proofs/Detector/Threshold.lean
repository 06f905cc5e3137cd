import BenchHistory.Proofs.Detector.Replay
import BenchHistory.Proofs.Float.Order
import Mathlib.Data.List.Forall2

/-!
# Raising the threshold

The threshold decides between a regression and a nominal verdict and nothing else, and these two
leave the same window. So detectors that differ only in the threshold hold the same windows all
along, and the one with the greater threshold finds fewer regressions
(`replay_of_threshold_le`). Of the arithmetic it matters only that sums and differences are rounded
in order.
-/

namespace BenchHistory.Detector

theorem Config.isFinite_threshold {c : Config} (hc : c.problem? = none) :
    c.threshold.isFinite = true := by
  unfold problem? at hc
  split_ifs at hc with _ hbad _
  rw [not_or, Bool.not_eq_false] at hbad
  exact hbad.1

theorem Config.threshold_pos {c : Config} (hc : c.problem? = none) : 0 < c.threshold := by
  obtain ⟨a, ha⟩ := Binary64.exists_value? (isFinite_threshold hc)
  unfold problem? at hc
  split_ifs at hc with _ hbad _
  rw [not_or] at hbad
  exact Binary64.lt_of_not_le ha Binary64.value?_zero hbad.2

/-! ## One verdict -/

/-- What becomes of a verdict under a greater threshold: a regression may be excused. -/
inductive Relaxed : Verdict → Verdict → Prop
  | same (v : Verdict) : Relaxed v v
  | excused (ratio mean : Float) : Relaxed (.regression ratio mean) (.nominal ratio mean)

theorem Relaxed.eq_regression {v : Verdict} {ratio mean : Float}
    (h : Relaxed v (.regression ratio mean)) : v = .regression ratio mean := by
  cases h
  rfl

/-- Excusing a regression does not change the window. -/
theorem Relaxed.apply_eq {v v' : Verdict} (h : Relaxed v v') (w : Window) (o : Observation) :
    w.apply o v' = w.apply o v := by
  cases h <;> rfl

theorem getElem?_of_relaxed {vs vs' : List Verdict} (h : List.Forall₂ Relaxed vs vs') {i : ℕ}
    {ratio mean : Float} (hflagged : vs'[i]? = some (.regression ratio mean)) :
    vs[i]? = some (.regression ratio mean) := by
  induction h generalizing i with
  | nil => exact hflagged
  | cons hv _ ih =>
    cases i with
    | zero =>
      rw [List.getElem?_cons_zero, Option.some_inj] at hflagged ⊢
      rw [hflagged] at hv
      exact hv.eq_regression
    | succ i => exact ih hflagged

section

variable {t t' : Float} (ht : t.isFinite = true) (ht' : t'.isFinite = true) (hle : t ≤ t')
  (direction : Direction)

include ht ht' hle

theorem beyond_of_le {ratio : Float} (hbeyond : beyond direction t' ratio = true) :
    beyond direction t ratio = true := by
  unfold beyond at hbeyond ⊢
  cases direction with
  | smallerIsBetter =>
    rw [decide_eq_true_iff] at hbeyond ⊢
    exact Binary64.lt_of_le_of_lt (Binary64.add_le_add_left rfl ht ht' hle) hbeyond
  | biggerIsBetter =>
    rw [decide_eq_true_iff] at hbeyond ⊢
    exact Binary64.lt_of_lt_of_le hbeyond (Binary64.sub_le_sub_left rfl ht ht' hle)

theorem relaxed_compare (value mean : Float) :
    Relaxed (compare direction t value mean) (compare direction t' value mean) := by
  unfold compare
  split
  · exact .same _
  split
  · exact .same _
  by_cases hloose : beyond direction t' (value / mean) = true
  · simp only [hloose, beyond_of_le ht ht' hle direction hloose]
    exact .same _
  · by_cases hstrict : beyond direction t (value / mean) = true
    · simp only [hloose, hstrict]
      exact .excused _ _
    · simp only [hloose, hstrict]
      exact .same _

end

section

variable {c : Config} {t : Float} (hc : c.problem? = none)
  (ht : { c with threshold := t }.problem? = none) (hle : c.threshold ≤ t)

include hc ht hle

/-- By the same window the greater threshold can only excuse. -/
theorem relaxed_judge (tool : String) (o : Observation) (w : List Observation) :
    Relaxed (judge c tool o w) (judge { c with threshold := t } tool o w) := by
  have hgap : ∀ previous, gap? { c with threshold := t } previous o = gap? c previous o :=
    fun _ => rfl
  unfold judge
  simp only [hgap]
  -- the threshold is read by the comparison alone
  split
  · exact .same _
  split
  · exact .same _
  split
  · exact .same _
  split
  · exact .same _
  split
  · exact .same _
  split
  · exact .same _
  exact relaxed_compare (Config.isFinite_threshold hc) (Config.isFinite_threshold ht) hle _ _ _

/-! ## A replay -/

theorem replayFrom_relaxed (tool : String) (w : Window) (history : List Observation) :
    (replayFrom { c with threshold := t } tool w history).2 = (replayFrom c tool w history).2 ∧
      List.Forall₂ Relaxed (replayFrom c tool w history).1
        (replayFrom { c with threshold := t } tool w history).1 := by
  induction history generalizing w with
  | nil => exact ⟨rfl, .nil⟩
  | cons o os ih =>
    have hjudge := relaxed_judge hc ht hle tool o w.observations
    obtain ⟨hwindow, hverdicts⟩ := ih (w.apply o (judge c tool o w.observations))
    simp only [replayFrom]
    rw [hjudge.apply_eq]
    exact ⟨hwindow, .cons hjudge hverdicts⟩

/--
Under a greater threshold the windows before each observation and at the end are the same. Each
verdict stays or is a regression that becomes nominal, of the same ratio to the same mean. So what
is still a regression was one before.
-/
theorem replay_of_threshold_le (tool : String) (history : List Observation) :
    let looser : Config := { c with threshold := t }
    (∀ n, (replay looser tool (history.take n)).2 = (replay c tool (history.take n)).2) ∧
      (replay looser tool history).2 = (replay c tool history).2 ∧
      List.Forall₂ Relaxed (replay c tool history).1 (replay looser tool history).1 ∧
      ∀ (i : ℕ) (ratio mean : Float),
        (replay looser tool history).1[i]? = some (.regression ratio mean) →
          (replay c tool history).1[i]? = some (.regression ratio mean) := by
  intro looser
  have hrun : ∀ xs : List Observation, (replay looser tool xs).2 = (replay c tool xs).2 ∧
      List.Forall₂ Relaxed (replay c tool xs).1 (replay looser tool xs).1 :=
    replayFrom_relaxed hc ht hle tool (.empty c.windowSize)
  obtain ⟨hend, hverdicts⟩ := hrun history
  refine ⟨fun n => (hrun (history.take n)).1, hend, hverdicts, ?_⟩
  intro i ratio mean hflagged
  exact getElem?_of_relaxed hverdicts hflagged

end

/-- One of two regressions is excused when the threshold is doubled, and the other is not. -/
theorem replay_of_threshold_le_doubled :
    let looser : Config := { Config.default with threshold := 1 }
    let history : List Observation :=
      [⟨1, "a", 4, "ms", 0⟩, ⟨2, "b", 7, "ms", 1⟩, ⟨3, "c", 22, "ms", 2⟩]
    Config.default.problem? = none ∧ looser.problem? = none ∧
      Config.default.threshold ≤ looser.threshold ∧
      (replay .default "cargo" history).1 =
        [.baseline, .regression 1.75 4, .regression 4 5.5] ∧
      (replay looser "cargo" history).1 = [.baseline, .nominal 1.75 4, .regression 4 5.5] ∧
      (replay looser "cargo" history).2 = (replay .default "cargo" history).2 ∧
      List.Forall₂ Relaxed (replay .default "cargo" history).1
        (replay looser "cargo" history).1 := by
  intro looser history
  have hc : Config.default.problem? = none := rfl
  have ht : looser.problem? = none := by decide
  have hle : Config.default.threshold ≤ looser.threshold := by decide
  have hstrict : (replay .default "cargo" history).1 =
      [.baseline, .regression 1.75 4, .regression 4 5.5] := by decide +kernel
  have hloose : (replay looser "cargo" history).1 =
      [.baseline, .nominal 1.75 4, .regression 4 5.5] := by decide +kernel
  obtain ⟨-, hend, hverdicts, -⟩ := replay_of_threshold_le hc ht hle "cargo" history
  exact ⟨hc, ht, hle, hstrict, hloose, hend, hverdicts⟩

end BenchHistory.Detector
