import BenchHistory.Detector.Judge
import Mathlib.Data.List.Basic

/-!
# Replaying a history

A replay goes through the observations once, so it can be cut anywhere: the second part goes on
with the window that the first part leaves (`replay_append`), and each observation is judged by
the window of those before it (`getElem?_replay`). A verdict that empties the window leaves nothing
of what was before it (`replay_after_reset`).
-/

namespace BenchHistory.Detector

variable (c : Config) (tool : String)

theorem replayFrom_append (w : Window) (xs ys : List Observation) :
    replayFrom c tool w (xs ++ ys) =
      ((replayFrom c tool w xs).1 ++ (replayFrom c tool (replayFrom c tool w xs).2 ys).1,
        (replayFrom c tool (replayFrom c tool w xs).2 ys).2) := by
  induction xs generalizing w with
  | nil => rfl
  | cons x xs ih => simp only [List.cons_append, replayFrom, ih]

theorem replay_append (xs ys : List Observation) :
    replay c tool (xs ++ ys) =
      ((replay c tool xs).1 ++ (replayFrom c tool (replay c tool xs).2 ys).1,
        (replayFrom c tool (replay c tool xs).2 ys).2) :=
  replayFrom_append c tool _ xs ys

theorem length_replayFrom (w : Window) (xs : List Observation) :
    (replayFrom c tool w xs).1.length = xs.length := by
  induction xs generalizing w with
  | nil => rfl
  | cons x xs ih => simp only [replayFrom, List.length_cons, ih]

@[simp] theorem length_replay (xs : List Observation) :
    (replay c tool xs).1.length = xs.length :=
  length_replayFrom c tool _ xs

theorem take_replay {xs : List Observation} {n : Nat} (hn : n ≤ xs.length) :
    (replay c tool xs).1.take n = (replay c tool (xs.take n)).1 := by
  have hlen : (replay c tool (xs.take n)).1.length = n := by
    rw [length_replay, List.length_take_of_le hn]
  have happend := replay_append c tool (xs.take n) (xs.drop n)
  rw [List.take_append_drop] at happend
  rw [happend]
  exact List.take_left' hlen

theorem replay_concat (xs : List Observation) (o : Observation) :
    replay c tool (xs ++ [o]) =
      let w := (replay c tool xs).2
      let v := judge c tool o w.observations
      ((replay c tool xs).1 ++ [v], w.apply o v) := by
  rw [replay_append]
  rfl

/-- The verdict on an observation is the one by the window of those before it. -/
theorem getElem?_replay (xs : List Observation) (o : Observation) (ys : List Observation) :
    (replay c tool (xs ++ o :: ys)).1[xs.length]? =
      some (judge c tool o (replay c tool xs).2.observations) := by
  have hlen := length_replay c tool xs
  rw [replay_append, List.getElem?_append_right (Nat.le_of_eq hlen), hlen, Nat.sub_self]
  rfl

/-! ## Resets -/

theorem Window.capacity_apply (w : Window) (o : Observation) (v : Verdict) :
    (w.apply o v).capacity = w.capacity := by
  cases v <;> rfl

theorem capacity_replayFrom (w : Window) (xs : List Observation) :
    (replayFrom c tool w xs).2.capacity = w.capacity := by
  induction xs generalizing w with
  | nil => rfl
  | cons x xs ih =>
    simp only [replayFrom]
    rw [ih, Window.capacity_apply]

theorem emptied_replay (xs : List Observation) :
    { (replay c tool xs).2 with observations := [] } = Window.empty c.windowSize :=
  congrArg (Window.mk · []) (capacity_replayFrom c tool _ xs)

/-- What is in another unit can at least be the first of a baseline. -/
theorem judge_nil_of_unitDrift {o : Observation} {w : List Observation} {expected found : String}
    (hdrift : judge c tool o w = .unitDrift expected found) :
    judge c tool o [] = .baseline := by
  unfold judge at hdrift ⊢
  split at hdrift
  · cases hdrift
  · next hfinite =>
    split at hdrift
    · cases hdrift
    · next hnonneg =>
      rw [if_neg hfinite, if_neg hnonneg]
      rfl

theorem replayFrom_apply (before : List Observation) (o : Observation)
    (after : List Observation) :
    let whole := replay c tool (before ++ o :: after)
    let w := (replay c tool before).2
    replayFrom c tool (w.apply o (judge c tool o w.observations)) after =
      (whole.1.drop (before.length + 1), whole.2) := by
  intro whole w
  have hwhole : whole = ((replay c tool before).1 ++ (replayFrom c tool w (o :: after)).1,
      (replayFrom c tool w (o :: after)).2) :=
    replay_append c tool before (o :: after)
  rw [hwhole, ← length_replay c tool before, List.drop_append,
    List.drop_of_length_le (Nat.le_succ _), Nat.add_sub_cancel_left]
  rfl

/--
A reset leaves nothing behind. After a discontinuity the verdicts and the window are those of a
replay that starts there; after a change of unit they are those of a replay that starts with the
observation in the new unit, which is then a baseline.
-/
theorem replay_after_reset (before : List Observation) (o : Observation)
    (after : List Observation) :
    let whole := replay c tool (before ++ o :: after)
    let verdicts := whole.1.drop (before.length + 1)
    (∀ cause, whole.1[before.length]? = some (.discontinuity cause) →
        replay c tool after = (verdicts, whole.2)) ∧
      ∀ expected found, whole.1[before.length]? = some (.unitDrift expected found) →
        replay c tool (o :: after) = (.baseline :: verdicts, whole.2) := by
  intro whole verdicts
  have hjudged : whole.1[before.length]? =
      some (judge c tool o (replay c tool before).2.observations) :=
    getElem?_replay c tool before o after
  have hrest : replayFrom c tool _ after = (verdicts, whole.2) :=
    replayFrom_apply c tool before o after
  have hemptied := emptied_replay c tool before
  set w := (replay c tool before).2
  rw [hjudged]
  refine ⟨?_, ?_⟩
  · intro cause hcause
    rw [Option.some_inj] at hcause
    rw [hcause] at hrest
    rw [replay, ← hemptied]
    exact hrest
  · intro expected found hdrift
    rw [Option.some_inj] at hdrift
    have hfirst : judge c tool o (Window.empty c.windowSize).observations = .baseline :=
      judge_nil_of_unitDrift c tool hdrift
    have hpushed : replayFrom c tool ((Window.empty c.windowSize).push o) after =
        (verdicts, whole.2) := by
      rw [hdrift] at hrest
      rw [← hemptied]
      exact hrest
    rw [replay, replayFrom, hfirst]
    show (_ :: (replayFrom c tool ((Window.empty c.windowSize).push o) after).1,
      (replayFrom c tool ((Window.empty c.windowSize).push o) after).2) = _
    rw [hpushed]

/-- A negative value and a change of unit, each behind two observations and before two more. -/
theorem replay_after_reset_by_value_and_unit :
    let before : List Observation := [⟨1, "a", 4, "ms", 0⟩, ⟨2, "b", 4, "ms", 1⟩]
    let after : List Observation := [⟨4, "d", 5, "s", 3⟩, ⟨5, "e", 9, "s", 4⟩]
    let byValue := replay .default "t" (before ++ ⟨3, "c", -1, "ms", 2⟩ :: after)
    let byUnit := replay .default "t" (before ++ ⟨3, "c", 3, "s", 2⟩ :: after)
    (byValue.1[2]? = some (.discontinuity .negativeValue) ∧
        replay .default "t" after = (byValue.1.drop 3, byValue.2)) ∧
      byUnit.1[2]? = some (.unitDrift "ms" "s") ∧
        replay .default "t" (⟨3, "c", 3, "s", 2⟩ :: after) =
          (.baseline :: byUnit.1.drop 3, byUnit.2) := by
  intro before after byValue byUnit
  have hvalue : byValue.1[2]? = some (.discontinuity .negativeValue) := by decide
  have hunit : byUnit.1[2]? = some (.unitDrift "ms" "s") := by decide
  exact ⟨⟨hvalue, (replay_after_reset .default "t" before _ after).1 _ hvalue⟩,
    hunit, (replay_after_reset .default "t" before _ after).2 _ _ hunit⟩

end BenchHistory.Detector
