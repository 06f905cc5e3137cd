import BenchHistory.Proofs.Detector.Replay
import BenchHistory.Proofs.Detector.Units
import BenchHistory.Proofs.Float.Basic
import Mathlib.Data.List.Chain
import Mathlib.Data.List.DropRight

/-!
# What the window holds

The window is the end of the observations since the history was last broken
(`observations_applyAll`), whatever the verdicts are. When the verdicts are those of the detector
the observations in it are `Comparable`: finite, not below zero, in one unit and without long gaps
(`comparable_replay`). Both are put together for every place of a history.
-/

namespace BenchHistory.Detector

/-! ## The observations since the last break -/

/-- The observations since the last break, after one more with its verdict. -/
def sinceBreak (os : List Observation) (o : Observation) : Verdict → List Observation
  | .discontinuity _ => []
  | .unitDrift _ _ => [o]
  | .baseline => os ++ [o]
  | .regression _ _ => os ++ [o]
  | .nominal _ _ => os ++ [o]

/-- The number of observations since the last break, after one more verdict. -/
def countSince (n : ℕ) : Verdict → ℕ
  | .discontinuity _ => 0
  | .unitDrift _ _ => 1
  | .baseline => n + 1
  | .regression _ _ => n + 1
  | .nominal _ _ => n + 1

/-- The observations since the last break in a history with its verdicts. -/
def block (steps : List (Observation × Verdict)) : List Observation :=
  steps.foldl (fun os p => sinceBreak os p.1 p.2) []

/-- The number of observations since the last break, told from the verdicts alone. -/
def blockLength (vs : List Verdict) : ℕ :=
  vs.foldl countSince 0

theorem block_concat (steps : List (Observation × Verdict)) (o : Observation) (v : Verdict) :
    block (steps ++ [(o, v)]) = sinceBreak (block steps) o v := by
  simp only [block, List.foldl_append, List.foldl_cons, List.foldl_nil]

theorem blockLength_concat (vs : List Verdict) (v : Verdict) :
    blockLength (vs ++ [v]) = countSince (blockLength vs) v := by
  simp only [blockLength, List.foldl_append, List.foldl_cons, List.foldl_nil]

theorem length_block (steps : List (Observation × Verdict)) :
    (block steps).length = blockLength (steps.map Prod.snd) := by
  induction steps using List.reverseRecOn with
  | nil => rfl
  | append_singleton steps p ih =>
    obtain ⟨o, v⟩ := p
    rw [block_concat, List.map_append, List.map_singleton, blockLength_concat, ← ih]
    cases v <;> simp [sinceBreak, countSince]

/-- Nothing is left out between the last break and the end. -/
theorem block_suffix (steps : List (Observation × Verdict)) :
    block steps <:+ steps.map Prod.fst := by
  induction steps using List.reverseRecOn with
  | nil => exact List.suffix_refl _
  | append_singleton steps p ih =>
    obtain ⟨o, v⟩ := p
    obtain ⟨before, hbefore⟩ := ih
    have hkept : block steps ++ [o] <:+ steps.map Prod.fst ++ [o] :=
      ⟨before, by rw [← List.append_assoc, hbefore]⟩
    rw [block_concat, List.map_append, List.map_singleton]
    cases v with
    | discontinuity _ => exact List.nil_suffix
    | unitDrift _ _ => exact List.suffix_append _ _
    | baseline => exact hkept
    | regression _ _ => exact hkept
    | nominal _ _ => exact hkept

theorem block_eq_nil_iff (steps : List (Observation × Verdict)) :
    block steps = [] ↔
      steps = [] ∨ ∃ cause, (steps.map Prod.snd).getLast? = some (.discontinuity cause) := by
  induction steps using List.reverseRecOn with
  | nil => simp [block]
  | append_singleton steps p ih =>
    obtain ⟨o, v⟩ := p
    rw [block_concat]
    cases v <;> simp [sinceBreak]

/-! ## The window is the end of the block -/

/-- The window after observations with their verdicts. -/
def Window.applyAll (w : Window) (steps : List (Observation × Verdict)) : Window :=
  steps.foldl (fun w p => w.apply p.1 p.2) w

theorem Window.applyAll_concat (w : Window) (steps : List (Observation × Verdict))
    (o : Observation) (v : Verdict) :
    w.applyAll (steps ++ [(o, v)]) = (w.applyAll steps).apply o v := by
  simp only [applyAll, List.foldl_append, List.foldl_cons, List.foldl_nil]

theorem rtake_rtake_concat {α : Type} (l : List α) (a : α) (n : ℕ) :
    (l.rtake n ++ [a]).rtake n = (l ++ [a]).rtake n := by
  cases n with
  | zero => simp
  | succ n =>
    rw [List.rtake_concat_succ, List.rtake_concat_succ]
    simp only [List.rtake_eq_reverse_take_reverse, List.reverse_reverse, List.take_take,
      Nat.min_eq_left (Nat.le_succ n)]

theorem Window.apply_of_rtake {w : Window} {os : List Observation} (o : Observation) (v : Verdict)
    (hw : w.observations = os.rtake w.capacity) :
    (w.apply o v).observations = (sinceBreak os o v).rtake w.capacity := by
  have hpush : (w.observations ++ [o]).rtake w.capacity = (os ++ [o]).rtake w.capacity := by
    rw [hw, rtake_rtake_concat]
  cases v with
  | discontinuity _ => exact (List.rtake_nil _).symm
  | unitDrift _ _ => rfl
  | baseline => exact hpush
  | regression _ _ => exact hpush
  | nominal _ _ => exact hpush

theorem Window.capacity_applyAll (w : Window) (steps : List (Observation × Verdict)) :
    (w.applyAll steps).capacity = w.capacity := by
  induction steps using List.reverseRecOn with
  | nil => rfl
  | append_singleton steps p ih => rw [applyAll_concat, capacity_apply, ih]

/-- The window holds the end of the block, as much of it as there is room for. -/
theorem Window.observations_applyAll (capacity : ℕ) (steps : List (Observation × Verdict)) :
    ((empty capacity).applyAll steps).observations = (block steps).rtake (max capacity 1) := by
  induction steps using List.reverseRecOn with
  | nil => exact (List.rtake_nil _).symm
  | append_singleton steps p ih =>
    obtain ⟨o, v⟩ := p
    have hcap : ((empty capacity).applyAll steps).capacity = max capacity 1 :=
      capacity_applyAll _ steps
    rw [← hcap] at ih ⊢
    rw [applyAll_concat, block_concat]
    exact apply_of_rtake o v ih

theorem replay_eq_applyAll (c : Config) (tool : String) (xs : List Observation) :
    (replay c tool xs).2 =
      (Window.empty c.windowSize).applyAll (xs.zip (replay c tool xs).1) := by
  induction xs using List.reverseRecOn with
  | nil => rfl
  | append_singleton xs o ih =>
    rw [replay_concat]
    have hlen : xs.length = (replay c tool xs).1.length := (length_replay c tool xs).symm
    simp only [List.zip_append hlen, List.zip_cons_cons, List.zip_nil_right,
      Window.applyAll_concat, ← ih]

/-! ## What is in the window may be compared -/

theorem usable_iff {x : Float} : usable x = true ↔ x.isFinite = true ∧ ¬ x < 0 := by
  unfold usable
  rw [Bool.and_eq_true, decide_eq_true_iff]
  exact and_congr_right fun hfinite => Binary64.zero_le_iff_not_neg hfinite

/-- Observations that may be compared with each other under the settings. -/
structure Comparable (c : Config) (w : List Observation) : Prop where
  usable : ∀ p ∈ w, usable p.value = true
  unit_eq : ∀ p ∈ w, ∀ q ∈ w, p.unit = q.unit
  near : ∀ most, c.maxGapRuns = some most →
    w.IsChain fun p q => q.runIndex ≤ p.runIndex + (most + 1)

theorem comparable_nil (c : Config) : Comparable c [] where
  usable := by simp
  unit_eq := by simp
  near _ _ := List.isChain_nil

theorem comparable_singleton (c : Config) {o : Observation} (ho : usable o.value = true) :
    Comparable c [o] where
  usable := by simpa using ho
  unit_eq := by simp
  near _ _ := List.isChain_singleton _

theorem Comparable.of_suffix {c : Config} {w w' : List Observation} (h : Comparable c w)
    (hw : w' <:+ w) : Comparable c w' where
  usable p hp := h.usable p (hw.subset hp)
  unit_eq p hp q hq := h.unit_eq p (hw.subset hp) q (hw.subset hq)
  near most hmost := (h.near most hmost).suffix hw

/-- An observation that no long gap parts from the one before it. -/
def Near (c : Config) (w : List Observation) (o : Observation) : Prop :=
  ∀ previous, w.getLast? = some previous → gap? c previous o = none

theorem runIndex_le_of_gap?_eq_none {c : Config} {previous o : Observation} {most : ℕ}
    (hgap : gap? c previous o = none) (hmost : c.maxGapRuns = some most) :
    o.runIndex ≤ previous.runIndex + (most + 1) := by
  unfold gap? missingRuns at hgap
  simp only [hmost] at hgap
  split at hgap
  · cases hgap
  · omega

theorem Comparable.concat {c : Config} {w : List Observation} (h : Comparable c w)
    {o : Observation} (ho : Detector.usable o.value = true) (hunit : ∀ p ∈ w, p.unit = o.unit)
    (hnear : Near c w o) : Comparable c (w ++ [o]) where
  usable := by
    rw [List.forall_mem_append, List.forall_mem_singleton]
    exact ⟨h.usable, ho⟩
  unit_eq p hp q hq := by
    have hall : ∀ x ∈ w ++ [o], x.unit = o.unit := by
      rw [List.forall_mem_append, List.forall_mem_singleton]
      exact ⟨hunit, rfl⟩
    rw [hall p hp, hall q hq]
  near most hmost := by
    rw [List.isChain_append]
    refine ⟨h.near most hmost, List.isChain_singleton _, fun previous hprev next hnext => ?_⟩
    have hnext : o = next := by simpa using hnext
    rw [← hnext]
    exact runIndex_le_of_gap?_eq_none (hnear previous hprev) hmost

/-! ## Verdicts by a comparable window -/

theorem exists_predominantUnit? {w : List Observation} (h : w ≠ []) :
    ∃ p ∈ w, predominantUnit? w = some p.unit := by
  obtain ⟨u, hu, hpredominant⟩ := exists_predominant h
  obtain ⟨p, hp, rfl⟩ := List.mem_map.1 hpredominant.mem
  exact ⟨p, hp, hu⟩

theorem Comparable.exists_mean? {c : Config} {w : List Observation} (h : Comparable c w)
    (hne : w ≠ []) : ∃ mean, mean? w = some mean := by
  have hall : (w.map (·.value)).filter Detector.usable = w.map (·.value) := by
    rw [List.filter_eq_self, List.forall_mem_map]
    exact h.usable
  obtain ⟨p, l, rfl⟩ := List.exists_cons_of_ne_nil hne
  unfold mean?
  rw [hall]
  exact ⟨_, rfl⟩

/-- What a comparable window and the next observation are like when a verdict is given. -/
inductive Judged (c : Config) (w : List Observation) (o : Observation) : Verdict → Prop where
  | unusable {cause : Discontinuity} (ho : usable o.value = false) :
    Judged c w o (.discontinuity cause)
  | broken {cause : Discontinuity} (ho : usable o.value = true) (hne : w ≠ []) :
    Judged c w o (.discontinuity cause)
  | first (ho : usable o.value = true) (hw : w = []) : Judged c w o .baseline
  | drift {expected : String} (ho : usable o.value = true) (hne : w ≠ []) :
    Judged c w o (.unitDrift expected o.unit)
  | regression {ratio mean : Float} (ho : usable o.value = true) (hne : w ≠ [])
    (hnear : Near c w o) (hunit : ∀ p ∈ w, p.unit = o.unit) : Judged c w o (.regression ratio mean)
  | nominal {ratio mean : Float} (ho : usable o.value = true) (hne : w ≠ [])
    (hnear : Near c w o) (hunit : ∀ p ∈ w, p.unit = o.unit) : Judged c w o (.nominal ratio mean)

theorem judged_compare {c : Config} {w : List Observation} {o : Observation}
    (ho : usable o.value = true) (hne : w ≠ []) (hnear : Near c w o)
    (hunit : ∀ p ∈ w, p.unit = o.unit) (direction : Direction) (threshold mean : Float) :
    Judged c w o (compare direction threshold o.value mean) := by
  unfold compare
  split
  · split
    · exact .nominal ho hne hnear hunit
    · split
      · exact .regression ho hne hnear hunit
      · exact .nominal ho hne hnear hunit
  · split
    · exact .broken ho hne
    · simp only
      split
      · exact .regression ho hne hnear hunit
      · exact .nominal ho hne hnear hunit

theorem Comparable.judged {c : Config} {w : List Observation} (h : Comparable c w) (tool : String)
    (o : Observation) : Judged c w o (judge c tool o w) := by
  by_cases ho : Detector.usable o.value = true
  swap
  · have hno : Detector.usable o.value = false := Bool.eq_false_iff.2 ho
    rw [usable_iff, not_and_or, not_not] at ho
    unfold judge
    split
    · exact .unusable hno
    · next hfinite =>
      rw [if_pos (ho.resolve_left fun hinf => hfinite (by simpa using hinf))]
      exact .unusable hno
  obtain ⟨hfinite, hneg⟩ := usable_iff.1 ho
  unfold judge
  rw [if_neg (by simp [hfinite]), if_neg hneg]
  split
  · next hlast => exact .first ho (List.getLast?_eq_none_iff.1 hlast)
  · next previous hlast =>
    have hne : w ≠ [] := by
      rintro rfl
      cases hlast
    obtain ⟨q, hq, hcommon⟩ := exists_predominantUnit? hne
    obtain ⟨mean, hmean⟩ := h.exists_mean? hne
    split
    · exact .broken ho hne
    · next hgap =>
      have hnear : Near c w o := by
        intro p hp
        rw [hlast] at hp
        rw [← Option.some.inj hp]
        exact hgap
      by_cases hsame : q.unit = o.unit
      · have hunit : ∀ p ∈ w, p.unit = o.unit := fun p hp => (h.unit_eq p hp q hq).trans hsame
        have hfilter : (predominantUnit? w).filter (· ≠ o.unit) = none := by
          simp [hcommon, hsame, Option.filter_some]
        simp only [hfilter, hmean]
        exact judged_compare ho hne hnear hunit (c.direction tool) c.threshold mean
      · have hfilter : (predominantUnit? w).filter (· ≠ o.unit) = some q.unit := by
          simp [hcommon, hsame, Option.filter_some]
        simp only [hfilter]
        exact .drift ho hne

/-! ## Every window of a replay -/

theorem Comparable.apply {c : Config} {w : Window} (h : Comparable c w.observations)
    {o : Observation} {v : Verdict} (hv : Judged c w.observations o v) :
    Comparable c (w.apply o v).observations := by
  cases hv with
  | unusable _ => exact comparable_nil c
  | broken _ _ => exact comparable_nil c
  | drift ho _ => exact (comparable_singleton c ho).of_suffix (List.drop_suffix _ _)
  | first ho hw =>
    refine Comparable.of_suffix ?_ (List.drop_suffix _ _)
    rw [hw]
    exact comparable_singleton c ho
  | regression ho _ hnear hunit => exact (h.concat ho hunit hnear).of_suffix (List.drop_suffix _ _)
  | nominal ho _ hnear hunit => exact (h.concat ho hunit hnear).of_suffix (List.drop_suffix _ _)

theorem comparable_replay (c : Config) (tool : String) (xs : List Observation) :
    Comparable c (replay c tool xs).2.observations := by
  induction xs using List.reverseRecOn with
  | nil => exact comparable_nil c
  | append_singleton xs o ih =>
    rw [replay_concat]
    exact ih.apply (ih.judged tool o)

theorem rtake_min_length {α : Type} (l : List α) (n : ℕ) :
    l.rtake (min n l.length) = l.rtake n := by
  unfold List.rtake
  congr 1
  omega

theorem rtake_eq_nil_iff {α : Type} {l : List α} {n : ℕ} (hn : 0 < n) :
    l.rtake n = [] ↔ l = [] := by
  unfold List.rtake
  rw [List.drop_eq_nil_iff, ← List.length_eq_zero_iff]
  omega

theorem windowSize_pos {c : Config} (hc : c.problem? = none) : 0 < c.windowSize := by
  by_contra hzero
  have hzero : c.windowSize = 0 := by omega
  simp [Config.problem?, hzero] at hc

/-- The window after a replay, told from the observations and the number of the last verdicts. -/
theorem observations_replay {c : Config} (hc : c.problem? = none) (tool : String)
    (xs : List Observation) :
    let n := blockLength (replay c tool xs).1
    n ≤ xs.length ∧
      (replay c tool xs).2.observations =
        (xs.drop (xs.length - n)).rtake (min c.windowSize n) ∧
      ((replay c tool xs).2.observations = [] ↔
        xs = [] ∨ ∃ cause, (replay c tool xs).1.getLast? = some (.discontinuity cause)) := by
  intro n
  have hlen := length_replay c tool xs
  have hpos := windowSize_pos hc
  have hfst : (xs.zip (replay c tool xs).1).map Prod.fst = xs := List.map_fst_zip hlen.ge
  have hsnd : (xs.zip (replay c tool xs).1).map Prod.snd = (replay c tool xs).1 :=
    List.map_snd_zip hlen.le
  have hn : (block (xs.zip (replay c tool xs).1)).length = n := by rw [length_block, hsnd]
  have hsuffix := block_suffix (xs.zip (replay c tool xs).1)
  rw [hfst] at hsuffix
  have hblock : block (xs.zip (replay c tool xs).1) = xs.drop (xs.length - n) := by
    rw [← hn]
    exact List.suffix_iff_eq_drop.1 hsuffix
  have hobs : (replay c tool xs).2.observations =
      (block (xs.zip (replay c tool xs).1)).rtake c.windowSize := by
    rw [replay_eq_applyAll, Window.observations_applyAll c.windowSize, max_eq_left hpos]
  refine ⟨hn ▸ hsuffix.length_le, ?_, ?_⟩
  · rw [hobs, ← rtake_min_length, hn, hblock]
  · have hnil : xs.zip (replay c tool xs).1 = [] ↔ xs = [] := by
      rw [← List.map_eq_nil_iff (f := Prod.fst), hfst]
    rw [hobs, rtake_eq_nil_iff hpos, block_eq_nil_iff, hsnd, hnil]

/--
How the window `w` that judges observation `o` at place `i` depends on the history and on its
verdicts `vs`, of which `blockLength` counts those since the last break.
-/
structure WindowAt (c : Config) (tool : String) (history : List Observation) (i : ℕ)
    (o : Observation) (vs : List Verdict) (w : List Observation) : Prop where
  verdict : vs[i]? = some (judge c tool o w)
  blockLength_le : blockLength (vs.take i) ≤ i
  eq_rtake : w = ((history.take i).drop (i - blockLength (vs.take i))).rtake
    (min c.windowSize (blockLength (vs.take i)))
  finite : ∀ p ∈ w, p.value.isFinite = true ∧ ¬ p.value < 0
  unit_eq : ∀ p ∈ w, ∀ q ∈ w, p.unit = q.unit
  near : ∀ most, c.maxGapRuns = some most →
    w.IsChain fun p q => q.runIndex ≤ p.runIndex + (most + 1)
  eq_nil_iff : w = [] ↔ i = 0 ∨ ∃ cause, vs[i - 1]? = some (.discontinuity cause)
  baseline_iff : vs[i]? = some .baseline ↔ w = [] ∧ o.value.isFinite = true ∧ ¬ o.value < 0
  unit_of_compared : ∀ ratio mean,
    vs[i]? = some (.regression ratio mean) ∨ vs[i]? = some (.nominal ratio mean) →
      ∀ p ∈ w, p.unit = o.unit

/-- Every observation of a history is judged by comparable ones since the last break. -/
theorem replay_windowAt {c : Config} (hc : c.problem? = none) (tool : String)
    {history : List Observation} {i : ℕ} {o : Observation} (ho : history[i]? = some o) :
    WindowAt c tool history i o (replay c tool history).1
      (replay c tool (history.take i)).2.observations := by
  obtain ⟨hi, hget⟩ := List.getElem?_eq_some_iff.1 ho
  have hsplit : history = history.take i ++ o :: history.drop (i + 1) := by
    rw [← hget, ← List.drop_eq_getElem_cons hi, List.take_append_drop]
  have hlen : (history.take i).length = i := List.length_take_of_le hi.le
  set vs := (replay c tool history).1 with hvs
  set w := (replay c tool (history.take i)).2.observations with hw
  have hverdict : vs[i]? = some (judge c tool o w) := by
    have h := getElem?_replay c tool (history.take i) o (history.drop (i + 1))
    rwa [← hsplit, hlen] at h
  have hbefore : (replay c tool (history.take i)).1 = vs.take i :=
    (take_replay c tool hi.le).symm
  obtain ⟨hle, hobs, hempty⟩ := observations_replay hc tool (history.take i)
  rw [hbefore, hlen] at hle hobs
  rw [hbefore] at hempty
  have hcomparable : Comparable c w := comparable_replay c tool (history.take i)
  have hjudged := hcomparable.judged tool o
  refine ⟨hverdict, hle, hobs, fun p hp => usable_iff.1 (hcomparable.usable p hp),
    hcomparable.unit_eq, hcomparable.near, ?_, ?_, ?_⟩
  · have hstart : history.take i = [] ↔ i = 0 := by rw [← List.length_eq_zero_iff, hlen]
    have hlast : i ≠ 0 → (vs.take i).getLast? = vs[i - 1]? := by
      intro hne
      have hsize : i ≤ vs.length := by
        rw [hvs, length_replay]
        exact hi.le
      rw [List.getLast?_eq_getElem?, List.length_take_of_le hsize,
        List.getElem?_take_of_lt (by omega)]
    rw [hempty, hstart]
    by_cases hzero : i = 0
    · simp [hzero]
    · rw [hlast hzero]
  · rw [hverdict, ← usable_iff, Option.some_inj]
    generalize judge c tool o w = v at hjudged
    cases hjudged with
    | first hu hw => simp [hw, hu]
    | unusable hu => simp [hu]
    | broken _ hne => simp [hne]
    | drift _ hne => simp [hne]
    | regression _ hne _ _ => simp [hne]
    | nominal _ hne _ _ => simp [hne]
  · rw [hverdict]
    generalize judge c tool o w = v at hjudged
    intro ratio mean hcompared
    cases hjudged with
    | regression _ _ _ hunit => exact hunit
    | nominal _ _ _ hunit => exact hunit
    | _ => simp at hcompared

/-- A window that starts anew behind a negative value and again with another unit. -/
theorem replay_windowAt_after_breaks :
    let history : List Observation := [⟨1, "a", 4, "ms", 0⟩, ⟨2, "b", -1, "ms", 1⟩,
      ⟨3, "c", 5, "ms", 2⟩, ⟨4, "d", 5, "s", 3⟩, ⟨5, "e", 9, "s", 4⟩]
    Config.default.problem? = none ∧ history[4]? = some ⟨5, "e", 9, "s", 4⟩ ∧
      WindowAt .default "t" history 4 ⟨5, "e", 9, "s", 4⟩ (replay .default "t" history).1
        (replay .default "t" (history.take 4)).2.observations :=
  ⟨rfl, rfl, replay_windowAt rfl "t" rfl⟩

end BenchHistory.Detector
