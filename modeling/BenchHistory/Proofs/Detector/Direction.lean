import BenchHistory.Proofs.Decimal.Shortest
import BenchHistory.Proofs.Detector.Threshold
import BenchHistory.Proofs.Detector.Window

/-!
# The bad side of a baseline

The cases of a comparison come down to one condition for each direction
(`exists_regression_smaller_iff`, `exists_regression_bigger_iff`). As means are not below zero and
thresholds are positive, the values that meet it are worse than the baseline, and with each of them
all that are worse still (`judge_of_worse`). Of the arithmetic it matters only that sums,
differences and quotients by a positive number are rounded in order.
-/

namespace BenchHistory.Detector

/-! ## The mean -/

theorem sum_nonneg {xs : List Float} (hxs : ∀ x ∈ xs, usable x = true) {sum : Float}
    (hsum : 0 ≤ sum) : 0 ≤ xs.foldl (· + ·) sum := by
  induction xs generalizing sum with
  | nil => exact hsum
  | cons x xs ih =>
    rw [List.forall_mem_cons] at hxs
    obtain ⟨hx, hrest⟩ := hxs
    unfold usable at hx
    rw [Bool.and_eq_true, decide_eq_true_iff] at hx
    exact ih hrest (Binary64.add_nonneg hsum hx.1 hx.2)

theorem ofNat_pos {n : ℕ} (hn : 0 < n) : 0 < Float.ofNat n := by
  have hq : (0 : ℚ) < n := Nat.cast_pos.2 hn
  have hone : (1 : ℚ) ≤ n := by exact_mod_cast hn
  rw [ofNat_eq_rounded hn, Binary64.lt_iff_value]
  refine ⟨0, _, Binary64.value?_zero, Binary64.value?_rounded hq, ?_⟩
  calc (0 : ℚ) < 1 := zero_lt_one
    _ = Binary64.toNearest 1 := Binary64.toNearest_one.symm
    _ ≤ Binary64.toNearest n := Binary64.toNearest_mono hone

/-- A mean is not below zero; it is infinite, or no number, if the sum is too great. -/
theorem not_neg_of_mean? {w : List Observation} {mean : Float} (hmean : mean? w = some mean) :
    ¬ mean < 0 := by
  unfold mean? at hmean
  split at hmean
  · cases hmean
  · next hne =>
    have husable : ∀ x ∈ (w.map (·.value)).filter usable, usable x = true :=
      fun x hx => List.of_mem_filter hx
    cases hmean
    apply Binary64.not_div_neg (sum_nonneg husable (by decide))
    apply ofNat_pos
    rw [List.length_pos_iff]
    exact hne

/-! ## The values that are flagged -/

section

variable {t mean value : Float}

theorem mean_of_compare {direction : Direction} {ratio mean' : Float}
    (hflagged : compare direction t value mean = .regression ratio mean') : mean' = mean := by
  unfold compare at hflagged
  split at hflagged
  · split at hflagged
    · cases hflagged
    · cases direction <;> cases hflagged
      rfl
  · split at hflagged
    · cases hflagged
    · simp only at hflagged
      split at hflagged <;> cases hflagged
      rfl

theorem exists_regression_smaller_iff :
    (∃ ratio, compare .smallerIsBetter t value mean = .regression ratio mean) ↔
      (value == 0) ≠ true ∧ ((mean == 0) = true ∨ 1 + t < value / mean) := by
  unfold compare beyond
  by_cases hmean : (mean == 0) = true
  · by_cases hvalue : (value == 0) = true <;> simp [hmean, hvalue]
  · by_cases hvalue : (value == 0) = true
    · simp [hmean, hvalue]
    · by_cases hbeyond : 1 + t < value / mean <;> simp [hmean, hvalue, hbeyond]

theorem exists_regression_bigger_iff :
    (∃ ratio, compare .biggerIsBetter t value mean = .regression ratio mean) ↔
      (mean == 0) ≠ true ∧ value / mean < 1 - t := by
  unfold compare beyond
  by_cases hmean : (mean == 0) = true
  · by_cases hvalue : (value == 0) = true <;> simp [hmean, hvalue]
  · by_cases hbeyond : value / mean < 1 - t <;> simp [hmean, hbeyond]

theorem one_le_one_add (ht : t.isFinite = true) (hpos : 0 < t) : 1 ≤ 1 + t := by
  have hle : 1 + 0 ≤ 1 + t := Binary64.add_le_add_left rfl rfl ht (Binary64.le_of_lt hpos)
  have hone : (1 : Float) + 0 = 1 := by decide
  rwa [hone] at hle

theorem one_sub_le_one (ht : t.isFinite = true) (hpos : 0 < t) : 1 - t ≤ 1 := by
  have hle : 1 - t ≤ 1 - 0 := Binary64.sub_le_sub_left rfl rfl ht (Binary64.le_of_lt hpos)
  have hone : (1 : Float) - 0 = 1 := by decide
  rwa [hone] at hle

theorem mean_pos {ratio : ℚ} (hmean : ¬ mean < 0) (hne : (mean == 0) ≠ true)
    (hratio : Binary64.value? (value / mean) = some ratio) : 0 < mean := by
  obtain ⟨b, hb⟩ := Binary64.exists_value?_of_div hratio
  exact Binary64.pos_of_not_neg hb hmean hne

/-- Where less is better, what is flagged is greater than the mean. -/
theorem mean_lt_of_regression (ht : t.isFinite = true) (hpos : 0 < t) (hmean : ¬ mean < 0)
    (hvalue : value.isFinite = true) (hneg : ¬ value < 0)
    (hflagged : ∃ ratio, compare .smallerIsBetter t value mean = .regression ratio mean) :
    mean < value := by
  obtain ⟨a, ha⟩ := Binary64.exists_value? hvalue
  obtain ⟨hne, hbeyond⟩ := exists_regression_smaller_iff.1 hflagged
  by_cases hzero : (mean == 0) = true
  · have hvpos := Binary64.pos_of_not_neg ha hneg hne
    exact Binary64.lt_of_le_of_lt (Binary64.le_of_beq hzero) hvpos
  · have hbeyond := hbeyond.resolve_left hzero
    obtain ⟨_, q, -, hq, -⟩ := Binary64.lt_iff_value.1 hbeyond
    obtain ⟨b, hb⟩ := Binary64.exists_value?_of_div hq
    apply Binary64.lt_of_not_le ha hb
    intro hle
    have hratio : value / mean ≤ 1 := Binary64.div_le_one hvalue (mean_pos hmean hzero hq) hle
    have hlt : 1 + t < 1 := Binary64.lt_of_lt_of_le hbeyond hratio
    exact Binary64.lt_irrefl _ (Binary64.lt_of_lt_of_le hlt (one_le_one_add ht hpos))

/-- Where less is better, what is above a flagged value is flagged. -/
theorem regression_of_ge (hmean : ¬ mean < 0) (hvalue : value.isFinite = true)
    (hneg : ¬ value < 0)
    (hflagged : ∃ ratio, compare .smallerIsBetter t value mean = .regression ratio mean)
    {x : Float} (hx : x.isFinite = true) (hge : value ≤ x) :
    ∃ ratio, compare .smallerIsBetter t x mean = .regression ratio mean := by
  obtain ⟨a, ha⟩ := Binary64.exists_value? hvalue
  obtain ⟨hne, hbeyond⟩ := exists_regression_smaller_iff.1 hflagged
  have hvpos := Binary64.pos_of_not_neg ha hneg hne
  have hxpos := Binary64.lt_of_lt_of_le hvpos hge
  rw [exists_regression_smaller_iff]
  refine ⟨Binary64.not_beq_zero_of_pos hxpos, ?_⟩
  by_cases hzero : (mean == 0) = true
  · exact .inl hzero
  · have hbeyond := hbeyond.resolve_left hzero
    obtain ⟨_, q, -, hq, -⟩ := Binary64.lt_iff_value.1 hbeyond
    have hratio := Binary64.div_le_div_right hvalue hx hge (mean_pos hmean hzero hq)
    exact .inr (Binary64.lt_of_lt_of_le hbeyond hratio)

theorem lt_mean_of_regression (ht : t.isFinite = true) (hpos : 0 < t) (hmean : ¬ mean < 0)
    (hvalue : value.isFinite = true)
    (hflagged : ∃ ratio, compare .biggerIsBetter t value mean = .regression ratio mean) :
    value < mean := by
  obtain ⟨a, ha⟩ := Binary64.exists_value? hvalue
  obtain ⟨hzero, hbeyond⟩ := exists_regression_bigger_iff.1 hflagged
  obtain ⟨q, _, hq, -, -⟩ := Binary64.lt_iff_value.1 hbeyond
  obtain ⟨b, hb⟩ := Binary64.exists_value?_of_div hq
  apply Binary64.lt_of_not_le hb ha
  intro hle
  have hratio : 1 ≤ value / mean := Binary64.one_le_div hvalue (mean_pos hmean hzero hq) hle
  have hlt : 1 < 1 - t := Binary64.lt_of_le_of_lt hratio hbeyond
  exact Binary64.lt_irrefl _ (Binary64.lt_of_lt_of_le hlt (one_sub_le_one ht hpos))

theorem regression_of_le (hmean : ¬ mean < 0) (hvalue : value.isFinite = true)
    (hflagged : ∃ ratio, compare .biggerIsBetter t value mean = .regression ratio mean)
    {x : Float} (hx : x.isFinite = true) (hle : x ≤ value) :
    ∃ ratio, compare .biggerIsBetter t x mean = .regression ratio mean := by
  obtain ⟨hzero, hbeyond⟩ := exists_regression_bigger_iff.1 hflagged
  obtain ⟨q, _, hq, -, -⟩ := Binary64.lt_iff_value.1 hbeyond
  have hratio := Binary64.div_le_div_right hx hvalue hle (mean_pos hmean hzero hq)
  rw [exists_regression_bigger_iff]
  exact ⟨hzero, Binary64.lt_of_le_of_lt hratio hbeyond⟩

end

/-! ## Verdicts -/

variable {c : Config} {tool : String} {o : Observation} {w : List Observation}

/-- A regression was compared with the mean, and so is any other value in its place. -/
theorem compared_of_regression {ratio mean : Float}
    (hflagged : judge c tool o w = .regression ratio mean) :
    o.value.isFinite = true ∧ ¬ o.value < 0 ∧ mean? w = some mean ∧
      compare (c.direction tool) c.threshold o.value mean = .regression ratio mean ∧
      ∀ x : Float, x.isFinite = true → ¬ x < 0 →
        judge c tool { o with value := x } w = compare (c.direction tool) c.threshold x mean := by
  have hgap : ∀ previous (x : Float), gap? c previous { o with value := x } = gap? c previous o :=
    fun _ _ => rfl
  unfold judge at hflagged ⊢
  split at hflagged
  · cases hflagged
  next hfinite =>
  split at hflagged
  · cases hflagged
  next hneg =>
  split at hflagged
  · cases hflagged
  next previous hlast =>
  split at hflagged
  · cases hflagged
  next hnear =>
  split at hflagged
  · cases hflagged
  next hunit =>
  split at hflagged
  · cases hflagged
  next mean' hmean =>
  have hsame : mean = mean' := mean_of_compare hflagged
  subst hsame
  refine ⟨by simpa using hfinite, hneg, hmean, hflagged, ?_⟩
  intro x hx hxneg
  rw [if_neg (by simp [hx]), if_neg hxneg]
  simp only [hgap, hnear, hunit]

/--
A regression is on the bad side of the baseline that it is compared with, and any value that is as
bad or worse is a regression from the same baseline.
-/
theorem judge_of_worse (hc : c.problem? = none) {ratio mean : Float}
    (hflagged : judge c tool o w = .regression ratio mean) :
    (c.direction tool = .smallerIsBetter → mean < o.value ∧
        ∀ x : Float, x.isFinite = true → ¬ x < 0 → o.value ≤ x →
          ∃ ratio', judge c tool { o with value := x } w = .regression ratio' mean) ∧
      (c.direction tool = .biggerIsBetter → o.value < mean ∧
        ∀ x : Float, x.isFinite = true → ¬ x < 0 → x ≤ o.value →
          ∃ ratio', judge c tool { o with value := x } w = .regression ratio' mean) := by
  obtain ⟨hvalue, hneg, hmean, hcompared, hjudge⟩ := compared_of_regression hflagged
  have hmneg := not_neg_of_mean? hmean
  have ht := Config.isFinite_threshold hc
  have hpos := Config.threshold_pos hc
  refine ⟨?_, ?_⟩
  · intro hdirection
    rw [hdirection] at hcompared hjudge
    refine ⟨mean_lt_of_regression ht hpos hmneg hvalue hneg ⟨ratio, hcompared⟩, ?_⟩
    intro x hx hxneg hge
    rw [hjudge x hx hxneg]
    exact regression_of_ge hmneg hvalue hneg ⟨ratio, hcompared⟩ hx hge
  · intro hdirection
    rw [hdirection] at hcompared hjudge
    refine ⟨lt_mean_of_regression ht hpos hmneg hvalue ⟨ratio, hcompared⟩, ?_⟩
    intro x hx hxneg hle
    rw [hjudge x hx hxneg]
    exact regression_of_le hmneg hvalue ⟨ratio, hcompared⟩ hx hle

/-- A doubled value where less is better and a quartered one where more is. -/
theorem judge_of_worse_both_directions :
    let w : List Observation := [⟨0, "a", -3, "ms", 0⟩, ⟨1, "b", 4, "ms", 1⟩]
    let high : Observation := ⟨2, "c", 8, "ms", 2⟩
    let low : Observation := ⟨2, "c", 1, "ms", 2⟩
    Config.default.problem? = none ∧
      (judge .default "cargo" high w = .regression 2 4 ∧ 4 < high.value ∧
        ∃ ratio, judge .default "cargo" { high with value := 9 } w = .regression ratio 4) ∧
      judge .default "customBiggerIsBetter" low w = .regression 0.25 4 ∧ low.value < 4 ∧
        ∃ ratio, judge .default "customBiggerIsBetter" { low with value := 0 } w =
          .regression ratio 4 := by
  intro w high low
  have hc : Config.default.problem? = none := rfl
  have hsmaller : Config.default.direction "cargo" = .smallerIsBetter := by decide
  have hbigger : Config.default.direction "customBiggerIsBetter" = .biggerIsBetter := by
    decide
  have hhigh : judge .default "cargo" high w = .regression 2 4 := by decide
  have hlow : judge .default "customBiggerIsBetter" low w = .regression 0.25 4 := by
    decide +kernel
  obtain ⟨habove, hmore⟩ := (judge_of_worse hc hhigh).1 hsmaller
  obtain ⟨hbelow, hless⟩ := (judge_of_worse hc hlow).2 hbigger
  exact ⟨hc, ⟨hhigh, habove, hmore 9 rfl (by decide) (by decide)⟩,
    hlow, hbelow, hless 0 rfl (by decide) (by decide)⟩

end BenchHistory.Detector
