import BenchHistory.Proofs.Detector.Direction
import BenchHistory.Proofs.Json.Valid

/-!
# Tools that can be flagged

Settings of use may still leave a tool whose metrics are never flagged. Where less is better,
anything above a mean of zero is a regression; where more is better, a value of zero is one from a
positive mean, but only under a threshold below one. The threshold is looked at beside directions
that are set, not beside those that names promise, so just the latter go unflagged
(`Config.canFlag_iff`).
-/

namespace BenchHistory.Detector

/-- Some observation of the tool would be a regression after some window. -/
def Config.CanFlag (c : Config) (tool : String) : Prop :=
  ∃ (k : SeriesKey) (w : List Observation) (o : Observation), k.tool = tool ∧
    w.length ≤ c.windowSize ∧ (judge c k.tool o w).isRegression = true

/-- An observation of which only the value matters. -/
def plainObservation (value : Float) : Observation :=
  ⟨0, "", value, "", 0⟩

section

variable {c : Config} {tool : String} {value mean : Float}

/-! ## Observations that are flagged -/

/-- After an observation like it, a usable value is compared with the value before. -/
theorem judge_plainObservation (hvalue : value.isFinite = true) (hneg : ¬ value < 0)
    (hmean : mean? [plainObservation mean] = some mean) :
    judge c tool (plainObservation value) [plainObservation mean] =
      compare (c.direction tool) c.threshold value mean := by
  have hgap : gap? c (plainObservation mean) (plainObservation value) = none := by
    unfold gap?
    cases c.maxGapRuns <;> rfl
  have hunit : (predominantUnit? [plainObservation mean]).filter
      (· ≠ (plainObservation value).unit) = none := rfl
  have husable : (plainObservation value).value.isFinite ≠ false := by
    rw [show (plainObservation value).value = value from rfl, hvalue]
    nofun
  unfold judge
  rw [if_neg husable, if_neg (show ¬ (plainObservation value).value < 0 from hneg)]
  simp only [List.getLast?_singleton, hgap, hunit, hmean]
  rfl

theorem canFlag_of_compare (hc : c.problem? = none) (hvalue : value.isFinite = true)
    (hneg : ¬ value < 0) (hmean : mean? [plainObservation mean] = some mean)
    (hflagged : ∃ ratio, compare (c.direction tool) c.threshold value mean =
      .regression ratio mean) : c.CanFlag tool := by
  obtain ⟨ratio, hratio⟩ := hflagged
  refine ⟨⟨tool, "", none⟩, [plainObservation mean], plainObservation value, rfl,
    windowSize_pos hc, ?_⟩
  rw [judge_plainObservation hvalue hneg hmean, hratio]
  rfl

theorem canFlag_of_smaller (hc : c.problem? = none)
    (hdirection : c.direction tool = .smallerIsBetter) : c.CanFlag tool := by
  refine canFlag_of_compare hc (show Float.isFinite 1 = true by decide) (by decide)
    (show mean? [plainObservation 0] = some 0 by decide) ?_
  rw [hdirection, exists_regression_smaller_iff]
  exact ⟨by decide, .inl (by decide)⟩

theorem canFlag_of_threshold_lt (hc : c.problem? = none) (hlt : c.threshold < 1)
    (hdirection : c.direction tool = .biggerIsBetter) : c.CanFlag tool := by
  have hratio : (0 : Float) / 1 = 0 := by decide
  refine canFlag_of_compare hc (show Float.isFinite 0 = true by decide) (by decide)
    (show mean? [plainObservation 1] = some 1 by decide) ?_
  rw [hdirection, exists_regression_bigger_iff, hratio]
  exact ⟨by decide, Binary64.one_sub_pos (Config.isFinite_threshold hc)
    (Config.threshold_pos hc) hlt⟩

/-! ## Tools that are not flagged -/

/-- Under a threshold of one or more, nothing is low enough where more is better. -/
theorem not_canFlag_of_threshold_ge (hc : c.problem? = none) (hge : 1 ≤ c.threshold)
    (hdirection : c.direction tool = .biggerIsBetter) : ¬ c.CanFlag tool := by
  rintro ⟨k, w, o, rfl, -, hflagged⟩
  match hverdict : judge c k.tool o w with
  | .regression ratio mean =>
    obtain ⟨hvalue, hneg, hmean, hcompared, -⟩ := compared_of_regression hverdict
    rw [hdirection] at hcompared
    obtain ⟨hzero, hbeyond⟩ := exists_regression_bigger_iff.1 ⟨ratio, hcompared⟩
    obtain ⟨q, _, hq, -, -⟩ := Binary64.lt_iff_value.1 hbeyond
    have hpos : 0 < mean := mean_pos (not_neg_of_mean? hmean) hzero hq
    have hlimit : 1 - c.threshold ≤ 1 - 1 :=
      Binary64.sub_le_sub_left rfl rfl (Config.isFinite_threshold hc) hge
    have hnone : (1 : Float) - 1 = 0 := by decide
    rw [hnone] at hlimit
    exact Binary64.not_div_neg ((Binary64.zero_le_iff_not_neg hvalue).2 hneg) hpos
      (Binary64.lt_of_lt_of_le hbeyond hlimit)
  | .baseline => rw [hverdict] at hflagged; cases hflagged
  | .unitDrift _ _ => rw [hverdict] at hflagged; cases hflagged
  | .discontinuity _ => rw [hverdict] at hflagged; cases hflagged
  | .nominal _ _ => rw [hverdict] at hflagged; cases hflagged

theorem Config.mem_of_override? {d : Direction} (h : c.override? tool = some d) :
    ∃ e ∈ c.directions, e.2 = d := by
  unfold Config.override? at h
  split at h
  · next hget =>
    cases h
    exact ⟨_, Keyed.mem_of_get? hget, rfl⟩
  · obtain ⟨e, he, hd⟩ := Option.map_eq_some_iff.1 h
    exact ⟨e, List.mem_of_find?_eq_some he, hd⟩

theorem Config.threshold_lt_of_override? (hc : c.problem? = none)
    (h : c.override? tool = some .biggerIsBetter) : c.threshold < 1 := by
  obtain ⟨e, he, hd⟩ := mem_of_override? h
  obtain ⟨a, ha⟩ := Binary64.exists_value? (isFinite_threshold hc)
  have hany : c.directions.any (fun e => e.2 = .biggerIsBetter) = true :=
    List.any_eq_true.2 ⟨e, he, by simpa using hd⟩
  unfold problem? at hc
  split_ifs at hc with _ _ hnever
  rw [not_and_or] at hnever
  exact Binary64.lt_of_not_le Binary64.value?_one ha (hnever.resolve_right (not_not_intro hany))

/--
Under settings of use, a tool can be flagged unless it has no direction set, its name promises that
more is better, and the threshold is one or more.
-/
theorem Config.canFlag_iff (hc : c.problem? = none) (tool : String) :
    c.CanFlag tool ↔
      ¬ (c.override? tool = none ∧ Direction.ofTool tool = .biggerIsBetter ∧
        1 ≤ c.threshold) := by
  obtain ⟨a, ha⟩ := Binary64.exists_value? (isFinite_threshold hc)
  constructor
  · rintro hflag ⟨hset, hname, hge⟩
    have hdirection : c.direction tool = .biggerIsBetter := by
      rw [direction, hset, Option.getD_none, hname]
    exact not_canFlag_of_threshold_ge hc hge hdirection hflag
  · intro hnot
    match hdirection : c.direction tool with
    | .smallerIsBetter => exact canFlag_of_smaller hc hdirection
    | .biggerIsBetter =>
      refine canFlag_of_threshold_lt hc ?_ hdirection
      unfold direction at hdirection
      match hset : c.override? tool with
      | some d =>
        rw [hset, Option.getD_some] at hdirection
        rw [hdirection] at hset
        exact threshold_lt_of_override? hc hset
      | none =>
        rw [hset, Option.getD_none] at hdirection
        refine Binary64.lt_of_not_le Binary64.value?_one ha fun hge => ?_
        exact hnot ⟨hset, hdirection, hge⟩

end

/-- Under a threshold of one and a half, a name decides unless a direction is set for it. -/
theorem Config.canFlag_iff_threshold_above_one :
    let c : Config := ⟨3, 1.5, some 2, [("CUSTOMbiggerisbetter", .smallerIsBetter)]⟩
    c.problem? = none ∧ c.CanFlag "cargo" ∧ c.CanFlag "customBiggerIsBetter" ∧
      ¬ c.CanFlag "otherBiggerIsBetter" := by
  intro c
  have hc : c.problem? = none := by decide
  refine ⟨hc, (canFlag_iff hc "cargo").2 ?_, (canFlag_iff hc "customBiggerIsBetter").2 ?_,
    fun hflag => (canFlag_iff hc "otherBiggerIsBetter").1 hflag ?_⟩
  · decide
  · decide
  · decide

/-- Settings of use under which a tool cannot be flagged because of its name. -/
theorem Config.not_canFlag_of_name :
    let c : Config := { Config.default with threshold := 1 }
    c.problem? = none ∧ ¬ c.CanFlag "customBiggerIsBetter" := by
  intro c
  have hc : c.problem? = none := by decide
  exact ⟨hc, not_canFlag_of_threshold_ge hc (by decide) (by decide)⟩

end BenchHistory.Detector
