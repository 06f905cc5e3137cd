import BenchHistory.Proofs.Float.Rounding

/-!
# Arithmetic keeps the order

A sum, a difference or a quotient of finite floats is the float nearest to the exact number
(`value?_add`, `value?_sub`, `value?_div`). As rounding is monotone, sums, differences and
quotients follow the order of their operands, also where one of them is infinite.
-/

namespace BenchHistory.Binary64

open Float.Model Float.Model.UnpackedFloat

variable {x x' y y' : Float} {a b : ℚ}

/-! ## Exact operations, rounded -/

theorem apply_decreaseExponent (s : Sign) (m : ℕ) {e t : ℤ} (ht : t ≤ e) :
    ((s.apply (decreaseExponent m e t).1 : ℤ) : ℚ) * 2 ^ t = factor s * (m * 2 ^ e) := by
  have hshift : (m : ℚ) * 2 ^ e = ((m <<< (e - t).toNat : ℕ) : ℚ) * 2 ^ t := by
    rw [Nat.shiftLeft_eq]
    push_cast
    rw [mul_assoc, ← zpow_natCast, ← zpow_add₀ two_ne_zero]
    congr 2
    omega
  rw [hshift]
  unfold decreaseExponent Sign.apply factor
  cases s
  · rw [Int.cast_neg, Int.cast_natCast]
    ring
  · rw [Int.cast_natCast, one_mul]

/-- A sum is the float nearest to the exact sum. -/
theorem value?_add (hx : x.isFinite = true) (hy : y.isFinite = true) (ha : value? x = some a)
    (hb : value? y = some b) : value? (x + y) = some (toNearest (a + b)) := by
  have hxround := toNearest_value hx ha
  have hyround := toNearest_value hy hb
  show value? (packed (UnpackedFloat.add Format.binary64 (unpacked x) (unpacked y))) = _
  obtain ⟨s, hxu, rfl⟩ | ⟨s, m, e, hm, hxu, hc, he, rfl⟩ := value_cases hx ha
  · obtain ⟨t, hyu, rfl⟩ | ⟨t, n, f, hn, hyu, hd, hf, rfl⟩ := value_cases hy hb
    · rw [hxu, hyu, add_zero, toNearest_zero]
      cases s <;> cases t <;> rfl
    · rw [zero_add, hyround, hxu, hyu]
      exact value?_packed_finite t hn hd hf
  · obtain ⟨t, hyu, rfl⟩ | ⟨t, n, f, hn, hyu, hd, hf, rfl⟩ := value_cases hy hb
    · rw [add_zero, hxround, hxu, hyu]
      exact value?_packed_finite s hm hc he
    · rw [hxu, hyu, ← apply_decreaseExponent s m (min_le_left e f),
        ← apply_decreaseExponent t n (min_le_right e f), ← add_mul, ← Int.cast_add]
      exact value?_packed_normalize _ _

theorem sub_unpacked (u v : UnpackedFloat) :
    UnpackedFloat.sub Format.binary64 u v = UnpackedFloat.add Format.binary64 u v.neg := by
  cases u with
  | finite s m e hm =>
    cases v with
    | finite t n f hn =>
      have hneg : ∀ k : ℤ, (-t).apply k = -t.apply k := by
        intro k
        cases t
        · exact (neg_neg k).symm
        · rfl
      show UnpackedFloat.normalize _ (_ - _) _ _ = UnpackedFloat.normalize _ (_ + _) _ _
      rw [hneg, sub_eq_add_neg]
    | _ => rfl
  | _ => cases v <;> rfl

theorem factor_neg (s : Sign) : factor (-s) = -factor s := by
  cases s
  · exact (neg_neg (1 : ℚ)).symm
  · rfl

theorem value?_neg (hy : y.isFinite = true) (hb : value? y = some b) : value? (-y) = some (-b) := by
  unfold value?
  rw [unpacked_neg hy]
  obtain ⟨t, hyu, rfl⟩ | ⟨t, n, f, hn, hyu, -, -, rfl⟩ := value_cases hy hb
  · rw [hyu, neg_zero]
    rfl
  · rw [hyu]
    show some (factor (-t) * _) = _
    rw [factor_neg, neg_mul]

/-- A difference is the float nearest to the exact difference. -/
theorem value?_sub (hx : x.isFinite = true) (hy : y.isFinite = true) (ha : value? x = some a)
    (hb : value? y = some b) : value? (x - y) = some (toNearest (a - b)) := by
  have hneg : x - y = x + -y := by
    show packed (UnpackedFloat.sub Format.binary64 (unpacked x) (unpacked y)) =
      packed (UnpackedFloat.add Format.binary64 (unpacked x) (unpacked (-y)))
    rw [unpacked_neg hy, sub_unpacked]
  rw [hneg, sub_eq_add_neg]
  exact value?_add hx (isFinite_neg hy) ha (value?_neg hy hb)

theorem factor_div (s t : Sign) : factor (s / t) = factor s / factor t := by
  cases s <;> cases t
  · show (1 : ℚ) = -1 / -1
    norm_num
  · show (-1 : ℚ) = -1 / 1
    norm_num
  · show (-1 : ℚ) = 1 / -1
    norm_num
  · show (1 : ℚ) = 1 / 1
    norm_num

/-- A quotient is the float nearest to the exact quotient. -/
theorem value?_div (hx : x.isFinite = true) (hy : y.isFinite = true) (ha : value? x = some a)
    (hb : value? y = some b) (hne : b ≠ 0) : value? (x / y) = some (toNearest (a / b)) := by
  show value? (packed (UnpackedFloat.div Format.binary64 (unpacked x) (unpacked y))) = _
  obtain ⟨t, -, rfl⟩ | ⟨t, n, f, hn, hyu, -, -, rfl⟩ := value_cases hy hb
  · exact absurd rfl hne
  obtain ⟨s, hxu, rfl⟩ | ⟨s, m, e, hm, hxu, -, -, rfl⟩ := value_cases hx ha
  · rw [hxu, hyu, zero_div, toNearest_zero]
    exact value?_packed_zero (s / t)
  · have hsign : factor s * (m * 2 ^ e) / (factor t * (n * 2 ^ f)) =
        factor (s / t) * (m * 2 ^ e / (n * 2 ^ f)) := by
      rw [factor_div, mul_div_mul_comm]
    rw [hxu, hyu, div_eq_nearest, value?_packed_nearest _ (by positivity), hsign,
      toNearest_factor _ (by positivity)]

theorem exists_value?_of_div (hq : value? (x / y) = some a) : ∃ b, value? y = some b := by
  match hyu : unpacked y with
  | .notANumber =>
    have hnone : x / y = packed .notANumber := by
      show packed (UnpackedFloat.div Format.binary64 (unpacked x) (unpacked y)) = _
      rw [hyu]
      cases unpacked x <;> rfl
    rw [hnone] at hq
    cases hq
  | .infinity _ => exact ⟨_, congrArg number? hyu⟩
  | .zero _ => exact ⟨_, congrArg number? hyu⟩
  | .finite _ _ _ _ => exact ⟨_, congrArg number? hyu⟩

theorem value?_div_infinity (hx : x.isFinite = true) {t : Sign} (hy : unpacked y = .infinity t) :
    value? (x / y) = some 0 := by
  show value? (packed (UnpackedFloat.div Format.binary64 (unpacked x) (unpacked y))) = _
  rw [hy]
  obtain ⟨s, hxu⟩ | ⟨s, m, e, hm, hxu⟩ := unpacked_cases hx
  · rw [hxu]
    exact value?_packed_zero (s / t)
  · rw [hxu]
    exact value?_packed_zero (s / t)

/-- A float that is not below zero and not finite is the positive infinite one. -/
theorem unpacked_of_nonneg (hnonneg : 0 ≤ x) (hx : x.isFinite ≠ true) :
    unpacked x = .infinity .positive := by
  rw [le_iff, unpacked_zero] at hnonneg
  rw [isFinite_eq] at hx
  match hxu : unpacked x with
  | .notANumber => rw [hxu] at hnonneg; cases hnonneg
  | .infinity .negative => rw [hxu] at hnonneg; cases hnonneg
  | .infinity .positive => rfl
  | .zero _ => rw [hxu] at hx; exact absurd rfl hx
  | .finite _ _ _ _ => rw [hxu] at hx; exact absurd rfl hx

theorem unpacked_of_pos (hpos : 0 < x) (hx : x.isFinite = true) :
    ∃ m e hm, unpacked x = .finite .positive m e hm := by
  rw [lt_iff, unpacked_zero] at hpos
  obtain ⟨s, hxu⟩ | ⟨s, m, e, hm, hxu⟩ := unpacked_cases hx
  · rw [hxu] at hpos
    cases hpos
  · rw [hxu] at hpos
    cases s
    · cases hpos
    · exact ⟨m, e, hm, hxu⟩

/-- The infinite float divided by a positive one is infinite or no number. -/
theorem value?_infinity_div (hx : unpacked x = .infinity .positive) (hpos : 0 < y) :
    value? (x / y) = none ∨ value? (x / y) = some limit := by
  have hquotient : x / y =
      packed (UnpackedFloat.div Format.binary64 (.infinity .positive) (unpacked y)) := by
    rw [← hx]
    rfl
  rw [hquotient]
  by_cases hy : y.isFinite = true
  · obtain ⟨n, f, hn, hyu⟩ := unpacked_of_pos hpos hy
    right
    rw [hyu, ← one_mul limit]
    exact value?_packed_infinity .positive
  · rw [unpacked_of_nonneg (Binary64.le_of_lt hpos) hy]
    exact .inl rfl

/-! ## Order -/

protected theorem add_le_add_left (hx : x.isFinite = true) (hy : y.isFinite = true)
    (hy' : y'.isFinite = true) (hle : y ≤ y') : x + y ≤ x + y' := by
  obtain ⟨a, ha⟩ := exists_value? hx
  obtain ⟨b, b', hb, hb', hbb'⟩ := le_iff_value.1 hle
  rw [le_iff_of_value (value?_add hx hy ha hb) (value?_add hx hy' ha hb')]
  apply toNearest_mono
  linarith

protected theorem sub_le_sub_left (hx : x.isFinite = true) (hy : y.isFinite = true)
    (hy' : y'.isFinite = true) (hle : y ≤ y') : x - y' ≤ x - y := by
  obtain ⟨a, ha⟩ := exists_value? hx
  obtain ⟨b, b', hb, hb', hbb'⟩ := le_iff_value.1 hle
  rw [le_iff_of_value (value?_sub hx hy' ha hb') (value?_sub hx hy ha hb)]
  apply toNearest_mono
  linarith

protected theorem add_nonneg (hx : 0 ≤ x) (hy : y.isFinite = true) (hnonneg : 0 ≤ y) :
    0 ≤ x + y := by
  obtain ⟨b, hb⟩ := exists_value? hy
  by_cases hfinite : x.isFinite = true
  · obtain ⟨a, ha⟩ := exists_value? hfinite
    rw [le_iff_of_value value?_zero (value?_add hfinite hy ha hb)]
    apply toNearest_nonneg
    linarith [value_nonneg hx ha, value_nonneg hnonneg hb]
  · have hinfinite : value? (x + y) = some (1 * limit) := by
      show value? (packed (UnpackedFloat.add Format.binary64 (unpacked x) (unpacked y))) = _
      rw [unpacked_of_nonneg hx hfinite]
      obtain ⟨t, hyu⟩ | ⟨t, n, f, hn, hyu⟩ := unpacked_cases hy
      · rw [hyu]
        exact value?_packed_infinity .positive
      · rw [hyu]
        exact value?_packed_infinity .positive
    rw [le_iff_of_value value?_zero hinfinite, one_mul]
    exact limit_pos.le

/-- A quotient by a positive float grows with what is divided. -/
protected theorem div_le_div_right (hx : x.isFinite = true) (hx' : x'.isFinite = true)
    (hle : x ≤ x') (hpos : 0 < y) : x / y ≤ x' / y := by
  obtain ⟨a, a', ha, ha', haa'⟩ := le_iff_value.1 hle
  by_cases hy : y.isFinite = true
  · obtain ⟨b, hb⟩ := exists_value? hy
    have hbpos := value_pos hpos hb
    rw [le_iff_of_value (value?_div hx hy ha hb hbpos.ne') (value?_div hx' hy ha' hb hbpos.ne')]
    apply toNearest_mono
    gcongr
  · have hinfinite := unpacked_of_nonneg (Binary64.le_of_lt hpos) hy
    rw [le_iff_of_value (value?_div_infinity hx hinfinite) (value?_div_infinity hx' hinfinite)]

protected theorem div_le_one (hx : x.isFinite = true) (hpos : 0 < y) (hle : x ≤ y) : x / y ≤ 1 := by
  obtain ⟨a, b, ha, hb, hab⟩ := le_iff_value.1 hle
  have hbpos := value_pos hpos hb
  by_cases hy : y.isFinite = true
  · rw [le_iff_of_value (value?_div hx hy ha hb hbpos.ne') value?_one, ← toNearest_one]
    apply toNearest_mono
    rw [div_le_one₀ hbpos]
    exact hab
  · have hinfinite := unpacked_of_nonneg (Binary64.le_of_lt hpos) hy
    rw [le_iff_of_value (value?_div_infinity hx hinfinite) value?_one]
    exact zero_le_one

protected theorem one_le_div (hx : x.isFinite = true) (hpos : 0 < y) (hle : y ≤ x) : 1 ≤ x / y := by
  obtain ⟨b, a, hb, ha, hba⟩ := le_iff_value.1 hle
  have hbpos := value_pos hpos hb
  have hy : y.isFinite = true := by
    by_contra hy
    have hlimit : value? y = some (1 * limit) :=
      congrArg number? (unpacked_of_nonneg (Binary64.le_of_lt hpos) hy)
    cases hb.symm.trans hlimit
    have hlt := value_lt_limit hx ha
    linarith
  rw [le_iff_of_value value?_one (value?_div hx hy ha hb hbpos.ne'), ← toNearest_one]
  apply toNearest_mono
  rw [one_le_div₀ hbpos]
  exact hba

/-- A quotient by a positive float has the sign of what is divided, if it is a number. -/
theorem not_div_neg (hx : 0 ≤ x) (hpos : 0 < y) : ¬ x / y < 0 := by
  by_cases hxfinite : x.isFinite = true
  · obtain ⟨a, ha⟩ := exists_value? hxfinite
    by_cases hyfinite : y.isFinite = true
    · obtain ⟨b, hb⟩ := exists_value? hyfinite
      have hbpos := value_pos hpos hb
      rw [lt_iff_of_value (value?_div hxfinite hyfinite ha hb hbpos.ne') value?_zero, not_lt]
      exact toNearest_nonneg (div_nonneg (value_nonneg hx ha) hbpos.le)
    · have hinfinite := unpacked_of_nonneg (Binary64.le_of_lt hpos) hyfinite
      rw [lt_iff_of_value (value?_div_infinity hxfinite hinfinite) value?_zero]
      exact lt_irrefl 0
  · intro hneg
    rcases value?_infinity_div (unpacked_of_nonneg hx hxfinite) hpos with hnone | hlarge
    · obtain ⟨q, _, hq, -, -⟩ := lt_iff_value.1 hneg
      cases hq.symm.trans hnone
    · rw [lt_iff_of_value hlarge value?_zero] at hneg
      exact hneg.not_gt limit_pos

/-- What a float below one lacks to one is not too small. -/
theorem le_one_sub_value {x : Float} {a : ℚ} (hx : x.isFinite = true) (hpos : 0 < x)
    (ha : value? x = some a) (hlt : a < 1) : (2 : ℚ) ^ (-1074 : ℤ) ≤ 1 - a := by
  obtain ⟨m, e, hm, hunpacked⟩ := unpacked_of_pos hpos hx
  obtain ⟨hc, -⟩ := canonical_of_unpacked hunpacked
  have hvalue : a = 1 * (m * 2 ^ e) := by
    unfold value? at ha
    rw [hunpacked] at ha
    exact (Option.some.inj ha).symm
  rw [one_mul] at hvalue
  have hlow : -1074 ≤ e := by
    unfold Canonical at hc
    omega
  have hone : (1 : ℚ) ≤ m := by exact_mod_cast hm
  have he : e < 0 := by
    by_contra hnonneg
    have hpow : (1 : ℚ) ≤ 2 ^ e := one_le_zpow₀ one_le_two (not_lt.1 hnonneg)
    have : (1 : ℚ) ≤ m * 2 ^ e := one_le_mul_of_one_le_of_one_le hone hpow
    linarith
  obtain ⟨k, rfl⟩ : ∃ k : ℕ, e = -k := ⟨e.natAbs, by omega⟩
  have hunits : (2 : ℚ) ^ k * 2 ^ (-k : ℤ) = 1 := by
    rw [zpow_neg, zpow_natCast, mul_inv_cancel₀ (by positivity)]
  have hfewer : m + 1 ≤ 2 ^ k := by
    rw [hvalue, ← hunits] at hlt
    exact_mod_cast lt_of_mul_lt_mul_right hlt (by positivity)
  have hfewer' : (m : ℚ) + 1 ≤ 2 ^ k := by exact_mod_cast hfewer
  calc (2 : ℚ) ^ (-1074 : ℤ) ≤ 2 ^ (-k : ℤ) := zpow_le_zpow_right₀ one_le_two hlow
    _ ≤ (2 ^ k - m) * 2 ^ (-k : ℤ) := le_mul_of_one_le_left (by positivity) (by linarith)
    _ = 1 - a := by rw [sub_mul, hunits, hvalue]

theorem one_sub_pos {x : Float} (hx : x.isFinite = true) (hpos : 0 < x) (hlt : x < 1) :
    0 < 1 - x := by
  obtain ⟨a, b, ha, hb, hab⟩ := lt_iff_value.1 hlt
  cases value?_one.symm.trans hb
  rw [lt_iff_of_value value?_zero (value?_sub rfl hx value?_one ha)]
  exact toNearest_pos (le_one_sub_value hx hpos ha hab)

end BenchHistory.Binary64
