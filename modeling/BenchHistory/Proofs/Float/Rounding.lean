import BenchHistory.Proofs.Float.Value

/-!
# Rounding keeps the order

`toNearest` is the number of the float that a number is rounded to. It is monotone
(`toNearest_mono`) and leaves the numbers of finite floats alone (`toNearest_value`).
-/

namespace BenchHistory.Binary64

open Float.Model Float.Model.UnpackedFloat

/-! ## The significand -/

theorem roundedMantissa_down (k : ℕ) (more : Bool) :
    (ExtendedMantissa.mk k false more).roundedMantissa = k := by
  cases more <;> rfl

theorem roundedMantissa_half (k : ℕ) :
    (ExtendedMantissa.mk k true false).roundedMantissa = k + k % 2 := rfl

theorem roundedMantissa_up (k : ℕ) :
    (ExtendedMantissa.mk k true true).roundedMantissa = k + 1 := rfl

/-- Rounding to a whole number is off by a half at most. -/
theorem abs_roundedMantissa_sub_le {x : ℚ} (hx : 0 ≤ x) :
    |((extended x).roundedMantissa : ℚ) - x| ≤ 1 / 2 := by
  have hfloor : ⌊x⌋₊ = ⌊2 * x⌋₊ / 2 := by
    rw [← Nat.floor_div_ofNat, mul_div_cancel_left₀ x two_ne_zero]
  have hlow : (⌊2 * x⌋₊ : ℚ) ≤ 2 * x := Nat.floor_le (by positivity)
  have hhigh : 2 * x < ⌊2 * x⌋₊ + 1 := Nat.lt_floor_add_one _
  unfold extended
  rw [hfloor]
  generalize ⌊2 * x⌋₊ = d at hlow hhigh
  have hsplit : (d : ℚ) = 2 * (d / 2 : ℕ) + (d % 2 : ℕ) := by
    exact_mod_cast (Nat.div_add_mod d 2).symm
  rw [abs_le]
  rcases Nat.mod_two_eq_zero_or_one d with hbit | hbit
  · rw [hbit] at hsplit ⊢
    rw [bne_self_eq_false, roundedMantissa_down]
    push_cast at hsplit
    constructor <;> linarith
  · rw [hbit] at hsplit ⊢
    rw [show ((1 : ℕ) != 0) = true from rfl]
    push_cast at hsplit
    by_cases hexact : (d : ℚ) = 2 * x
    · have hle : ((d / 2 % 2 : ℕ) : ℚ) ≤ 1 := by
        exact_mod_cast Nat.lt_succ_iff.1 (Nat.mod_lt _ Nat.two_pos)
      have hnonneg : (0 : ℚ) ≤ (d / 2 % 2 : ℕ) := Nat.cast_nonneg _
      rw [decide_eq_false (not_not_intro hexact), roundedMantissa_half, Nat.cast_add]
      constructor <;> linarith
    · rw [decide_eq_true hexact, roundedMantissa_up, Nat.cast_add]
      push_cast
      constructor <;> linarith

theorem roundedMantissa_le {x y : ℚ} (hx : 0 ≤ x) (hxy : x ≤ y) :
    (extended x).roundedMantissa ≤ (extended y).roundedMantissa := by
  by_contra hnot
  have hstep : ((extended y).roundedMantissa : ℚ) + 1 ≤ (extended x).roundedMantissa := by
    exact_mod_cast Nat.lt_of_not_le hnot
  have hxerror := abs_le.1 (abs_roundedMantissa_sub_le hx)
  have hyerror := abs_le.1 (abs_roundedMantissa_sub_le (hx.trans hxy))
  -- a whole step apart leaves no room but for one number between both
  have hsame : x = y := by linarith
  rw [hsame] at hnot
  exact hnot le_rfl

theorem two_pow_mul_ulp_le {q : ℚ} (hq : 0 < q) (hulp : -1074 < ulp q) :
    2 ^ 52 * 2 ^ ulp q ≤ q := by
  have hlog : Int.log 2 q = ulp q + 52 := by
    unfold ulp at hulp ⊢
    omega
  calc (2 : ℚ) ^ 52 * 2 ^ ulp q = ((2 : ℕ) : ℚ) ^ Int.log 2 q := by
        rw [hlog, Nat.cast_ofNat, zpow_add₀ two_ne_zero, mul_comm]
        norm_num
    _ ≤ q := Int.zpow_log_le_self Nat.one_lt_two hq

theorem lt_two_pow_mul_ulp (q : ℚ) : q < 2 ^ 53 * 2 ^ ulp q := by
  have hquot := quotient_ulp_lt q
  rwa [div_lt_iff₀ (by positivity)] at hquot

theorem two_pow_le_significand {q : ℚ} (hq : 0 < q) (hulp : -1074 < ulp q) :
    2 ^ 52 ≤ significand q := by
  have hquot : ((2 ^ 52 : ℕ) : ℚ) ≤ q / 2 ^ ulp q := by
    rw [le_div_iff₀ (by positivity)]
    push_cast
    exact two_pow_mul_ulp_le hq hulp
  exact (Nat.le_floor hquot).trans (roundedMantissa_bounds (extended (q / 2 ^ ulp q))).1

/-! ## The nearest number -/

/-- The number nearest to a positive one that has no more digits than floats have. -/
def near (q : ℚ) : ℚ := significand q * 2 ^ ulp q

theorem near_nonneg (q : ℚ) : 0 ≤ near q := by
  unfold near
  positivity

theorem near_le_near {q r : ℚ} (hq : 0 < q) (hqr : q ≤ r) : near q ≤ near r := by
  have hr : 0 < r := hq.trans_le hqr
  have hlog : Int.log 2 q ≤ Int.log 2 r := Int.log_mono_right hq hqr
  have hulp : ulp q ≤ ulp r := max_le_max_right _ (Int.sub_le_sub_right hlog 52)
  unfold near
  rcases hulp.eq_or_lt with heq | hlt
  · rw [heq]
    have hsignificand : significand q ≤ significand r := by
      unfold significand
      rw [heq]
      exact roundedMantissa_le (by positivity) (by gcongr)
    gcongr
  · have hlow : -1074 < ulp r := (le_max_right _ _).trans_lt hlt
    have hq' : (significand q : ℚ) ≤ 2 ^ 53 := by exact_mod_cast significand_le hq
    have hr' : (2 : ℚ) ^ 52 ≤ significand r := by exact_mod_cast two_pow_le_significand hr hlow
    calc (significand q : ℚ) * 2 ^ ulp q ≤ 2 ^ 53 * 2 ^ ulp q := by gcongr
      _ ≤ significand r * 2 ^ ulp r := two_pow_mul_zpow_le hlt hr'

theorem abs_near_sub_le {q : ℚ} (hq : 0 < q) : |near q - q| ≤ 2 ^ ulp q / 2 := by
  have herror := abs_roundedMantissa_sub_le (x := q / 2 ^ ulp q) (by positivity)
  have hpos : (0 : ℚ) < 2 ^ ulp q := by positivity
  have hsplit : near q - q = (significand q - q / 2 ^ ulp q) * 2 ^ ulp q := by
    unfold near
    field_simp
  rw [hsplit, abs_mul, abs_of_pos hpos]
  calc |(significand q : ℚ) - q / 2 ^ ulp q| * 2 ^ ulp q ≤ 1 / 2 * 2 ^ ulp q :=
        mul_le_mul_of_nonneg_right herror hpos.le
    _ = 2 ^ ulp q / 2 := by ring

theorem abs_near_sub_le_of_one_le {q : ℚ} (hq : 1 ≤ q) : 2 ^ 53 * |near q - q| ≤ q := by
  have hpos : 0 < q := one_pos.trans_le hq
  have hlog : 0 ≤ Int.log 2 q := (Int.log_one_right 2).symm.trans_le (Int.log_mono_right one_pos hq)
  have hulp : -1074 < ulp q := by
    unfold ulp
    omega
  have herror := abs_near_sub_le hpos
  have hunit := two_pow_mul_ulp_le hpos hulp
  linarith

theorem mul_eq_mul_of_abs_sub_lt {m n : ℕ} {u : ℚ} (hu : 0 < u)
    (h : |(m : ℚ) * u - n * u| < u) : (m : ℚ) * u = n * u := by
  rw [← sub_mul, abs_mul, abs_of_pos hu, mul_lt_iff_lt_one_left hu] at h
  have hint : |(m : ℤ) - n| < 1 := by exact_mod_cast h
  have hsame : m = n := by
    rw [Int.abs_lt_one_iff] at hint
    omega
  rw [hsame]

/-- What is as close to a number of a float as this is rounded to it. -/
theorem near_eq_of_close {m : ℕ} (hm : 0 < m) {e : ℤ} (hc : Canonical m e) {q : ℚ} (hq : 0 < q)
    (hclose : 2 ^ 54 * |q - m * 2 ^ e| < m * 2 ^ e) : near q = m * 2 ^ e := by
  have hm' : (m : ℚ) + 1 ≤ 2 ^ 53 := by exact_mod_cast hc.lt_two_pow hm
  have hunit : (0 : ℚ) < 2 ^ e := by positivity
  have hhalf : |q - m * 2 ^ e| < 2 ^ e / 2 := by nlinarith
  have herror := abs_near_sub_le hq
  rcases lt_trichotomy (ulp q) e with hlt | heq | hgt
  · -- just below a power of two the units are half as large
    have hlow : -1074 ≤ ulp q := le_max_right _ _
    have hm'' : (2 : ℚ) ^ 52 ≤ m := by exact_mod_cast hc.two_pow_le hm (by omega)
    have hbelow := lt_two_pow_mul_ulp q
    have hunit' : (0 : ℚ) < 2 ^ ulp q := by positivity
    have hdistance := (abs_lt.1 hhalf).1
    have hnext : ulp q = e - 1 := by
      by_contra hne
      have hstep : (2 : ℚ) ^ ulp q * 2 ^ 2 ≤ 2 ^ e := by
        rw [← zpow_natCast, ← zpow_add₀ two_ne_zero]
        exact zpow_le_zpow_right₀ one_le_two (by push_cast; omega)
      nlinarith
    have hdouble : (2 : ℚ) ^ e = 2 ^ ulp q * 2 := by
      rw [← zpow_add_one₀ two_ne_zero, hnext, sub_add_cancel]
    have hleast : m = 2 ^ 52 := by
      have hlt : (m : ℚ) < 2 ^ 52 + 1 := by nlinarith
      have hlt' : m < 2 ^ 52 + 1 := by exact_mod_cast hlt
      have hle : 2 ^ 52 ≤ m := by exact_mod_cast hm''
      omega
    have hvalue : (m : ℚ) * 2 ^ e = (2 ^ 53 : ℕ) * 2 ^ ulp q := by
      rw [hleast, hdouble]
      push_cast
      ring
    rw [hvalue] at hclose ⊢
    have hquarter : |q - (2 ^ 53 : ℕ) * 2 ^ ulp q| < 2 ^ ulp q / 2 := by
      push_cast at hclose ⊢
      linarith
    refine mul_eq_mul_of_abs_sub_lt hunit' ?_
    calc |near q - (2 ^ 53 : ℕ) * 2 ^ ulp q|
        ≤ |near q - q| + |q - (2 ^ 53 : ℕ) * 2 ^ ulp q| := abs_sub_le _ _ _
      _ < 2 ^ ulp q / 2 + 2 ^ ulp q / 2 := add_lt_add_of_le_of_lt herror hquarter
      _ = 2 ^ ulp q := add_halves _
  · have hsame : |near q - m * 2 ^ e| < 2 ^ e := by
      rw [heq] at herror
      calc |near q - m * 2 ^ e| ≤ |near q - q| + |q - m * 2 ^ e| := abs_sub_le _ _ _
        _ < 2 ^ e / 2 + 2 ^ e / 2 := add_lt_add_of_le_of_lt herror hhalf
        _ = 2 ^ e := add_halves _
    unfold near at hsame ⊢
    rw [heq] at hsame ⊢
    exact mul_eq_mul_of_abs_sub_lt hunit hsame
  · have hlow : -1074 ≤ e := by
      unfold Canonical at hc
      omega
    have habove := two_pow_mul_ulp_le hq (by omega)
    have hstep : (2 : ℚ) ^ e * 2 ≤ 2 ^ ulp q := by
      rw [← zpow_add_one₀ two_ne_zero]
      exact zpow_le_zpow_right₀ one_le_two (by omega)
    have hhigh := (abs_lt.1 hhalf).2
    nlinarith

/-- The nearest float in its parts. -/
theorem nearest_shape (s : Sign) {q : ℚ} (hq : 0 < q) :
    (nearest s q = .zero s ∧ near q = 0) ∨
      ∃ m e hm, nearest s q = .finite s m e hm ∧ Canonical m e ∧ (m : ℚ) * 2 ^ e = near q := by
  have hle := significand_le hq
  have hlow : -1074 < ulp q → 2 ^ 52 ≤ significand q := two_pow_le_significand hq
  have hulp : -1074 ≤ ulp q := le_max_right _ _
  rw [nearest_eq]
  unfold near
  generalize significand q = g at hle hlow
  by_cases hzero : g = 0
  · subst hzero
    exact .inl ⟨rfl, by simp⟩
  right
  by_cases hfull : g = 2 ^ 53
  · subst hfull
    have hlog : (2 ^ 53 : ℕ).log2 = 53 := Nat.log2_two_pow
    have hlog' : (2 ^ 52 : ℕ).log2 = 52 := Nat.log2_two_pow
    refine ⟨2 ^ 52, ulp q + 1, by norm_num, ?_, ?_, ?_⟩
    · rw [hlog]
      rfl
    · unfold Canonical
      rw [hlog']
      push_cast
      omega
    · rw [zpow_add_one₀ two_ne_zero]
      push_cast
      ring
  · have hlog : g.log2 < 53 := (Nat.log2_lt hzero).2 (by omega)
    have hshift : g.log2 - 52 = 0 := by omega
    refine ⟨g, ulp q, Nat.pos_of_ne_zero hzero, ?_, ?_, rfl⟩
    · rw [dif_neg]
      · refine finite_congr ?_ ?_
        · rw [hshift, pow_zero, Nat.div_one]
        · rw [hshift, Nat.cast_zero, add_zero]
      · rw [hshift, pow_zero, Nat.div_one]
        exact hzero
    · unfold Canonical
      by_cases hmin : ulp q = -1074
      · omega
      · have hlog' : 52 ≤ g.log2 := (Nat.le_log2 hzero).2 (hlow (by omega))
        omega

theorem value?_packed_zero (s : Sign) : value? (packed (.zero s)) = some 0 := by
  unfold value?
  rw [unpacked_packed_zero]
  rfl

theorem value?_packed_infinity (s : Sign) :
    value? (packed (.infinity s)) = some (factor s * limit) := by
  cases s <;> rfl

theorem value?_packed_finite (s : Sign) {m : ℕ} (hm : 0 < m) {e : ℤ} (hc : Canonical m e)
    (he : e ≤ 971) : value? (packed (.finite s m e hm)) = some (factor s * (m * 2 ^ e)) := by
  unfold value?
  rw [unpacked_packed_of_canonical s hm hc he]
  rfl

/-- Rounding gives the nearest number, or an infinite float where that is too large. -/
theorem value?_packed_nearest (s : Sign) {q : ℚ} (hq : 0 < q) :
    value? (packed (nearest s q)) = some (factor s * min (near q) limit) := by
  obtain ⟨hnearest, hnear⟩ | ⟨m, e, hm, hnearest, hc, hnear⟩ := nearest_shape s hq
  · rw [hnearest, hnear, value?_packed_zero, min_eq_left limit_pos.le, mul_zero]
  rw [hnearest, ← hnear]
  by_cases he : e ≤ 971
  · rw [value?_packed_finite s hm hc he, min_eq_left (mul_zpow_lt_limit hm hc he).le]
  · have hlow : (2 : ℚ) ^ 52 ≤ m := by exact_mod_cast hc.two_pow_le hm (by omega)
    have hlarge : limit ≤ m * 2 ^ e := by
      calc limit = 2 ^ 52 * 2 ^ (972 : ℤ) := limit_eq_mul 52
        _ ≤ m * 2 ^ e := by
            gcongr
            · norm_num
            · omega
    rw [packed_of_large s hm (by omega), value?_packed_infinity, min_eq_right hlarge]

/-- The number of the float nearest to a number. -/
def toNearest (a : ℚ) : ℚ :=
  if 0 < a then min (near a) limit else if a < 0 then -min (near (-a)) limit else 0

theorem toNearest_zero : toNearest 0 = 0 := rfl

theorem near_eq_toNearest {q : ℚ} (hq : 0 < q) (hlt : toNearest q < limit) :
    near q = toNearest q := by
  unfold toNearest at hlt ⊢
  rw [if_pos hq] at hlt ⊢
  rw [min_lt_iff, or_iff_left (lt_irrefl limit)] at hlt
  exact (min_eq_left hlt.le).symm

theorem toNearest_factor (s : Sign) {q : ℚ} (hq : 0 < q) :
    toNearest (factor s * q) = factor s * min (near q) limit := by
  unfold toNearest
  cases s <;> simp only [factor, one_mul, neg_one_mul, neg_neg]
  · rw [if_neg (by linarith), if_pos (by linarith)]
  · rw [if_pos hq]

theorem toNearest_nonneg {a : ℚ} (ha : 0 ≤ a) : 0 ≤ toNearest a := by
  unfold toNearest
  rw [if_neg ha.not_gt]
  split
  · exact le_min (near_nonneg a) limit_pos.le
  · exact le_rfl

theorem toNearest_nonpos {a : ℚ} (ha : a ≤ 0) : toNearest a ≤ 0 := by
  unfold toNearest
  rw [if_neg ha.not_gt]
  split
  · exact neg_nonpos.2 (le_min (near_nonneg (-a)) limit_pos.le)
  · exact le_rfl

/-- Rounding is monotone. -/
theorem toNearest_mono : Monotone toNearest := by
  intro a b hab
  rcases le_or_gt a 0 with ha | ha
  · rcases le_or_gt 0 b with hb | hb
    · exact (toNearest_nonpos ha).trans (toNearest_nonneg hb)
    · have hnear : near (-b) ≤ near (-a) := near_le_near (by linarith) (by linarith)
      unfold toNearest
      rw [if_neg (by linarith), if_pos (hab.trans_lt hb), if_neg (by linarith), if_pos hb]
      exact neg_le_neg (min_le_min_right limit hnear)
  · have hnear : near a ≤ near b := near_le_near ha hab
    unfold toNearest
    rw [if_pos ha, if_pos (ha.trans_le hab)]
    exact min_le_min_right limit hnear

theorem toNearest_pos {q : ℚ} (hq : 2 ^ (-1074 : ℤ) ≤ q) : 0 < toNearest q := by
  have hpos : 0 < q := lt_of_lt_of_le (by positivity) hq
  obtain ⟨m, e, hm, hnearest, -, -⟩ := nearest_of_le (s := .positive) hq
  have hnear : 0 < near q := by
    obtain ⟨hzero, -⟩ | ⟨m', e', hm', -, -, hvalue⟩ := nearest_shape .positive hpos
    · rw [hnearest] at hzero
      cases hzero
    · rw [← hvalue]
      positivity
  unfold toNearest
  rw [if_pos hpos]
  exact lt_min hnear limit_pos

variable {x y : Float} {a b : ℚ}

/-- The number of a finite float needs no rounding. -/
theorem toNearest_value (hx : x.isFinite = true) (ha : value? x = some a) : toNearest a = a := by
  obtain ⟨s, -, rfl⟩ | ⟨s, m, e, hm, -, hc, he, rfl⟩ := value_cases hx ha
  · exact toNearest_zero
  · have hvalue := value?_packed_nearest s (q := m * 2 ^ e) (by positivity)
    rw [nearest_of_canonical s hm hc, value?_packed_finite s hm hc he] at hvalue
    rw [toNearest_factor s (by positivity)]
    exact (Option.some.inj hvalue).symm

theorem toNearest_one : toNearest 1 = 1 := toNearest_value (by decide +kernel) value?_one

theorem value?_rounded {q : ℚ} (hq : 0 < q) : value? (rounded q) = some (toNearest q) := by
  have hfactor := toNearest_factor .positive hq
  unfold rounded
  rw [value?_packed_nearest .positive hq, ← hfactor]
  unfold factor
  rw [one_mul]

theorem value?_packed_normalize (n : ℤ) (e : ℤ) :
    value? (packed (UnpackedFloat.normalize Format.binary64 n e .positive)) =
      some (toNearest (n * 2 ^ e)) := by
  unfold UnpackedFloat.normalize
  rcases lt_trichotomy n 0 with hneg | rfl | hpos
  · have hcast : (n : ℚ) = -((-n).toNat : ℚ) := by
      rw [← Int.cast_natCast, Int.toNat_of_nonneg (by omega)]
      push_cast
      ring
    have hm : 0 < (-n).toNat := by omega
    have hsign : (n : ℚ) * 2 ^ e = factor .negative * ((-n).toNat * 2 ^ e) := by
      rw [hcast]
      unfold factor
      ring
    rw [compare_lt_iff_lt.2 hneg, hsign, toNearest_factor .negative (by positivity)]
    show value? (packed (UnpackedFloat.round Format.binary64 .negative (-n).toNat e)) = _
    rw [round_eq_nearest .negative hm, value?_packed_nearest .negative (by positivity)]
  · rw [Int.cast_zero, zero_mul, toNearest_zero]
    exact value?_packed_zero .positive
  · have hcast : (n : ℚ) = (n.toNat : ℚ) := by
      rw [← Int.cast_natCast, Int.toNat_of_nonneg hpos.le]
    have hm : 0 < n.toNat := by omega
    have hsign : (n : ℚ) * 2 ^ e = factor .positive * (n.toNat * 2 ^ e) := by
      rw [hcast]
      unfold factor
      ring
    rw [compare_gt_iff_gt.2 hpos, hsign, toNearest_factor .positive (by positivity)]
    show value? (packed (UnpackedFloat.round Format.binary64 .positive n.toNat e)) = _
    rw [round_eq_nearest .positive hm, value?_packed_nearest .positive (by positivity)]

end BenchHistory.Binary64
