import BenchHistory.Proofs.Float.Bits

/-!
# Reading decimals

A decimal is read as the float nearest to its value (`toFloat_eq_rounded`), so how its digits
and its exponent are divided up does not matter (`toFloat_congr`).
-/

namespace BenchHistory.Decimal

open Binary64 Float.Model Float.Model.UnpackedFloat

/-- The value of a decimal. -/
def toRat (d : Decimal) : ℚ := d.digits * 10 ^ d.exponent

theorem toRat_pos {d : Decimal} (hd : d.digits ≠ 0) : 0 < d.toRat := by
  have hpos : 0 < d.digits := Nat.pos_of_ne_zero hd
  unfold toRat
  positivity

/-! ## Exact operands -/

/-- A small number written with 53 digits. -/
def full (m : ℕ) : ℕ := m * 2 ^ (52 - m.log2)

theorem full_pos {m : ℕ} (hm : 0 < m) : 0 < full m := by
  unfold full
  positivity

theorem log2_full {m : ℕ} (hm : 0 < m) (hsmall : m < 2 ^ 53) : (full m).log2 = 52 := by
  have hlog : m.log2 ≤ 52 := Nat.le_of_lt_succ ((Nat.log2_lt hm.ne').2 hsmall)
  have hlow : 2 ^ 52 = 2 ^ m.log2 * 2 ^ (52 - m.log2) := by
    rw [← pow_add]
    congr 1
    omega
  have hhigh : 2 ^ 53 = 2 ^ (m.log2 + 1) * 2 ^ (52 - m.log2) := by
    rw [← pow_add]
    congr 1
    omega
  rw [Nat.log2_eq_iff (full_pos hm).ne']
  unfold full
  constructor
  · rw [hlow]
    exact Nat.mul_le_mul_right _ (Nat.log2_self_le hm.ne')
  · rw [hhigh]
    exact Nat.mul_lt_mul_of_pos_right Nat.lt_log2_self (by positivity)

theorem full_mul_zpow (m j : ℕ) :
    (full m : ℚ) * 2 ^ ((j : ℤ) - (52 - m.log2 : ℕ)) = m * 2 ^ j := by
  unfold full
  rw [zpow_sub₀ (by norm_num), zpow_natCast, zpow_natCast]
  push_cast
  field_simp

theorem le_log2_full_mul {m n : ℕ} (hm : 0 < m) (hsmall : m < 2 ^ 53) (hn : 0 < n) :
    52 ≤ (full m * n).log2 := by
  have hfull : 2 ^ 52 ≤ full m := ((Nat.log2_eq_iff (full_pos hm).ne').1 (log2_full hm hsmall)).1
  rw [Nat.le_log2 (Nat.mul_pos (full_pos hm) hn).ne']
  exact hfull.trans (Nat.le_mul_of_pos_right _ hn)

theorem toFloat_toUInt64 {m : ℕ} (hm : 0 < m) (hsmall : m < 2 ^ 53) :
    m.toUInt64.toFloat = rounded m := by
  have hnat : m.toUInt64.toNat = m := by
    show m % 2 ^ 64 = m
    omega
  have hround : m.toUInt64.toFloat =
      packed (UnpackedFloat.normalize Format.binary64 (m.toUInt64.toNat : ℤ) 0 .positive) := rfl
  have horder : compare (m : ℤ) 0 = .gt := by
    rw [compare_gt_iff_gt]
    omega
  rw [hround, hnat]
  unfold UnpackedFloat.normalize rounded
  rw [horder]
  simp only [Int.toNat_natCast]
  rw [round_eq_nearest _ hm, zpow_zero, mul_one]

/-- Whole numbers of at most 53 digits are floats. -/
theorem unpacked_toUInt64 {m : ℕ} (hm : 0 < m) (hsmall : m < 2 ^ 53) :
    unpacked m.toUInt64.toFloat =
      .finite .positive (full m) (-(52 - m.log2 : ℕ)) (full_pos hm) := by
  have hvalue := full_mul_zpow m 0
  rw [Nat.cast_zero, zero_sub, pow_zero, mul_one] at hvalue
  have hc : Canonical (full m) (-(52 - m.log2 : ℕ)) := by
    unfold Canonical
    rw [log2_full hm hsmall]
    omega
  rw [toFloat_toUInt64 hm hsmall, ← hvalue, unpacked_rounded _ hc (by omega)]

theorem powerOfTen_eq : ∀ e : Fin 23, Float.exactlyRepresentablePowersOfTen[e] =
    packed (.finite .positive (full (5 ^ e.1)) (e.1 - (52 - (5 ^ e.1).log2 : ℕ))
      (full_pos (Nat.pow_pos Nat.succ_pos'))) := by
  decide +kernel

/-- So are the powers of ten in the table. -/
theorem unpacked_powerOfTen {e : ℕ} (he : e < Float.exactlyRepresentablePowersOfTen.size) :
    unpacked Float.exactlyRepresentablePowersOfTen[e] =
      .finite .positive (full (5 ^ e)) (e - (52 - (5 ^ e).log2 : ℕ))
        (full_pos (Nat.pow_pos Nat.succ_pos')) := by
  have hsize : Float.exactlyRepresentablePowersOfTen.size = 23 := rfl
  rw [hsize] at he
  have hsmall : 5 ^ e < 2 ^ 53 :=
    (Nat.pow_le_pow_right (by norm_num) (Nat.le_of_lt_succ he)).trans_lt (by norm_num)
  have hc : Canonical (full (5 ^ e)) (e - (52 - (5 ^ e).log2 : ℕ)) := by
    unfold Canonical
    rw [log2_full (by positivity) hsmall]
    omega
  exact (congrArg unpacked (powerOfTen_eq ⟨e, he⟩)).trans
    (unpacked_packed_of_canonical _ _ hc (by omega))

/-- A number and a power of ten that are both floats are multiplied or divided once. -/
theorem ofScientific_of_small {m : ℕ} (hm : 0 < m) {e : ℤ} (hfast : m < 2 ^ 53 ∧ e.natAbs ≤ 22) :
    Float.ofScientific m (e < 0) e.natAbs = rounded (m * 10 ^ e) := by
  have hsize : e.natAbs < Float.exactlyRepresentablePowersOfTen.size :=
    Nat.lt_succ_of_le hfast.2
  have hnumber := unpacked_toUInt64 hm hfast.1
  have hpower := unpacked_powerOfTen hsize
  have hm' : (full m : ℚ) * 2 ^ (-(52 - m.log2 : ℕ) : ℤ) = m := by
    have h := full_mul_zpow m 0
    rwa [Nat.cast_zero, zero_sub, pow_zero, mul_one] at h
  have hten : (full (5 ^ e.natAbs) : ℚ) * 2 ^ ((e.natAbs : ℤ) - (52 - (5 ^ e.natAbs).log2 : ℕ)) =
      10 ^ e.natAbs := by
    rw [full_mul_zpow, Nat.cast_pow, ← mul_pow]
    norm_num
  unfold Float.ofScientific
  rw [dif_pos hfast]
  split
  · next hneg =>
    rw [decide_eq_true_iff] at hneg
    have hvalue : (m : ℚ) * 10 ^ e = m / 10 ^ e.natAbs := by
      rw [div_eq_mul_inv, ← zpow_natCast, ← zpow_neg]
      congr 2
      omega
    show packed (UnpackedFloat.div Format.binary64 (unpacked _) (unpacked _)) = _
    rw [hnumber, hpower, div_eq_nearest, hm', hten, hvalue]
    rfl
  · next hneg =>
    rw [decide_eq_true_iff] at hneg
    have hvalue : (m : ℚ) * 10 ^ e = m * 10 ^ e.natAbs := by
      rw [← zpow_natCast]
      congr 2
      omega
    have hdigits : 52 ≤ (full m * full (5 ^ e.natAbs)).log2 :=
      le_log2_full_mul hm hfast.1 (full_pos (by positivity))
    show packed (UnpackedFloat.mul Format.binary64 (unpacked _) (unpacked _)) = _
    rw [hnumber, hpower, mul_eq_nearest _ _ _ _ _ _ hdigits, hm', hten, hvalue]
    rfl

theorem ofScientific_eq_rounded {m : ℕ} (hm : 0 < m) {e : ℤ}
    (hlow : -(2048 + (m.log2 : ℤ)) ≤ e) (hhigh : e ≤ 2048) :
    Float.ofScientific m (e < 0) e.natAbs = rounded (m * 10 ^ e) := by
  by_cases hfast : m < 2 ^ 53 ∧ e.natAbs ≤ 22
  · exact ofScientific_of_small hm hfast
  · have hexponent :
        (if decide (e < 0) = true then Int.negOfNat e.natAbs else Int.ofNat e.natAbs) = e := by
      rw [Int.negOfNat_eq]
      simp only [decide_eq_true_eq, Int.ofNat_eq_natCast]
      omega
    unfold Float.ofScientific
    rw [dif_neg hfast]
    show packed (UnpackedFloat.ofScientific Format.binary64 m _) = _
    rw [hexponent, ofScientific_eq_nearest hm hlow hhigh]
    rfl

/-! ## The nearest float of a decimal -/

theorem two_zpow_le : (2 : ℚ) ^ (1075 : ℤ) ≤ 10 ^ (400 : ℤ) := by
  calc (2 : ℚ) ^ (1075 : ℤ) ≤ 2 ^ ((3 : ℤ) * 400) :=
        zpow_le_zpow_right₀ (by norm_num) (by norm_num)
    _ = (2 ^ (3 : ℤ)) ^ (400 : ℤ) := zpow_mul _ _ _
    _ ≤ 10 ^ (400 : ℤ) := zpow_le_zpow_left₀ (by norm_num) (by norm_num) (by norm_num)

theorem toRat_of_large {d : Decimal} (hd : d.digits ≠ 0) (hlarge : 400 < d.exponent) :
    2 ^ (1024 : ℤ) ≤ d.toRat := by
  have hone : (1 : ℚ) ≤ d.digits := Nat.one_le_cast.2 (Nat.pos_of_ne_zero hd)
  calc (2 : ℚ) ^ (1024 : ℤ) ≤ 2 ^ (1075 : ℤ) := zpow_le_zpow_right₀ (by norm_num) (by norm_num)
    _ ≤ 10 ^ (400 : ℤ) := two_zpow_le
    _ ≤ 10 ^ d.exponent := zpow_le_zpow_right₀ (by norm_num) hlarge.le
    _ ≤ d.toRat := le_mul_of_one_le_left (by positivity) hone

theorem toRat_of_small {d : Decimal} (hsmall : d.exponent < -(400 + (d.digits.log2 : ℤ))) :
    d.toRat < 2 ^ (-1075 : ℤ) := by
  have hdigits : (d.digits : ℚ) < 10 ^ (d.digits.log2 + 1) := by
    have htwo : (d.digits : ℚ) < 2 ^ (d.digits.log2 + 1) := by
      exact_mod_cast Nat.lt_log2_self (n := d.digits)
    exact htwo.trans (pow_lt_pow_left₀ (by norm_num) (by norm_num) (Nat.succ_ne_zero _))
  calc d.toRat < 10 ^ (d.digits.log2 + 1) * 10 ^ d.exponent :=
        mul_lt_mul_of_pos_right hdigits (by positivity)
    _ = 10 ^ ((d.digits.log2 : ℤ) + 1 + d.exponent) := by
        rw [← zpow_natCast, ← zpow_add₀ (by norm_num)]
        push_cast
        rfl
    _ ≤ 10 ^ (-400 : ℤ) := zpow_le_zpow_right₀ (by norm_num) (by omega)
    _ ≤ 2 ^ (-1075 : ℤ) := by
        rw [zpow_neg, zpow_neg]
        exact inv_anti₀ (by positivity) two_zpow_le

/-- A decimal is read as the float nearest to its value. -/
theorem toFloat_eq_rounded {d : Decimal} (hd : d.digits ≠ 0) : d.toFloat = rounded d.toRat := by
  unfold toFloat
  rw [if_neg hd]
  split
  · next hlarge => exact (rounded_of_large (toRat_of_large hd hlarge)).symm
  split
  · next hsmall => exact (rounded_of_small (toRat_pos hd) (toRat_of_small hsmall)).symm
  · exact ofScientific_eq_rounded (Nat.pos_of_ne_zero hd) (by omega) (by omega)

theorem digits_eq_zero_iff {d : Decimal} : d.digits = 0 ↔ d.toRat = 0 := by
  have hpow : (10 : ℚ) ^ d.exponent ≠ 0 := by positivity
  unfold toRat
  rw [mul_eq_zero, or_iff_left hpow, Nat.cast_eq_zero]

/-- Decimals of one value are read as one float. -/
theorem toFloat_congr {d d' : Decimal} (h : d.toRat = d'.toRat) : d.toFloat = d'.toFloat := by
  by_cases hd : d.digits = 0
  · have hd' : d'.digits = 0 := by
      rw [digits_eq_zero_iff, ← h, ← digits_eq_zero_iff]
      exact hd
    unfold toFloat
    rw [if_pos hd, if_pos hd']
  · have hd' : d'.digits ≠ 0 := by
      rw [Ne, digits_eq_zero_iff, ← h, ← digits_eq_zero_iff]
      exact hd
    rw [toFloat_eq_rounded hd, toFloat_eq_rounded hd', h]

end BenchHistory.Decimal
