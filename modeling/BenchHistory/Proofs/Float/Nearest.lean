import BenchHistory.Proofs.Float.Basic
import Mathlib.Algebra.Order.Field.Power
import Mathlib.Algebra.Order.Floor.Semifield
import Mathlib.Data.Int.Log
import Mathlib.Data.Rat.Floor
import Mathlib.Tactic.FieldSimp
import Mathlib.Tactic.Linarith
import Mathlib.Tactic.NormNum
import Mathlib.Tactic.Positivity
import Mathlib.Tactic.Ring

/-!
# The nearest float of a rational number

`nearest` rounds a positive rational number to 53 binary digits. Whatever the digits and the
exponent with which the number is handed over, rounding gives `nearest` of it
(`roundWithAccuracy_eq_nearest`), and so do products and quotients of exact operands.
-/

namespace BenchHistory.Binary64

open Float.Model Float.Model.UnpackedFloat

/-! ## Residual bits -/

/-- A number as its whole part, its first binary place, and whether there is more behind. -/
def extended (q : ℚ) : ExtendedMantissa :=
  ⟨⌊q⌋₊, ⌊2 * q⌋₊ % 2 != 0, decide ((⌊2 * q⌋₊ : ℚ) ≠ 2 * q)⟩

theorem extended_natCast (m : ℕ) :
    extended m = ExtendedMantissa.ofMantissaAndAccuracy m .exact := by
  have hdouble : (2 : ℚ) * m = ((2 * m : ℕ) : ℚ) := by push_cast; ring
  unfold extended ExtendedMantissa.ofMantissaAndAccuracy
  rw [hdouble, Nat.floor_natCast, Nat.floor_natCast]
  simp

/-- The residual bits of a quotient can be told from the remainder. -/
theorem extended_div (n : ℕ) {d : ℕ} (hd : 0 < d) :
    extended (n / d) =
      ExtendedMantissa.ofMantissaAndAccuracy (n / d) (accuracyOfFraction (n % d) d) := by
  have hdq : (d : ℚ) ≠ 0 := by positivity
  have hdouble : (2 : ℚ) * (n / d) = ((2 * n : ℕ) : ℚ) / d := by push_cast; ring
  have hfloor : 2 * n / d = 2 * (n / d) + 2 * (n % d) / d := by
    have hn : 2 * n = 2 * (n % d) + d * (2 * (n / d)) := by
      have := Nat.mod_add_div n d
      linarith
    rw [hn, Nat.add_mul_div_left _ _ hd]
    omega
  have hrest : n % d < d := Nat.mod_lt n hd
  have hsticky : ((2 * n / d : ℕ) : ℚ) = ((2 * n : ℕ) : ℚ) / d ↔ 2 * (n % d) % d = 0 := by
    rw [eq_div_iff hdq, ← Nat.cast_mul, Nat.cast_inj]
    have hmod : 2 * n % d = 2 * (n % d) % d := by simp [Nat.mul_mod]
    have := Nat.div_add_mod' (2 * n) d
    omega
  unfold extended
  rw [hdouble, Nat.floor_div_eq_div, Nat.floor_div_eq_div]
  simp only [ne_eq, hsticky]
  unfold accuracyOfFraction ExtendedMantissa.ofMantissaAndAccuracy
  obtain hzero | hpos := Nat.eq_zero_or_pos (n % d)
  · simp [hzero, hfloor]
  · rw [if_neg hpos.ne']
    obtain hlt | heq | hgt := Nat.lt_trichotomy (2 * (n % d)) d
    · have hbit : 2 * (n % d) / d = 0 := Nat.div_eq_of_lt hlt
      have hmod : 2 * (n % d) % d = 2 * (n % d) := Nat.mod_eq_of_lt hlt
      rw [Nat.compare_eq_lt.2 hlt]
      simp [hfloor, hbit, hmod, hpos.ne']
    · have hbit : 2 * (n % d) / d = 1 := by rw [heq, Nat.div_self hd]
      have hmod : 2 * (n % d) % d = 0 := by rw [heq, Nat.mod_self]
      rw [Nat.compare_eq_eq.2 heq]
      simp [hfloor, hbit, hmod]
    · have hbit : 2 * (n % d) / d = 1 := by
        rw [Nat.div_eq_iff hd]
        omega
      have hmod : 2 * (n % d) % d = 2 * (n % d) - d := by
        rw [Nat.mod_eq_sub_mod hgt.le, Nat.mod_eq_of_lt (by omega)]
      rw [Nat.compare_eq_gt.2 hgt]
      simp [hfloor, hbit, hmod]
      omega

theorem shiftRightOne_extended (q : ℚ) : (extended q).shiftRightOne = extended (q / 2) := by
  have hhalf : (2 : ℚ) * (q / 2) = q := by ring
  have hfloor : ⌊q / 2⌋₊ = ⌊q⌋₊ / 2 := Nat.floor_div_ofNat q 2
  unfold extended ExtendedMantissa.shiftRightOne
  rw [hhalf, hfloor]
  have hsticky : ((⌊2 * q⌋₊ % 2 != 0) || decide ((⌊2 * q⌋₊ : ℚ) ≠ 2 * q)) =
      decide ((⌊q⌋₊ : ℚ) ≠ q) := by
    rw [Bool.eq_iff_iff]
    simp only [Bool.or_eq_true, bne_iff_ne, decide_eq_true_eq]
    rw [← not_iff_not, not_or, not_not, not_not, not_not]
    constructor
    · rintro ⟨heven, hexact⟩
      obtain ⟨k, hk⟩ : 2 ∣ ⌊2 * q⌋₊ := Nat.dvd_of_mod_eq_zero heven
      have hq : q = k := by
        rw [hk] at hexact
        push_cast at hexact
        linarith
      rw [hq, Nat.floor_natCast]
    · intro hexact
      have hdouble : 2 * q = ((2 * ⌊q⌋₊ : ℕ) : ℚ) := by push_cast; rw [hexact]
      rw [hdouble, Nat.floor_natCast]
      exact ⟨by omega, rfl⟩
  rw [hsticky]

theorem shiftRight_extended (q : ℚ) (n : ℕ) : extended q >>> n = extended (q / 2 ^ n) := by
  show n.repeat ExtendedMantissa.shiftRightOne (extended q) = _
  induction n with
  | zero => simp [Nat.repeat]
  | succ n ih =>
    rw [Nat.repeat, ih, shiftRightOne_extended, div_div, pow_succ]

/-! ## Rounding -/

/-- The exponent of the last digit that a float near the number has. -/
def ulp (q : ℚ) : ℤ := max (Int.log 2 q - 52) (-1074)

/-- The float nearest to a positive number, ties to even; its exponent is not bounded above. -/
def nearest (s : Sign) (q : ℚ) : UnpackedFloat :=
  let (em, e) := shiftToTargetExponent Format.binary64
    (extended (q / 2 ^ ulp q)).roundedMantissa (ulp q) .exact
  if h : em.mantissa = 0 then .zero s else .finite s em.mantissa e (Nat.pos_of_ne_zero h)

theorem targetExponent_eq (t : ℤ) : Format.binary64.targetExponent t = max (t - 53) (-1074) := rfl

/-- The leading digit of the whole part is that of the number. -/
theorem log2_floor_add {q : ℚ} (hq : 0 < q) {e : ℤ} (hm : ⌊q / 2 ^ e⌋₊ ≠ 0) :
    ((⌊q / 2 ^ e⌋₊.log2 : ℕ) : ℤ) + e = Int.log 2 q := by
  have hpow : (0 : ℚ) < 2 ^ e := by positivity
  have hquot : 0 ≤ q / 2 ^ e := by positivity
  have hlow : ((2 ^ ⌊q / 2 ^ e⌋₊.log2 : ℕ) : ℚ) ≤ q / 2 ^ e :=
    (Nat.cast_le.2 (Nat.log2_self_le hm)).trans (Nat.floor_le hquot)
  have hhigh : q / 2 ^ e < ((2 ^ (⌊q / 2 ^ e⌋₊.log2 + 1) : ℕ) : ℚ) :=
    (Nat.floor_lt hquot).1 Nat.lt_log2_self
  apply le_antisymm
  · rw [← Int.zpow_le_iff_le_log Nat.one_lt_two hq]
    rw [le_div_iff₀ hpow] at hlow
    calc ((2 : ℕ) : ℚ) ^ ((⌊q / 2 ^ e⌋₊.log2 : ℤ) + e)
        = ((2 ^ ⌊q / 2 ^ e⌋₊.log2 : ℕ) : ℚ) * 2 ^ e := by
          rw [zpow_add₀ (by norm_num)]
          push_cast
          rw [zpow_natCast]
      _ ≤ q := hlow
  · rw [← Int.lt_add_one_iff, ← Int.lt_zpow_iff_log_lt Nat.one_lt_two hq]
    rw [div_lt_iff₀ hpow] at hhigh
    calc q < ((2 ^ (⌊q / 2 ^ e⌋₊.log2 + 1) : ℕ) : ℚ) * 2 ^ e := hhigh
      _ = ((2 : ℕ) : ℚ) ^ ((⌊q / 2 ^ e⌋₊.log2 : ℤ) + e + 1) := by
          rw [add_right_comm, zpow_add₀ (by norm_num)]
          push_cast
          rw [← zpow_natCast]
          push_cast
          rfl

/-- The first shift of rounding brings a number to the exponent of its last digit. -/
theorem shiftToTargetExponent_eq {q : ℚ} (hq : 0 < q) {m : ℕ} {e : ℤ} {a : Accuracy}
    (hrep : ExtendedMantissa.ofMantissaAndAccuracy m a = extended (q / 2 ^ e)) (he : e ≤ ulp q)
    (hm : m ≠ 0 ∨ e ≤ -1074) :
    shiftToTargetExponent Format.binary64 m e a = (extended (q / 2 ^ ulp q), ulp q) := by
  have hfloor : m = ⌊q / 2 ^ e⌋₊ := by
    have h := congrArg ExtendedMantissa.mantissa hrep
    unfold ExtendedMantissa.ofMantissaAndAccuracy at h
    split at h <;> exact h
  have htarget : Format.binary64.targetExponent (totalExponent m e) = ulp q := by
    rw [targetExponent_eq]
    unfold totalExponent ulp
    by_cases hzero : m = 0
    · have hlow : e ≤ -1074 := hm.resolve_left fun hne => hne hzero
      have hsmall : q < ((2 : ℕ) : ℚ) ^ e := by
        have hpow : (0 : ℚ) < 2 ^ e := by positivity
        have hlt : q / 2 ^ e < 1 := Nat.floor_eq_zero.1 (hfloor.symm.trans hzero)
        rw [div_lt_one hpow] at hlt
        exact_mod_cast hlt
      have hlog : Int.log 2 q < e := (Int.lt_zpow_iff_log_lt Nat.one_lt_two hq).1 hsmall
      rw [hzero, Nat.log2_zero]
      omega
    · have hlog := log2_floor_add hq (hfloor ▸ hzero : ⌊q / 2 ^ e⌋₊ ≠ 0)
      rw [← hfloor] at hlog
      omega
  unfold shiftToTargetExponent shiftToExponent
  rw [htarget, hrep]
  have hshift : e + ((ulp q - e).toNat : ℤ) = ulp q := by omega
  have hpow : (2 : ℚ) ^ ulp q = 2 ^ e * 2 ^ (ulp q - e).toNat := by
    rw [← zpow_natCast, ← zpow_add₀ (by norm_num), hshift]
  simp only [shiftRight_extended, hshift, hpow, div_div]

/-- Rounding depends on the number alone, not on how it is handed over. -/
theorem roundWithAccuracy_eq_nearest (s : Sign) {q : ℚ} (hq : 0 < q) {m : ℕ} {e : ℤ} {a : Accuracy}
    (hrep : ExtendedMantissa.ofMantissaAndAccuracy m a = extended (q / 2 ^ e)) (he : e ≤ ulp q)
    (hm : m ≠ 0 ∨ e ≤ -1074) :
    roundWithAccuracy Format.binary64 s m e a = nearest s q := by
  unfold roundWithAccuracy nearest
  rw [shiftToTargetExponent_eq hq hrep he hm]

theorem extended_exact (m : ℕ) (e : ℤ) :
    ExtendedMantissa.ofMantissaAndAccuracy m .exact = extended (m * 2 ^ e / 2 ^ e) := by
  rw [mul_div_cancel_right₀ _ (by positivity), extended_natCast]

theorem log_mul_zpow {m : ℕ} (hm : 0 < m) (e : ℤ) :
    Int.log 2 ((m : ℚ) * 2 ^ e) = m.log2 + e := by
  have hpow : (2 : ℚ) ^ e ≠ 0 := by positivity
  have hfloor : ⌊(m : ℚ) * 2 ^ e / 2 ^ e⌋₊ = m := by
    rw [mul_div_cancel_right₀ _ hpow, Nat.floor_natCast]
  have hlog := log2_floor_add (q := m * 2 ^ e) (by positivity) (e := e) (by rw [hfloor]; omega)
  rw [hfloor] at hlog
  exact hlog.symm

/-! ## Operations on exact numbers -/

theorem round_eq_nearest (s : Sign) {m : ℕ} (hm : 0 < m) (e : ℤ) :
    UnpackedFloat.round Format.binary64 s m e = nearest s (m * 2 ^ e) := by
  unfold UnpackedFloat.round decreaseExponent
  simp only [targetExponent_eq]
  set shift := (e - max (totalExponent m e - 53) (-1074)).toNat with hshift
  have hsame : (m : ℚ) * 2 ^ e = ((m <<< shift : ℕ) : ℚ) * 2 ^ (e - shift) := by
    rw [Nat.shiftLeft_eq]
    push_cast
    rw [mul_assoc, ← zpow_natCast, ← zpow_add₀ (by norm_num)]
    congr 2
    omega
  have hpos : 0 < m <<< shift := by
    rw [Nat.shiftLeft_eq]
    positivity
  refine roundWithAccuracy_eq_nearest s (by positivity) ?_ ?_ (.inl hpos.ne')
  · rw [hsame, ← extended_exact]
  · unfold ulp
    rw [log_mul_zpow hm]
    unfold totalExponent at hshift
    omega

theorem mul_eq_nearest (s t : Sign) {m n : ℕ} (hm : 0 < m) (hn : 0 < n) (e f : ℤ)
    (hdigits : 52 ≤ (m * n).log2) :
    UnpackedFloat.mul Format.binary64 (.finite s m e hm) (.finite t n f hn) =
      nearest (s * t) (m * 2 ^ e * (n * 2 ^ f)) := by
  have hsame : (m : ℚ) * 2 ^ e * (n * 2 ^ f) = ((m * n : ℕ) : ℚ) * 2 ^ (e + f) := by
    rw [zpow_add₀ (by norm_num)]
    push_cast
    ring
  have hpos : 0 < m * n := by positivity
  unfold UnpackedFloat.mul
  rw [hsame]
  refine roundWithAccuracy_eq_nearest _ (by positivity) (extended_exact _ _) ?_ (.inl hpos.ne')
  unfold ulp
  rw [log_mul_zpow hpos]
  omega

/-- A quotient has its leading digit where those of the operands say, or one place below. -/
theorem le_log_div {m n : ℕ} (hm : 0 < m) (hn : 0 < n) (e f : ℤ) :
    (m.log2 : ℤ) + e - (n.log2 + f) - 1 ≤ Int.log 2 ((m : ℚ) * 2 ^ e / (n * 2 ^ f)) := by
  rw [← Int.zpow_le_iff_le_log Nat.one_lt_two (by positivity), le_div_iff₀ (by positivity)]
  have hlow : ((2 : ℕ) : ℚ) ^ ((m.log2 : ℤ) + e) ≤ m * 2 ^ e := by
    rw [Int.zpow_le_iff_le_log Nat.one_lt_two (by positivity), log_mul_zpow hm]
  have hhigh : (n : ℚ) * 2 ^ f ≤ ((2 : ℕ) : ℚ) ^ ((n.log2 : ℤ) + f + 1) := by
    apply le_of_lt
    rw [Int.lt_zpow_iff_log_lt Nat.one_lt_two (by positivity), log_mul_zpow hn]
    omega
  calc ((2 : ℕ) : ℚ) ^ ((m.log2 : ℤ) + e - (n.log2 + f) - 1) * (n * 2 ^ f)
      ≤ ((2 : ℕ) : ℚ) ^ ((m.log2 : ℤ) + e - (n.log2 + f) - 1) *
          ((2 : ℕ) : ℚ) ^ ((n.log2 : ℤ) + f + 1) := by gcongr
    _ = ((2 : ℕ) : ℚ) ^ ((m.log2 : ℤ) + e) := by
        rw [← zpow_add₀ (by norm_num)]
        congr 1
        ring
    _ ≤ m * 2 ^ e := hlow

theorem div_eq_nearest (s t : Sign) {m n : ℕ} (hm : 0 < m) (hn : 0 < n) (e f : ℤ) :
    UnpackedFloat.div Format.binary64 (.finite s m e hm) (.finite t n f hn) =
      nearest (s / t) (m * 2 ^ e / (n * 2 ^ f)) := by
  set q : ℚ := m * 2 ^ e / (n * 2 ^ f) with hq
  have hqpos : 0 < q := by positivity
  have hlog : (m.log2 : ℤ) + e - (n.log2 + f) - 1 ≤ Int.log 2 q := le_log_div hm hn e f
  unfold UnpackedFloat.div divCore
  simp only [targetExponent_eq]
  unfold totalExponent
  set target := min (e - f) (max ((m.log2 : ℤ) + 1 + e - (n.log2 + 1 + f) - 53) (-1074))
    with htarget
  have hquot : q / 2 ^ target = ((m <<< (e - f - target).toNat : ℕ) : ℚ) / n := by
    have hpow : (2 : ℚ) ^ e = 2 ^ (e - f - target).toNat * 2 ^ f * 2 ^ target := by
      rw [← zpow_natCast, ← zpow_add₀ (by norm_num), ← zpow_add₀ (by norm_num)]
      congr 1
      omega
    have hn' : (n : ℚ) ≠ 0 := by positivity
    rw [hq, hpow, Nat.shiftLeft_eq]
    push_cast
    field_simp
  refine roundWithAccuracy_eq_nearest _ hqpos ?_ ?_ ?_
  · rw [hquot, extended_div _ hn]
  · unfold ulp
    omega
  · by_contra! hnot
    have hsmall : q < ((2 : ℕ) : ℚ) ^ target := by
      have hlt : q / 2 ^ target < 1 := by
        rw [← Nat.floor_eq_zero, hquot, Nat.floor_div_eq_div, hnot.1]
      rw [div_lt_one (by positivity)] at hlt
      exact_mod_cast hlt
    have := (Int.lt_zpow_iff_log_lt Nat.one_lt_two hqpos).1 hsmall
    omega

/-- A decimal that is not far outside the range of floats is rounded once. -/
theorem ofScientific_eq_nearest {m : ℕ} (hm : 0 < m) {e : ℤ} (hlow : -(2048 + (m.log2 : ℤ)) ≤ e)
    (hhigh : e ≤ 2048) :
    UnpackedFloat.ofScientific Format.binary64 m e = nearest .positive (m * 10 ^ e) := by
  unfold UnpackedFloat.ofScientific
  rw [dif_neg hm.ne', if_neg (show ¬ (2 ^ 11 : ℤ) < e by omega),
    if_neg (show ¬ e < -((2 ^ 11 : ℤ) + m.log2) by omega)]
  by_cases hnonneg : 0 ≤ e
  · rw [if_pos hnonneg]
    have hten : (10 : ℚ) ^ e = ((10 ^ e.toNat : ℕ) : ℚ) := by
      rw [Nat.cast_pow, ← zpow_natCast, Int.toNat_of_nonneg hnonneg]
      norm_num
    have hdigits : 52 ≤ ((m <<< 53) * 10 ^ e.toNat).log2 := by
      rw [Nat.le_log2 (by rw [Nat.shiftLeft_eq]; positivity), Nat.shiftLeft_eq]
      have hpos : 0 < m * 10 ^ e.toNat := by positivity
      calc 2 ^ 52 ≤ 1 * 2 ^ 53 := by norm_num
        _ ≤ m * 10 ^ e.toNat * 2 ^ 53 := Nat.mul_le_mul_right _ hpos
        _ = m * 2 ^ 53 * 10 ^ e.toNat := by ring
    refine (mul_eq_nearest .positive .positive _ _ _ _ hdigits).trans ?_
    show nearest .positive _ = _
    congr 1
    rw [hten, Nat.shiftLeft_eq]
    show ((m * 2 ^ 53 : ℕ) : ℚ) * 2 ^ (-53 : ℤ) * (((10 ^ e.toNat : ℕ) : ℚ) * 2 ^ (0 : ℤ)) = _
    push_cast
    rw [zpow_neg, mul_one]
    field_simp
    norm_num
  · rw [if_neg hnonneg]
    have hten : (10 : ℚ) ^ e = (((10 ^ (-e).toNat : ℕ) : ℚ))⁻¹ := by
      rw [Nat.cast_pow, ← zpow_natCast, Int.toNat_of_nonneg (by omega), ← zpow_neg, neg_neg]
      norm_num
    refine (div_eq_nearest .positive .positive _ _ _ _).trans ?_
    show nearest .positive _ = _
    rw [hten, zpow_zero, mul_one, mul_one, div_eq_mul_inv]

/-! ## What the nearest float looks like -/

/-- The digits of a number rounded at its last place. -/
def significand (q : ℚ) : ℕ := (extended (q / 2 ^ ulp q)).roundedMantissa

theorem roundedMantissa_bounds (em : ExtendedMantissa) :
    em.mantissa ≤ em.roundedMantissa ∧ em.roundedMantissa ≤ em.mantissa + 1 := by
  unfold ExtendedMantissa.roundedMantissa Accuracy.roundToNearestEven
  split
  · omega
  · omega
  · have := Nat.mod_lt em.mantissa Nat.two_pos
    omega
  · omega

theorem shiftToTargetExponent_exact (m : ℕ) {e : ℤ} (he : -1074 ≤ e) :
    shiftToTargetExponent Format.binary64 m e .exact =
      (extended (m / 2 ^ (m.log2 - 52)), e + (m.log2 - 52 : ℕ)) := by
  unfold shiftToTargetExponent shiftToExponent
  rw [targetExponent_eq]
  have hshift : (max (totalExponent m e - 53) (-1074) - e).toNat = m.log2 - 52 := by
    unfold totalExponent
    omega
  simp only [hshift, ← extended_natCast, shiftRight_extended]

theorem nearest_eq (s : Sign) (q : ℚ) :
    nearest s q =
      if h : significand q / 2 ^ ((significand q).log2 - 52) = 0 then .zero s
      else .finite s (significand q / 2 ^ ((significand q).log2 - 52))
        (ulp q + ((significand q).log2 - 52 : ℕ)) (Nat.pos_of_ne_zero h) := by
  have hfloor : (extended ((significand q : ℚ) / 2 ^ ((significand q).log2 - 52))).mantissa =
      significand q / 2 ^ ((significand q).log2 - 52) := by
    have h := Nat.floor_div_eq_div (K := ℚ) (significand q) (2 ^ ((significand q).log2 - 52))
    push_cast at h
    exact h
  have hdigits : ∀ m,
      (extended ((significand q : ℚ) / 2 ^ ((significand q).log2 - 52))).mantissa = m →
      nearest s q = if h : m = 0 then .zero s
        else .finite s m (ulp q + ((significand q).log2 - 52 : ℕ)) (Nat.pos_of_ne_zero h) := by
    rintro _ rfl
    unfold nearest
    rw [← significand, shiftToTargetExponent_exact _ (e := ulp q) (le_max_right _ _)]
  exact hdigits _ hfloor

theorem quotient_ulp_lt (q : ℚ) : q / 2 ^ ulp q < 2 ^ 53 := by
  rw [div_lt_iff₀ (by positivity)]
  calc q < ((2 : ℕ) : ℚ) ^ (Int.log 2 q + 1) := Int.lt_zpow_succ_log_self Nat.one_lt_two q
    _ ≤ ((2 : ℕ) : ℚ) ^ (53 + ulp q) := by
        apply zpow_le_zpow_right₀ (by norm_num)
        unfold ulp
        omega
    _ = 2 ^ 53 * 2 ^ ulp q := by
        rw [zpow_add₀ (by norm_num)]
        norm_num

theorem significand_le {q : ℚ} (hq : 0 < q) : significand q ≤ 2 ^ 53 := by
  have hfloor : ⌊q / 2 ^ ulp q⌋₊ < 2 ^ 53 := by
    rw [Nat.floor_lt (by positivity)]
    exact_mod_cast quotient_ulp_lt q
  exact (roundedMantissa_bounds _).2.trans hfloor

theorem nearest_cases (s : Sign) {q : ℚ} (hq : 0 < q) :
    nearest s q = .zero s ∨
      ∃ m e hm, nearest s q = .finite s m e hm ∧ ulp q ≤ e ∧ e ≤ ulp q + 1 := by
  rw [nearest_eq]
  by_cases hzero : significand q / 2 ^ ((significand q).log2 - 52) = 0
  · exact .inl (dif_pos hzero)
  · refine .inr ⟨_, _, Nat.pos_of_ne_zero hzero, dif_neg hzero, by omega, ?_⟩
    have hlog : (significand q).log2 ≤ 53 := by
      rw [← Nat.log2_two_pow (n := 53), Nat.log2_eq_log_two, Nat.log2_eq_log_two]
      exact Nat.log_mono_right (significand_le hq)
    omega

/-- A number that has a digit at its last place does not vanish. -/
theorem nearest_of_le {s : Sign} {q : ℚ} (hq : 2 ^ (-1074 : ℤ) ≤ q) :
    ∃ m e hm, nearest s q = .finite s m e hm ∧ ulp q ≤ e ∧ e ≤ ulp q + 1 := by
  have hpos : 0 < q := lt_of_lt_of_le (by positivity) hq
  refine (nearest_cases s hpos).resolve_left ?_
  have hfloor : 1 ≤ ⌊q / 2 ^ ulp q⌋₊ := by
    rw [Nat.one_le_floor_iff, le_div_iff₀ (by positivity), one_mul]
    unfold ulp
    obtain hle | hle := le_total (Int.log 2 q - 52) (-1074)
    · rw [max_eq_right hle]
      exact hq
    · rw [max_eq_left hle]
      calc (2 : ℚ) ^ (Int.log 2 q - 52) ≤ ((2 : ℕ) : ℚ) ^ Int.log 2 q := by
            apply zpow_le_zpow_right₀ (by norm_num)
            omega
        _ ≤ q := Int.zpow_log_le_self Nat.one_lt_two hpos
  have hsig : significand q ≠ 0 := by
    have := (roundedMantissa_bounds (extended (q / 2 ^ ulp q))).1
    exact (lt_of_lt_of_le hfloor this).ne'
  rw [nearest_eq, dif_neg]
  · nofun
  · have hshift : 2 ^ ((significand q).log2 - 52) ≤ significand q :=
      (Nat.pow_le_pow_right Nat.two_pos (Nat.sub_le _ _)).trans (Nat.log2_self_le hsig)
    exact (Nat.div_pos hshift (by positivity)).ne'

theorem nearest_of_lt {s : Sign} {q : ℚ} (hq : 0 < q) (hsmall : q < 2 ^ (-1075 : ℤ)) :
    nearest s q = .zero s := by
  have hlog : Int.log 2 q < -1075 := by
    rw [← Int.lt_zpow_iff_log_lt Nat.one_lt_two hq]
    exact_mod_cast hsmall
  have hulp : ulp q = -1074 := by
    unfold ulp
    omega
  have hhalf : 2 * (q / 2 ^ ulp q) < 1 := by
    rw [hulp]
    calc 2 * (q / 2 ^ (-1074 : ℤ)) < 2 * (2 ^ (-1075 : ℤ) / 2 ^ (-1074 : ℤ)) := by gcongr
      _ = 1 := by
          rw [← zpow_sub₀ (by norm_num)]
          norm_num
  have hsig : significand q = 0 := by
    have hwhole : ⌊q / 2 ^ ulp q⌋₊ = 0 := Nat.floor_eq_zero.2 (by linarith)
    have hround : ⌊2 * (q / 2 ^ ulp q)⌋₊ = 0 := Nat.floor_eq_zero.2 hhalf
    unfold significand extended ExtendedMantissa.roundedMantissa
    rw [hwhole, hround]
    cases decide (((0 : ℕ) : ℚ) ≠ 2 * (q / 2 ^ ulp q)) <;> rfl
  rw [nearest_eq, dif_pos (by rw [hsig]; rfl)]

/-- A significand and an exponent as they stand in a float. -/
def Canonical (m : ℕ) (e : ℤ) : Prop :=
  max ((m.log2 : ℤ) + e - 52) (-1074) = e

/-- A float is the nearest one to its own value. -/
theorem nearest_of_canonical (s : Sign) {m : ℕ} (hm : 0 < m) {e : ℤ} (hc : Canonical m e) :
    nearest s (m * 2 ^ e) = .finite s m e hm := by
  have hulp : ulp (m * 2 ^ e) = e := by
    unfold ulp
    rw [log_mul_zpow hm]
    exact hc
  have hsig : significand (m * 2 ^ e) = m := by
    unfold significand
    rw [hulp, ← extended_exact]
    rfl
  have hshift : m.log2 - 52 = 0 := by
    unfold Canonical at hc
    omega
  rw [nearest_eq, dif_neg]
  · refine finite_congr ?_ ?_
    · rw [hsig, hshift, pow_zero, Nat.div_one]
    · rw [hulp, hsig, hshift, Nat.cast_zero, add_zero]
  · rw [hsig, hshift, pow_zero, Nat.div_one]
    exact hm.ne'

end BenchHistory.Binary64
