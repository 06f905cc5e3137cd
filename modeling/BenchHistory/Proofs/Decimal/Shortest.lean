import BenchHistory.Decimal.Shortest
import BenchHistory.Proofs.Decimal.Reading

/-!
# The shortest decimal reads back

The search for the fewest digits keeps only a decimal that reads back, and the exact value
stands in when there is none, so the shortest decimal of a finite float is read as the size of
the float (`toFloat_shortest`). A float that is whole is read back from the integer
(`ofInt_wholeValue?`).
-/

namespace BenchHistory

open Binary64 Float.Model Float.Model.UnpackedFloat

/-- A float without its sign. -/
def magnitude (x : Float) : Float := if signed x then -x else x

theorem unpacked_magnitude {x : Float} {s : Sign} {m : ℕ} {e : ℤ} {hm : 0 < m}
    (hx : unpacked x = .finite s m e hm) : unpacked (magnitude x) = .finite .positive m e hm := by
  have hfinite : x.isFinite = true := by
    rw [isFinite_eq, hx]
    rfl
  unfold magnitude
  rw [(ofFloat_of_unpacked hx).2]
  cases s
  · show unpacked (-x) = _
    rw [unpacked_neg hfinite, hx]
    rfl
  · exact hx

theorem magnitude_of_zero {x : Float} {s : Sign} (hx : unpacked x = .zero s) : magnitude x = 0 := by
  have hfinite : x.isFinite = true := by
    rw [isFinite_eq, hx]
    rfl
  have hzero : unpacked (magnitude x) = .zero .positive := by
    unfold magnitude
    rw [(ofFloat_of_unpacked_zero hx).2]
    cases s
    · show unpacked (-x) = _
      rw [unpacked_neg hfinite, hx]
      rfl
    · exact hx
  refine (eq_of_unpacked_eq rfl ?_).symm
  rw [hzero, unpacked_zero]

theorem isFinite_magnitude {x : Float} (hfinite : x.isFinite = true) :
    (magnitude x).isFinite = true := by
  obtain ⟨s, hx⟩ | ⟨s, m, e, hm, hx⟩ := unpacked_cases hfinite
  · rw [magnitude_of_zero hx]
    rfl
  · rw [isFinite_eq, unpacked_magnitude hx]
    rfl

theorem signed_magnitude {x : Float} (hfinite : x.isFinite = true) :
    (if signed x then -magnitude x else magnitude x) = x := by
  unfold magnitude
  split
  · exact neg_neg_of_isFinite hfinite
  · rfl

namespace Decimal

/-! ## The search -/

theorem toRat_stripZeros (fuel : ℕ) (d : Decimal) : (stripZeros fuel d).toRat = d.toRat := by
  induction fuel generalizing d with
  | zero => rfl
  | succ fuel ih =>
    unfold stripZeros
    split
    · next hzero =>
      rw [ih]
      have hdigits : (d.digits : ℚ) = ((d.digits / 10 : ℕ) : ℚ) * 10 := by
        have : d.digits = d.digits / 10 * 10 := by omega
        exact_mod_cast this
      show ((d.digits / 10 : ℕ) : ℚ) * 10 ^ (d.exponent + 1) = d.digits * 10 ^ d.exponent
      rw [hdigits, zpow_add_one₀ (by norm_num)]
      ring
    · rfl

theorem readsAs_of_onGrid {tie : Tie} {size : Float} {v : Dyadic} {exponent : ℤ} {d : Decimal}
    (h : onGrid tie size v exponent = some d) : readsAs d size = true := by
  unfold onGrid at h
  simp only at h
  split at h
  · next hlow hhigh =>
    obtain ⟨-, h⟩ | ⟨-, h⟩ := ite_eq_iff.1 h
    · cases h
      exact hlow
    · cases h
      exact hhigh
  · next hlow _ =>
    cases h
    exact hlow
  · next hhigh =>
    cases h
    exact hhigh
  · cases h

theorem toRat_toDecimal (v : Dyadic) : v.toDecimal.toRat = v.units * 2 ^ v.exponent := by
  unfold Dyadic.toDecimal
  simp only [Nat.pow_eq]
  split
  · next hnonneg =>
    unfold toRat
    rw [← Int.toNat_of_nonneg hnonneg, zpow_natCast, zpow_zero, mul_one]
    push_cast
    rfl
  · next hneg =>
    have hexponent : v.exponent = -((-v.exponent).toNat : ℤ) := by omega
    unfold toRat
    show ((v.units * 5 ^ (-v.exponent).toNat : ℕ) : ℚ) * 10 ^ v.exponent = _
    rw [hexponent, Int.neg_neg, Int.toNat_natCast, zpow_neg, zpow_neg, zpow_natCast, zpow_natCast]
    have hten : (10 : ℚ) = 2 * 5 := by norm_num
    rw [hten, mul_pow]
    push_cast
    field_simp

/-- The shortest decimal of a finite float is read as its size. -/
theorem toFloat_shortest (tie : Tie) {x : Float} (hfinite : x.isFinite = true) :
    (shortest tie x).toFloat = magnitude x := by
  obtain ⟨s, hx⟩ | ⟨s, m, e, hm, hx⟩ := unpacked_cases hfinite
  · unfold shortest
    simp only [(ofFloat_of_unpacked_zero hx).1, if_true, magnitude_of_zero hx]
    rfl
  · have hsize := unpacked_magnitude hx
    unfold shortest
    simp only [(ofFloat_of_unpacked hx).1]
    rw [if_neg hm.ne']
    split
    · next d hd =>
      obtain ⟨k, -, hk⟩ := List.exists_of_findSome?_eq_some hd
      rw [toFloat_congr (toRat_stripZeros 17 d)]
      exact eq_of_beq (readsAs_of_onGrid hk) hsize
    · have hpos : (Dyadic.toDecimal ⟨m, e⟩).digits ≠ 0 := by
        rw [Ne, digits_eq_zero_iff, toRat_toDecimal]
        positivity
      rw [toFloat_eq_rounded hpos, toRat_toDecimal]
      exact rounded_of_unpacked hsize

end Decimal

/-! ## Whole numbers -/

theorem ofNat_eq_toFloat (n : ℕ) : Float.ofNat n = Decimal.toFloat ⟨n, 0⟩ := by
  unfold Decimal.toFloat
  split
  · next hzero => rw [show n = 0 from hzero]
  · rw [if_neg (show ¬ 400 < (0 : ℤ) by omega),
      if_neg (show ¬ (0 : ℤ) < -(400 + (n.log2 : ℤ)) by omega)]
    rfl

theorem ofNat_eq_rounded {n : ℕ} (hn : 0 < n) : Float.ofNat n = rounded n := by
  rw [ofNat_eq_toFloat, Decimal.toFloat_eq_rounded hn.ne']
  unfold Decimal.toRat
  rw [zpow_zero, mul_one]

theorem toNat?_eq_some {v : Dyadic} {n : ℕ} (h : v.toNat? = some n) :
    (n : ℚ) = v.units * 2 ^ v.exponent := by
  unfold Dyadic.toNat? Dyadic.scaled at h
  simp only [Nat.pow_eq, Int.toNat_zero, Int.neg_zero, pow_zero, mul_one] at h
  split at h
  · next hdvd =>
    have hn : v.units * 2 ^ v.exponent.toNat = n * 2 ^ (-v.exponent).toNat := by
      rw [← Option.some.inj h, Nat.div_mul_cancel (Nat.dvd_of_mod_eq_zero hdvd)]
    have hcast : (v.units : ℚ) * 2 ^ v.exponent.toNat = n * 2 ^ (-v.exponent).toNat := by
      exact_mod_cast hn
    have hexponent : v.exponent = v.exponent.toNat - (-v.exponent).toNat := by omega
    rw [hexponent, zpow_sub₀ (by norm_num), zpow_natCast, zpow_natCast, ← mul_div_assoc, hcast]
    field_simp
  · cases h

theorem ofInt_natCast (n : ℕ) : Float.ofInt n = Float.ofNat n := rfl

theorem ofInt_neg_natCast {n : ℕ} (hn : 0 < n) : Float.ofInt (-n) = -Float.ofNat n := by
  obtain ⟨m, rfl⟩ := Nat.exists_eq_add_of_lt hn
  rw [Nat.zero_add]
  rfl

theorem isFinite_ofNat {n : ℕ} (hn : n ≤ 2 ^ 64) : (Float.ofNat n).isFinite = true := by
  obtain rfl | hpos := Nat.eq_zero_or_pos n
  · rfl
  · rw [ofNat_eq_rounded hpos]
    refine isFinite_rounded (Nat.cast_pos.2 hpos) ?_
    calc (n : ℚ) ≤ ((2 ^ 64 : ℕ) : ℚ) := Nat.cast_le.2 hn
      _ = 2 ^ (64 : ℤ) := by norm_num
      _ < 2 ^ (1023 : ℤ) := zpow_lt_zpow_right₀ (by norm_num) (by norm_num)

theorem isFinite_ofInt {k : ℤ} (hk : k.natAbs ≤ 2 ^ 64) : (Float.ofInt k).isFinite = true := by
  obtain ⟨n, rfl | rfl⟩ := k.eq_nat_or_neg
  · rw [ofInt_natCast]
    exact isFinite_ofNat (by omega)
  · obtain rfl | hpos := Nat.eq_zero_or_pos n
    · rfl
    · rw [ofInt_neg_natCast hpos]
      exact isFinite_neg (isFinite_ofNat (by omega))

theorem ofInt_of_size {x : Float} (hfinite : x.isFinite = true) {n : ℕ} (hn : 0 < n)
    (hsize : Float.ofNat n = magnitude x) :
    Float.ofInt (if signed x then -(n : ℤ) else (n : ℤ)) = x := by
  have hsign := signed_magnitude hfinite
  rw [← hsize] at hsign
  split at hsign
  · next hs =>
    rw [if_pos hs, ofInt_neg_natCast hn]
    exact hsign
  · next hs =>
    rw [if_neg hs, ofInt_natCast]
    exact hsign

/-- The whole number that equals a float is read back, except that zero loses its sign. -/
theorem ofInt_wholeValue? {x : Float} {k : ℤ} (h : wholeValue? x = some k) :
    Float.ofInt k = if x == 0 then 0 else x := by
  unfold wholeValue? at h
  split at h
  · next hfinite =>
    obtain ⟨n, hn, rfl⟩ := Option.map_eq_some_iff.1 h
    obtain ⟨s, hx⟩ | ⟨s, m, e, hm, hx⟩ := unpacked_cases hfinite
    · have hzero : n = 0 := by
        have hvalue := toNat?_eq_some hn
        rw [(ofFloat_of_unpacked_zero hx).1, Nat.cast_zero, zero_mul] at hvalue
        exact_mod_cast hvalue
      have heq : (x == 0) = true := by
        rw [beq_eq, hx, unpacked_zero]
        rfl
      rw [heq, hzero]
      cases signed x <;> rfl
    · have hvalue := toNat?_eq_some hn
      rw [(ofFloat_of_unpacked hx).1] at hvalue
      have hpos : 0 < n := by
        have : (0 : ℚ) < n := by
          rw [hvalue]
          positivity
        exact_mod_cast this
      have hne : (x == 0) = false := by
        rw [beq_eq, hx, unpacked_zero]
        cases s <;> rfl
      have hsize : Float.ofNat n = magnitude x := by
        rw [ofNat_eq_rounded hpos, hvalue]
        exact rounded_of_unpacked (unpacked_magnitude hx)
      rw [hne]
      exact ofInt_of_size hfinite hpos hsize
  · cases h

end BenchHistory
