import BenchHistory.Proofs.Decimal.Shortest
import BenchHistory.Proofs.Float.Rounding

/-!
# The search for the fewest digits

The search works on exact numbers: a float stands for its size, a grid for the multiples of a power
of ten, and the scale for the place of the leading digit (`scale_spec`). A decimal reads back as the
float if its value is rounded to the size (`reads_iff`), so whatever lies between two decimals that
read back does so, too (`reads_of_between`).
-/

namespace BenchHistory

open Binary64

/-! ## Exact values -/

theorem zpow_eq_div {b : ℚ} (hb : b ≠ 0) (e : ℤ) : b ^ e = b ^ e.toNat / b ^ (-e).toNat := by
  have hsplit : e = e.toNat - (-e).toNat := by omega
  conv_lhs => rw [hsplit, zpow_sub₀ hb, zpow_natCast, zpow_natCast]

namespace Dyadic

/-- The value of a dyadic number. -/
def toRat (v : Dyadic) : ℚ := v.units * 2 ^ v.exponent

theorem scaled_pos (v : Dyadic) (places : ℤ) : 0 < (v.scaled places).2 := by
  unfold scaled
  simp only [Nat.pow_eq]
  positivity

theorem scaled_eq (v : Dyadic) (places : ℤ) :
    ((v.scaled places).1 : ℚ) / (v.scaled places).2 = v.toRat * 10 ^ places := by
  unfold scaled toRat
  rw [zpow_eq_div two_ne_zero, zpow_eq_div (show (10 : ℚ) ≠ 0 by norm_num)]
  simp only [Nat.pow_eq]
  push_cast
  field_simp

theorem scaled_div (v : Dyadic) (places : ℤ) :
    (v.scaled places).1 / (v.scaled places).2 = ⌊v.toRat * 10 ^ places⌋₊ := by
  rw [← scaled_eq, Nat.floor_div_eq_div]

theorem scaled_mod (v : Dyadic) (places : ℤ) :
    (((v.scaled places).1 % (v.scaled places).2 : ℕ) : ℚ) / (v.scaled places).2 =
      v.toRat * 10 ^ places - ⌊v.toRat * 10 ^ places⌋₊ := by
  have hpos : (0 : ℚ) < (v.scaled places).2 := Nat.cast_pos.2 (v.scaled_pos places)
  have hsplit : (((v.scaled places).2 * ((v.scaled places).1 / (v.scaled places).2) +
      (v.scaled places).1 % (v.scaled places).2 : ℕ) : ℚ) = (v.scaled places).1 :=
    congrArg Nat.cast (Nat.div_add_mod _ _)
  push_cast at hsplit
  rw [← scaled_div, ← scaled_eq, ← hsplit]
  field_simp
  ring

theorem scaled_lt_iff (v : Dyadic) (k : ℤ) :
    (v.scaled (-k)).1 < (v.scaled (-k)).2 ↔ v.toRat < 10 ^ k := by
  have hpos : (0 : ℚ) < (v.scaled (-k)).2 := Nat.cast_pos.2 (v.scaled_pos (-k))
  have hten : (0 : ℚ) < 10 ^ k := by positivity
  have hcast : ((v.scaled (-k)).1 : ℚ) < (v.scaled (-k)).2 ↔
      (v.scaled (-k)).1 < (v.scaled (-k)).2 := Nat.cast_lt
  rw [← hcast, ← div_lt_one hpos, scaled_eq, zpow_neg, ← div_eq_mul_inv, div_lt_one hten]

end Dyadic

namespace Decimal

/-! ## Places -/

theorem zpow_bounds_nat : ∀ i : Fin 2098,
    let l : ℤ := i.1 - 1074
    let g := l * 30103 / 100000
    10 ^ (g - 2).toNat * 2 ^ (-l).toNat ≤ 2 ^ l.toNat * 10 ^ (-(g - 2)).toNat ∧
      2 ^ (l + 1).toNat * 10 ^ (-(g + 2)).toNat ≤ 10 ^ (g + 2).toNat * 2 ^ (-(l + 1)).toNat := by
  decide +kernel

theorem zpow_bounds {l : ℤ} (hlow : -1074 ≤ l) (hhigh : l ≤ 1023) :
    (10 : ℚ) ^ (l * 30103 / 100000 - 2) ≤ 2 ^ l ∧
      (2 : ℚ) ^ (l + 1) ≤ 10 ^ (l * 30103 / 100000 + 2) := by
  obtain ⟨i, hi⟩ : ∃ i : Fin 2098, (i.1 : ℤ) - 1074 = l :=
    ⟨⟨(l + 1074).toNat, by omega⟩, by simp; omega⟩
  obtain ⟨h₁, h₂⟩ := zpow_bounds_nat i
  rw [hi] at h₁ h₂
  have hten : (10 : ℚ) ≠ 0 := by norm_num
  constructor
  · rw [zpow_eq_div hten, zpow_eq_div two_ne_zero, div_le_div_iff₀ (by positivity) (by positivity)]
    exact_mod_cast h₁
  · rw [zpow_eq_div hten, zpow_eq_div two_ne_zero, div_le_div_iff₀ (by positivity) (by positivity)]
    exact_mod_cast h₂

variable {m : ℕ} {e : ℤ}

/-- The scale of a value is the number of its places before the point. -/
theorem scale_spec (hm : 0 < m) (hc : Canonical m e) (he : e ≤ 971) :
    10 ^ (scale ⟨m, e⟩ - 1) ≤ Dyadic.toRat ⟨m, e⟩ ∧ Dyadic.toRat ⟨m, e⟩ < 10 ^ scale ⟨m, e⟩ := by
  have hlog : m.log2 ≤ 52 := by
    have hsmall := hc.lt_two_pow hm
    exact Nat.le_of_lt_succ ((Nat.log2_lt hm.ne').2 hsmall)
  have hlow : -1074 ≤ e := by
    unfold Canonical at hc
    omega
  obtain ⟨hleast, hmost⟩ := zpow_bounds (l := m.log2 + e) (by omega) (by omega)
  have hv₁ : (2 : ℚ) ^ (m.log2 + e : ℤ) ≤ Dyadic.toRat ⟨m, e⟩ := by
    unfold Dyadic.toRat
    rw [zpow_add₀ two_ne_zero, zpow_natCast]
    gcongr
    exact_mod_cast Nat.log2_self_le hm.ne'
  have hv₂ : Dyadic.toRat ⟨m, e⟩ < (2 : ℚ) ^ (m.log2 + e + 1 : ℤ) := by
    unfold Dyadic.toRat
    rw [add_right_comm, zpow_add₀ two_ne_zero]
    gcongr
    exact_mod_cast Nat.lt_log2_self
  unfold scale
  simp only [decide_eq_true_eq, Dyadic.scaled_lt_iff]
  generalize ((m.log2 : ℤ) + e) * 30103 / 100000 = guess at hleast hmost
  split_ifs with h₁ h₂ h₃
  · rw [sub_sub]
    exact ⟨hleast.trans hv₁, h₁⟩
  · exact ⟨not_lt.1 h₁, h₂⟩
  · rw [add_sub_cancel_right]
    exact ⟨not_lt.1 h₂, h₃⟩
  · rw [show guess + 2 - 1 = guess + 1 by ring]
    exact ⟨not_lt.1 h₃, hv₂.trans_le hmost⟩

/-! ## Digits -/

/-- How many digits there are. -/
def count (d : Decimal) : ℕ := (digitList d.digits).length

theorem count_pos (d : Decimal) : 0 < d.count := Nat.length_toDigits_pos

theorem count_le_iff {d : Decimal} {k : ℕ} (hk : 0 < k) : d.count ≤ k ↔ d.digits < 10 ^ k :=
  Nat.length_toDigits_le_iff (by decide) hk

theorem digits_lt (d : Decimal) : d.digits < 10 ^ d.count := (count_le_iff d.count_pos).1 le_rfl

theorem pow_le_digits {d : Decimal} (hd : d.digits ≠ 0) : 10 ^ (d.count - 1) ≤ d.digits := by
  by_cases hone : d.count = 1
  · rw [hone]
    exact Nat.pos_of_ne_zero hd
  · have hpos := d.count_pos
    by_contra hlt
    rw [not_le, ← count_le_iff (by omega)] at hlt
    omega

theorem zpow_le_toRat {d : Decimal} (hd : d.digits ≠ 0) :
    (10 : ℚ) ^ (d.exponent + d.count - 1) ≤ d.toRat := by
  have hpos := d.count_pos
  have hdigits : ((10 ^ (d.count - 1) : ℕ) : ℚ) ≤ d.digits := Nat.cast_le.2 (pow_le_digits hd)
  calc (10 : ℚ) ^ (d.exponent + d.count - 1)
      = ((10 ^ (d.count - 1) : ℕ) : ℚ) * 10 ^ d.exponent := by
        rw [Nat.cast_pow, Nat.cast_ofNat, ← zpow_natCast, ← zpow_add₀ (by norm_num)]
        congr 1
        omega
    _ ≤ d.toRat := mul_le_mul_of_nonneg_right hdigits (by positivity)

theorem toRat_lt_zpow (d : Decimal) : d.toRat < (10 : ℚ) ^ (d.exponent + d.count) := by
  have hdigits : (d.digits : ℚ) < ((10 ^ d.count : ℕ) : ℚ) := Nat.cast_lt.2 d.digits_lt
  calc d.toRat < ((10 ^ d.count : ℕ) : ℚ) * 10 ^ d.exponent :=
        mul_lt_mul_of_pos_right hdigits (by positivity)
    _ = (10 : ℚ) ^ (d.exponent + d.count) := by
        rw [Nat.cast_pow, Nat.cast_ofNat, ← zpow_natCast, ← zpow_add₀ (by norm_num), add_comm]

theorem toRat_one (k : ℤ) : toRat ⟨1, k⟩ = 10 ^ k := by
  unfold toRat
  rw [Nat.cast_one, one_mul]

theorem exponent_le_of_toRat_le {d d' : Decimal} (hd : d.digits ≠ 0) (hcount : d.count = d'.count)
    (hle : d.toRat ≤ d'.toRat) : d.exponent ≤ d'.exponent := by
  have hlt := (zpow_le_toRat hd).trans_lt (hle.trans_lt d'.toRat_lt_zpow)
  rw [zpow_lt_zpow_iff_right₀ (by norm_num), hcount] at hlt
  omega

theorem eq_of_toRat_eq {d d' : Decimal} (hd : d.digits ≠ 0) (hd' : d'.digits ≠ 0)
    (hcount : d.count = d'.count) (hvalue : d.toRat = d'.toRat) : d = d' := by
  have hexponent : d.exponent = d'.exponent :=
    le_antisymm (exponent_le_of_toRat_le hd hcount hvalue.le)
      (exponent_le_of_toRat_le hd' hcount.symm hvalue.ge)
  have hdigits : d.digits = d'.digits := by
    have hten : (10 : ℚ) ^ d'.exponent ≠ 0 := by positivity
    unfold toRat at hvalue
    rw [hexponent] at hvalue
    exact_mod_cast mul_right_cancel₀ hten hvalue
  cases d
  cases d'
  simp_all

/-! ## Reading back -/

/-- The exact size of a float. -/
def size (x : Float) : ℚ := (Dyadic.ofFloat x).toRat

section

variable {x : Float} (hfinite : x.isFinite = true) (hpos : 0 < size x)

include hfinite hpos

theorem exists_unpacked : ∃ s m e hm, unpacked x = .finite s m e hm ∧ Canonical m e ∧ e ≤ 971 ∧
    Dyadic.ofFloat x = ⟨m, e⟩ := by
  obtain ⟨s, hx⟩ | ⟨s, m, e, hm, hx⟩ := unpacked_cases hfinite
  · unfold size Dyadic.toRat at hpos
    rw [(ofFloat_of_unpacked_zero hx).1, Nat.cast_zero, zero_mul] at hpos
    exact absurd hpos (lt_irrefl 0)
  · obtain ⟨hc, he⟩ := canonical_of_unpacked hx
    exact ⟨s, m, e, hm, hx, hc, he, (ofFloat_of_unpacked hx).1⟩

theorem exists_canonical : ∃ (m : ℕ) (e : ℤ), 0 < m ∧ Canonical m e ∧ size x = m * 2 ^ e := by
  obtain ⟨-, m, e, hm, -, hc, -, hv⟩ := exists_unpacked hfinite hpos
  refine ⟨m, e, hm, hc, ?_⟩
  unfold size Dyadic.toRat
  rw [hv]

theorem value?_magnitude : value? (magnitude x) = some (size x) := by
  obtain ⟨s, m, e, hm, hx, -, -, hv⟩ := exists_unpacked hfinite hpos
  unfold value? size
  rw [unpacked_magnitude hx, hv]
  exact congrArg some (one_mul _)

theorem toNearest_size : toNearest (size x) = size x :=
  toNearest_value (isFinite_magnitude hfinite) (value?_magnitude hfinite hpos)

theorem readsAs_iff (d : Decimal) : readsAs d (magnitude x) = true ↔ d.toFloat = magnitude x := by
  obtain ⟨s, m, e, hm, hx, -, -, -⟩ := exists_unpacked hfinite hpos
  unfold readsAs
  constructor
  · intro h
    exact eq_of_beq h (unpacked_magnitude hx)
  · intro h
    rw [h, beq_iff_value]
    exact ⟨_, value?_magnitude hfinite hpos, value?_magnitude hfinite hpos⟩

theorem digits_ne_zero {d : Decimal} (hd : d.toFloat = magnitude x) : d.digits ≠ 0 := by
  intro hzero
  have hvalue := value?_magnitude hfinite hpos
  rw [← hd] at hvalue
  unfold toFloat at hvalue
  rw [if_pos hzero] at hvalue
  exact hpos.ne (Option.some.inj (value?_zero.symm.trans hvalue))

/-- A decimal reads back if its value is rounded to that of the float. -/
theorem reads_iff {d : Decimal} (hd : d.digits ≠ 0) :
    d.toFloat = magnitude x ↔ toNearest d.toRat = size x := by
  have hvalue := value?_magnitude hfinite hpos
  have hread : value? d.toFloat = some (toNearest d.toRat) := by
    rw [toFloat_eq_rounded hd]
    exact value?_rounded (toRat_pos hd)
  constructor
  · intro h
    rw [h, hvalue] at hread
    exact (Option.some.inj hread).symm
  · intro h
    rw [← readsAs_iff hfinite hpos]
    unfold readsAs
    rw [beq_iff_value]
    exact ⟨size x, by rw [hread, h], hvalue⟩

theorem toNearest_of_reads {d : Decimal} (hd : d.toFloat = magnitude x) :
    toNearest d.toRat = size x :=
  (reads_iff hfinite hpos (digits_ne_zero hfinite hpos hd)).1 hd

/-- What lies between two numbers that are rounded to the size reads back. -/
theorem reads_of_between {d : Decimal} {a b : ℚ} (hd : d.digits ≠ 0) (ha : toNearest a = size x)
    (hb : toNearest b = size x) (had : a ≤ d.toRat) (hdb : d.toRat ≤ b) :
    d.toFloat = magnitude x := by
  rw [reads_iff hfinite hpos hd]
  exact le_antisymm ((toNearest_mono hdb).trans_eq hb) (ha.symm.trans_le (toNearest_mono had))

end

end Decimal

end BenchHistory
