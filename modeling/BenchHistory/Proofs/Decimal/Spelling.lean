import BenchHistory.Proofs.Decimal.Digits
import BenchHistory.Proofs.Decimal.Simplest

/-!
# How JavaScript spells floats

JavaScript writes a float with the digits of its simplest decimal, as the writer of values does, but
turns to exponents at other places (`javaScriptText`). The leading place of the simplest decimal
tells on which side of a power of ten the float is (`Simplest.le_leading_iff`), and a number of 53
bits is whole if its simplest decimal is (`Simplest.exponent_nonneg_iff`).
-/

namespace BenchHistory

open Binary64

namespace Decimal

/--
The text of a decimal in JavaScript: its digits around a point that stands at most five zeros before
them or twenty-one places behind the first of them, else a signed exponent. Whole numbers have no
point.
-/
def javaScriptText (d : Decimal) : List Char :=
  if -6 ≤ d.leading ∧ d.leading ≤ 20 then positional false d else scientific d

end Decimal

/--
What `JSON.stringify` writes for a finite float: its simplest decimal behind its sign. Both zeros
have one text.
-/
inductive Spells (x : Float) : List Char → Prop
  | zero (hzero : (x == 0) = true) : Spells x ['0']
  | nonzero {d : Decimal} (hne : (x == 0) = false) (hd : d.Simplest x) :
      Spells x (if signed x then '-' :: d.javaScriptText else d.javaScriptText)

namespace Decimal

/-! ## Sizes -/

theorem size_pos_iff {x : Float} (hfinite : x.isFinite = true) :
    0 < size x ↔ (x == 0) = false := by
  unfold size Dyadic.toRat
  obtain ⟨s, hx⟩ | ⟨s, m, e, hm, hx⟩ := unpacked_cases hfinite
  · rw [(ofFloat_of_unpacked_zero hx).1, Nat.cast_zero, zero_mul, beq_eq, hx, unpacked_zero]
    refine iff_of_false (lt_irrefl 0) ?_
    cases s <;> nofun
  · rw [(ofFloat_of_unpacked hx).1, beq_eq, hx, unpacked_zero]
    refine iff_of_true (by positivity) ?_
    cases s <;> rfl

/-- A finite float has one text. -/
theorem existsUnique_spells {x : Float} (hfinite : x.isFinite = true) : ∃! t, Spells x t := by
  cases hzero : x == 0 with
  | true =>
    refine ⟨['0'], .zero hzero, fun t ht => ?_⟩
    cases ht with
    | zero _ => rfl
    | nonzero hne _ =>
      rw [hzero] at hne
      cases hne
  | false =>
    have hpos := (size_pos_iff hfinite).2 hzero
    refine ⟨_, .nonzero hzero (simplest_shortest hfinite hpos), fun t ht => ?_⟩
    cases ht with
    | zero heq =>
      rw [hzero] at heq
      cases heq
    | nonzero _ hd => rw [(simplest_iff hfinite hpos).1 hd]

theorem toNearest_of_canonical {m : ℕ} (hm : 0 < m) {e : ℤ} (hc : Canonical m e) (he : e ≤ 971) :
    toNearest (m * 2 ^ e) = m * 2 ^ e := by
  have hvalue := value?_packed_finite .positive hm hc he
  unfold factor at hvalue
  rw [one_mul] at hvalue
  refine toNearest_value ?_ hvalue
  rw [isFinite_eq, unpacked_packed_of_canonical .positive hm hc he]
  rfl

/-- Whole numbers of at most 53 bits need no rounding, nor does the next one. -/
theorem toNearest_natCast {n : ℕ} (hn : n ≤ 2 ^ 53) : toNearest n = n := by
  rcases Nat.eq_zero_or_pos n with rfl | hpos
  · exact toNearest_zero
  rcases hn.lt_or_eq with hsmall | rfl
  · have hc : Canonical (full n) (-(52 - n.log2 : ℕ)) := by
      unfold Canonical
      rw [log2_full hpos hsmall]
      omega
    have hvalue := full_mul_zpow n 0
    rw [Nat.cast_zero, zero_sub, pow_zero, mul_one] at hvalue
    rw [← hvalue]
    exact toNearest_of_canonical (full_pos hpos) hc (by omega)
  · have hlog : (2 ^ 52 : ℕ).log2 = 52 := Nat.log2_two_pow
    have hvalue : ((2 ^ 53 : ℕ) : ℚ) = ((2 ^ 52 : ℕ) : ℚ) * 2 ^ (1 : ℤ) := by norm_num
    have hc : Canonical (2 ^ 52) 1 := by
      unfold Canonical
      rw [hlog]
      norm_num
    rw [hvalue]
    exact toNearest_of_canonical (by norm_num) hc (by norm_num)

theorem value?_toFloat {d : Decimal} (hd : d.digits ≠ 0) :
    value? d.toFloat = some (toNearest d.toRat) := by
  rw [toFloat_eq_rounded hd]
  exact value?_rounded (toRat_pos hd)

section

variable {x : Float} (hfinite : x.isFinite = true) (hpos : 0 < size x) {d : Decimal}
  (hd : d.digits ≠ 0)

include hfinite hpos hd

theorem toFloat_le_magnitude_iff : d.toFloat ≤ magnitude x ↔ toNearest d.toRat ≤ size x :=
  le_iff_of_value (value?_toFloat hd) (value?_magnitude hfinite hpos)

theorem magnitude_lt_toFloat_iff : magnitude x < d.toFloat ↔ ¬ d.toFloat ≤ magnitude x := by
  rw [toFloat_le_magnitude_iff hfinite hpos hd, not_le]
  exact lt_iff_of_value (value?_magnitude hfinite hpos) (value?_toFloat hd)

end

/-! ## The leading place -/

theorem leading_eq (d : Decimal) : d.leading = d.exponent + d.count - 1 := rfl

theorem le_leading_iff {d : Decimal} (hd : d.digits ≠ 0) {j : ℤ} :
    j ≤ d.leading ↔ 10 ^ j ≤ d.toRat := by
  have hone : (1 : ℚ) < 10 := by norm_num
  rw [leading_eq]
  constructor
  · intro h
    exact (zpow_le_zpow_right₀ hone.le h).trans (zpow_le_toRat hd)
  · intro h
    have hlt := h.trans_lt d.toRat_lt_zpow
    rw [zpow_lt_zpow_iff_right₀ hone] at hlt
    omega

section

variable {x : Float} (hfinite : x.isFinite = true) (hpos : 0 < size x) {d : Decimal}
  (hd : d.Simplest x)

include hfinite hpos hd

/-- Nothing with as few digits lies between the simplest decimal and the size. -/
theorem Simplest.eq_of_between {c : Decimal} (hcount : c.count ≤ d.count)
    (hc : d.toRat ≤ c.toRat ∧ c.toRat ≤ size x ∨ size x ≤ c.toRat ∧ c.toRat ≤ d.toRat) :
    c.toRat = d.toRat := by
  have hdigits := digits_ne_zero hfinite hpos hd.reads
  have hround := toNearest_of_reads hfinite hpos hd.reads
  have hsize := toNearest_size hfinite hpos
  have hcdigits : c.digits ≠ 0 := by
    have hdpos := toRat_pos hdigits
    rw [Ne, digits_eq_zero_iff]
    obtain ⟨h, -⟩ | ⟨h, -⟩ := hc <;> linarith
  have hread : c.toFloat = magnitude x := by
    obtain ⟨h₁, h₂⟩ | ⟨h₁, h₂⟩ := hc
    · exact reads_of_between hfinite hpos hcdigits hround hsize h₁ h₂
    · exact reads_of_between hfinite hpos hcdigits hsize hround h₁ h₂
  obtain ⟨hle, hsame⟩ := error_of_between hc
  exact hsame (hle.antisymm (hd.closest c hread (hcount.antisymm (hd.fewest c hread))))

theorem Simplest.le_leading {j : ℤ} (hj : 10 ^ j ≤ size x) : j ≤ d.leading := by
  rw [le_leading_iff (digits_ne_zero hfinite hpos hd.reads)]
  by_contra hlt
  rw [not_le, ← toRat_one] at hlt
  have hone : count ⟨1, j⟩ ≤ d.count := by
    rw [count_one]
    exact d.count_pos
  rw [← toRat_one] at hj
  exact hlt.ne' (hd.eq_of_between hfinite hpos hone (.inl ⟨hlt.le, hj⟩))

/-- The leading place tells on which side of a power of ten the float is. -/
theorem Simplest.le_leading_iff {j : ℤ} (hnine : toFloat ⟨9, j - 1⟩ ≠ toFloat ⟨1, j⟩) :
    j ≤ d.leading ↔ toFloat ⟨1, j⟩ ≤ magnitude x := by
  have hdigits := digits_ne_zero hfinite hpos hd.reads
  have hround := toNearest_of_reads hfinite hpos hd.reads
  rw [toFloat_le_magnitude_iff hfinite hpos one_ne_zero, toRat_one]
  constructor
  · intro h
    rw [Decimal.le_leading_iff hdigits] at h
    exact (toNearest_mono h).trans_eq hround
  · intro h
    rcases le_or_gt (10 ^ j) (size x) with hle | hgt
    · exact hd.le_leading hfinite hpos hle
    · -- the power reads back, and so would nine tenths of it if the decimal were below
      by_contra hbelow
      have hten : toNearest (toRat ⟨1, j⟩) = size x := by
        rw [toRat_one]
        exact h.antisymm ((toNearest_size hfinite hpos).symm.trans_le (toNearest_mono hgt.le))
      have hread := (reads_iff hfinite hpos one_ne_zero).2 hten
      have hone : d.count = 1 := by
        have hle := hd.fewest _ hread
        rw [count_one] at hle
        exact hle.antisymm d.count_pos
      have hsmall : d.digits ≤ 9 := by
        have hlt := d.digits_lt
        rw [hone] at hlt
        omega
      have hexponent : d.exponent ≤ j - 1 := by
        rw [leading_eq, hone] at hbelow
        push_cast at hbelow
        omega
      have hlow : d.toRat ≤ toRat ⟨9, j - 1⟩ := by
        have hdigit : (d.digits : ℚ) ≤ (9 : ℕ) := Nat.cast_le.2 hsmall
        exact mul_le_mul hdigit (zpow_le_zpow_right₀ (by norm_num) hexponent) (by positivity)
          (by positivity)
      have hhigh : toRat ⟨9, j - 1⟩ ≤ toRat ⟨1, j⟩ := by
        have hpow := toRat_pow 1 (j - 1)
        rw [Nat.cast_one, add_sub_cancel, pow_one] at hpow
        rw [toRat_one, ← hpow]
        exact (toRat_lt_iff.2 (by norm_num)).le
      refine hnine (Eq.trans ?_ hread.symm)
      exact reads_of_between hfinite hpos (by norm_num) hround hten hlow hhigh

/-! ## Whole numbers -/

/-- A whole number has no digits behind the point. -/
theorem Simplest.exponent_nonneg {n : ℕ} (hn : size x = n) : 0 ≤ d.exponent := by
  by_contra hneg
  have hnpos : n ≠ 0 := by
    rintro rfl
    exact hpos.ne' (hn.trans Nat.cast_zero)
  have hvalue : toRat ⟨n, 0⟩ = size x := by
    unfold toRat
    rw [zpow_zero, mul_one, hn]
  have hread : toFloat ⟨n, 0⟩ = magnitude x := by
    rw [reads_iff hfinite hpos hnpos, hvalue]
    exact toNearest_size hfinite hpos
  have hfewest := hd.fewest _ hread
  have hcount := d.count_pos
  have hlow : d.toRat < toRat ⟨1, d.count - 1⟩ := by
    rw [toRat_one]
    refine d.toRat_lt_zpow.trans_le (zpow_le_zpow_right₀ (by norm_num) ?_)
    omega
  have hhigh : toRat ⟨1, d.count - 1⟩ ≤ size x := by
    rw [toRat_one, ← hvalue]
    refine le_trans (zpow_le_zpow_right₀ (by norm_num) ?_) (zpow_le_toRat (d := ⟨n, 0⟩) hnpos)
    show (d.count : ℤ) - 1 ≤ 0 + count ⟨n, 0⟩ - 1
    omega
  have hone : count ⟨1, d.count - 1⟩ ≤ d.count := by
    rw [count_one]
    exact hcount
  exact hlow.ne' (hd.eq_of_between hfinite hpos hone (.inl ⟨hlow.le, hhigh⟩))

theorem Simplest.leading_nonneg {n : ℕ} (hn : size x = n) : 0 ≤ d.leading := by
  refine hd.le_leading hfinite hpos ?_
  rw [hn] at hpos ⊢
  rw [zpow_zero]
  exact_mod_cast hpos

theorem Simplest.size_eq {n : ℕ} (hn : d.toRat = n) (hsmall : size x < 2 ^ 53) : size x = n := by
  have hround := toNearest_of_reads hfinite hpos hd.reads
  rw [hn] at hround
  rcases le_or_gt n (2 ^ 53) with hle | hgt
  · rw [← hround, toNearest_natCast hle]
  · have hmono : toNearest ((2 ^ 53 : ℕ) : ℚ) ≤ toNearest n := toNearest_mono (Nat.cast_le.2 hgt.le)
    rw [toNearest_natCast le_rfl, hround] at hmono
    push_cast at hmono
    exact absurd hmono hsmall.not_ge

omit hfinite hpos hd in
theorem toRat_of_exponent_nonneg (hexponent : 0 ≤ d.exponent) :
    d.toRat = (d.digits * 10 ^ d.exponent.toNat : ℕ) := by
  unfold toRat
  rw [← Int.toNat_of_nonneg hexponent, zpow_natCast]
  push_cast
  rfl

/-- A number of 53 bits is whole if its simplest decimal has no digits behind the point. -/
theorem Simplest.exponent_nonneg_iff (hsmall : size x < 2 ^ 53) :
    0 ≤ d.exponent ↔ ∃ n : ℕ, size x = n := by
  constructor
  · intro h
    exact ⟨_, hd.size_eq hfinite hpos (toRat_of_exponent_nonneg h) hsmall⟩
  · rintro ⟨n, hn⟩
    exact hd.exponent_nonneg hfinite hpos hn

theorem Simplest.leading_le (hsmall : size x < 2 ^ 53) : d.leading ≤ 15 := by
  have hdigits := digits_ne_zero hfinite hpos hd.reads
  by_contra hlarge
  have hle : (16 : ℤ) ≤ d.leading := by omega
  rw [Decimal.le_leading_iff hdigits] at hle
  have hmono := toNearest_mono (show ((2 ^ 53 : ℕ) : ℚ) ≤ d.toRat by
    refine le_trans ?_ hle
    norm_num)
  rw [toNearest_natCast le_rfl, toNearest_of_reads hfinite hpos hd.reads] at hmono
  push_cast at hmono
  exact absurd hmono hsmall.not_ge

end

/-! ## Texts -/

theorem digitList_mul_pow {n : ℕ} (hn : 0 < n) (k : ℕ) :
    digitList (n * 10 ^ k) = digitList n ++ List.replicate k '0' := by
  induction k with
  | zero => simp
  | succ k ih =>
    have hlarge : 10 ≤ n * 10 ^ (k + 1) := by
      have hpow : 0 < 10 ^ k := by positivity
      rw [pow_succ]
      nlinarith
    have hdiv : n * 10 ^ (k + 1) / 10 = n * 10 ^ k := by
      rw [pow_succ, ← mul_assoc, Nat.mul_div_cancel _ (by norm_num)]
    have hmod : n * 10 ^ (k + 1) % 10 = 0 := by
      rw [pow_succ, ← mul_assoc, Nat.mul_mod_left]
    have hlast : digitList (n * 10 ^ (k + 1)) =
        digitList (n * 10 ^ (k + 1) / 10) ++ [(n * 10 ^ (k + 1) % 10).digitChar] :=
      Nat.toDigits_of_base_le (by decide) hlarge
    rw [hlast, hdiv, hmod, ih, List.append_assoc, List.replicate_succ']
    rfl

theorem positional_of_nonneg {d : Decimal} (hexponent : 0 ≤ d.exponent) (mark : Bool) :
    positional mark d = digitList d.digits ++ List.replicate d.exponent.toNat '0' ++
      (if mark then ['.', '0'] else []) := by
  have hcount : 0 < (digitList d.digits).length := d.count_pos
  unfold positional
  simp only
  rw [if_neg (by omega), if_pos (by omega)]
  congr 3
  omega

theorem positional_of_neg {d : Decimal} (hexponent : d.exponent < 0) (mark : Bool) :
    positional mark d = positional false d := by
  unfold positional
  simp only
  split
  · rfl
  split
  · omega
  · rfl

theorem mem_scientific (d : Decimal) : 'e' ∈ scientific d := by
  unfold scientific
  simp only
  split <;> simp

theorem not_mem_positional (mark : Bool) (d : Decimal) : 'e' ∉ positional mark d := by
  have hdigits : 'e' ∉ digitList d.digits := by
    intro h
    cases isDigit_of_mem_digitList h
  unfold positional
  simp only
  split
  · simp [hdigits]
  split
  · cases mark <;> simp [hdigits]
  · intro h
    rw [List.mem_append, List.mem_cons] at h
    obtain h | h | h := h
    · exact hdigits (List.mem_of_mem_take h)
    · cases h
    · exact hdigits (List.mem_of_mem_drop h)

theorem scientific_ne_positional (d : Decimal) (mark : Bool) :
    scientific d ≠ positional mark d := by
  intro h
  exact not_mem_positional mark d (h ▸ mem_scientific d)

end Decimal

end BenchHistory
