import BenchHistory.Proofs.Decimal.Fewest
import Mathlib.Tactic.NormNum.Prime

/-!
# The decimal that a float is written with

A decimal is the simplest one of a float if it reads back with the fewest digits, is the closest
of those and even among equally close ones. There is exactly one, and the search finds it
(`simplest_iff`).
-/

namespace BenchHistory.Decimal

open Binary64

/--
The decimal that a float is written with. No decimal that reads back has fewer digits; none with as
many is closer; and the digits are even if another one is as close.
-/
structure Simplest (x : Float) (d : Decimal) : Prop where
  reads : d.toFloat = magnitude x
  fewest : ∀ d' : Decimal, d'.toFloat = magnitude x → d.count ≤ d'.count
  closest : ∀ d' : Decimal, d'.toFloat = magnitude x → d'.count = d.count →
    error x d ≤ error x d'
  even : ∀ d' : Decimal, d'.toFloat = magnitude x → d'.count = d.count → error x d' = error x d →
    d' ≠ d → d.digits % 2 = 0

theorem count_one (k : ℤ) : count ⟨1, k⟩ = 1 := by
  unfold count digitList
  rw [Nat.toDigits_of_lt_base (show 1 < 10 by decide), List.length_singleton]

theorem toRat_pow (n : ℕ) (k : ℤ) : toRat ⟨10 ^ n, k⟩ = 10 ^ (n + k) := by
  unfold toRat
  rw [Nat.cast_pow, Nat.cast_ofNat, zpow_add₀ (by norm_num), zpow_natCast]

theorem toRat_lt_iff {m n : ℕ} {k : ℤ} : toRat ⟨m, k⟩ < toRat ⟨n, k⟩ ↔ m < n := by
  unfold toRat
  rw [mul_lt_mul_iff_left₀ (by positivity), Nat.cast_lt]

/-! ## Zeros at the end -/

theorem digits_stripZeros_le (fuel : ℕ) (d : Decimal) : (stripZeros fuel d).digits ≤ d.digits := by
  induction fuel generalizing d with
  | zero => exact le_rfl
  | succ fuel ih =>
    unfold stripZeros
    split
    · exact (ih _).trans (Nat.div_le_self _ _)
    · exact le_rfl

theorem digits_stripZeros_le_div (fuel : ℕ) {d : Decimal} (hd : d.digits % 10 = 0) :
    (stripZeros (fuel + 1) d).digits ≤ d.digits / 10 := by
  unfold stripZeros
  split
  · exact digits_stripZeros_le fuel _
  · next hnot =>
    have hzero : d.digits = 0 := by simpa [hd] using hnot
    rw [hzero]

theorem digits_stripZeros_lt (fuel : ℕ) {n : ℕ} (hn : 0 < n) {d : Decimal}
    (hd : d.digits ≤ 10 ^ n) : (stripZeros (fuel + 1) d).digits < 10 ^ n := by
  rcases hd.lt_or_eq with hlt | heq
  · exact (digits_stripZeros_le _ d).trans_lt hlt
  · have hten : 0 < 10 ^ n := by positivity
    have hzero : d.digits % 10 = 0 := by
      rw [heq]
      exact Nat.mod_eq_zero_of_dvd (dvd_pow_self 10 hn.ne')
    have hless := digits_stripZeros_le_div fuel hzero
    omega

/-! ## Equally close decimals -/

theorem error_congr {x : Float} {d d' : Decimal} (h : d.toRat = d'.toRat) :
    error x d = error x d' := by
  unfold error
  rw [h]

theorem add_eq_of_error_eq {x : Float} {d d' : Decimal} (hlt : d.toRat < d'.toRat)
    (heq : error x d = error x d') : d.toRat + d'.toRat = 2 * size x := by
  unfold error at heq
  obtain h | h := abs_eq_abs.1 heq <;> linarith

theorem error_lt_of_between {x : Float} {d d' c : Decimal} (heq : error x d = error x d')
    (hlow : d.toRat < c.toRat) (hhigh : c.toRat < d'.toRat) : error x c < error x d := by
  have hmiddle := add_eq_of_error_eq (hlow.trans hhigh) heq
  unfold error
  rw [abs_of_neg (show d.toRat - size x < 0 by linarith), abs_lt]
  constructor <;> linarith

section

variable {x : Float} (hfinite : x.isFinite = true) (hpos : 0 < size x)

include hfinite hpos

/-- No float is in the middle of nine and ten tenths, as two is no multiple of five. -/
theorem size_ne_of_neg {k : ℤ} (hk : k < 0) : 2 * size x ≠ 19 * 10 ^ k := by
  intro hmiddle
  obtain ⟨m, e, -, -, hsize⟩ := exists_canonical hfinite hpos
  rw [hsize, zpow_eq_div two_ne_zero, zpow_eq_div (show (10 : ℚ) ≠ 0 by norm_num),
    show k.toNat = 0 by omega] at hmiddle
  have hcast : ((2 * (m * 2 ^ e.toNat) * 10 ^ (-k).toNat : ℕ) : ℚ) = (19 * 2 ^ (-e).toNat : ℕ) := by
    push_cast
    field_simp at hmiddle
    linarith
  have hnat : 2 * (m * 2 ^ e.toNat) * 10 ^ (-k).toNat = 19 * 2 ^ (-e).toNat := by
    exact_mod_cast hcast
  have hfive : 5 ∣ 19 * 2 ^ (-e).toNat := by
    rw [← hnat]
    exact Dvd.dvd.mul_left (dvd_pow (by norm_num) (by omega)) _
  have hprime : Nat.Prime 5 := by norm_num
  obtain h | h := hprime.dvd_mul.1 hfive
  · omega
  · have htwo := hprime.dvd_of_dvd_pow h
    omega

/-- Nine and ten units of the last place never both read back if they are equally close. -/
theorem error_nine_ne_ten {k : ℤ} (hnine : toFloat ⟨9, k⟩ = magnitude x) :
    error x ⟨9, k⟩ ≠ error x ⟨10, k⟩ := by
  intro heq
  have hvalue : ∀ n : ℕ, toRat ⟨n, k⟩ = n * 10 ^ k := fun _ => rfl
  have hmiddle := add_eq_of_error_eq (toRat_lt_iff.2 (by norm_num)) heq
  rw [hvalue, hvalue, ← add_mul] at hmiddle
  push_cast at hmiddle
  rcases lt_or_ge k 0 with hneg | hnonneg
  · refine size_ne_of_neg hfinite hpos hneg ?_
    rw [← hmiddle]
    norm_num
  · have hone : (1 : ℚ) ≤ 10 ^ k := one_le_zpow₀ (by norm_num) hnonneg
    have hround := toNearest_of_reads hfinite hpos hnine
    rw [hvalue] at hround
    push_cast at hround
    have hnear : near (9 * 10 ^ k) = size x := by
      have hlimit := value_lt_limit (isFinite_magnitude hfinite) (value?_magnitude hfinite hpos)
      rw [← hround] at hlimit ⊢
      exact near_eq_toNearest (by positivity) hlimit
    have hclose := abs_near_sub_le_of_one_le (show (1 : ℚ) ≤ 9 * 10 ^ k by linarith)
    rw [hnear, abs_of_nonneg (by linarith)] at hclose
    linarith

section

variable {s : ℤ} (hleast : 10 ^ (s - 1) ≤ size x) (hmost : size x < 10 ^ s) {n : ℕ} (hn : 0 < n)
  {c : Decimal} (hc : Taken x (s - n) c)
  (hfewest : ∀ d : Decimal, d.toFloat = magnitude x → n ≤ d.count)

include hleast hmost hn hc

omit hfinite in
theorem digits_le_of_taken : c.digits ≤ 10 ^ n := by
  obtain ⟨-, hfloor⟩ := floor_bounds hpos hleast hmost hn
  obtain h | h := hc.neighbour <;> omega

include hfewest

/-- What is taken has no more digits than the grid asks for if the other neighbour is as close. -/
theorem digits_ne_of_tie {j : ℕ} (hj : Neighbour x (s - n) j)
    (hread : toFloat ⟨j, s - n⟩ = magnitude x) (hother : j ≠ c.digits)
    (heq : error x ⟨j, s - n⟩ = error x c) : c.digits ≠ 10 ^ n := by
  intro hfull
  have hc' : c = ⟨10 ^ n, s - n⟩ := by
    rw [← hfull, ← hc.exponent_eq]
  have hten : toFloat ⟨1, s⟩ = magnitude x := by
    rw [← hc.reads, hc']
    refine toFloat_congr ?_
    rw [toRat_one, toRat_pow, add_sub_cancel]
  -- a power of ten has one digit, so the units are nine and ten
  have hone : n = 1 := by
    have hle := hfewest ⟨1, s⟩ hten
    rw [count_one] at hle
    omega
  subst hone
  have hnine : j = 9 := by
    unfold Neighbour at hj
    obtain ⟨-, hfloor⟩ := floor_bounds hpos hleast hmost hn
    obtain h | h := hc.neighbour <;> omega
  rw [hnine] at hread heq
  rw [hc'] at heq
  exact error_nine_ne_ten hfinite hpos hread heq

/-- With the fewest digits, what is taken is even if another decimal is as close. -/
theorem even_of_taken {d d' : Decimal} (hvalue : d.toRat = c.toRat) (hcount : d.count = n)
    (hd' : d'.toFloat = magnitude x) (hcount' : d'.count = n) (heq : error x d' = error x d)
    (hne : d' ≠ d) : d.digits % 2 = 0 := by
  have hreads : d.toFloat = magnitude x := (toFloat_congr hvalue).trans hc.reads
  have hdigits := digits_ne_zero hfinite hpos hreads
  obtain ⟨j, hj, hread, hle, hsame⟩ := exists_neighbour hfinite hpos hleast hmost hd'
  rw [hcount'] at hj hread hle hsame
  rw [error_congr hvalue] at heq
  have hclosest := hc.closest j hj hread
  have herror : error x ⟨j, s - n⟩ = error x c := le_antisymm (hle.trans_eq heq) hclosest
  have hother : j ≠ c.digits := by
    intro hj'
    refine hne (eq_of_toRat_eq (digits_ne_zero hfinite hpos hd') hdigits
      (hcount'.trans hcount.symm) ?_)
    rw [hvalue, ← hsame (herror.trans heq.symm), hj', ← hc.exponent_eq]
  have hless : c.digits < 10 ^ n :=
    (digits_le_of_taken hpos hleast hmost hn hc).lt_of_ne
      (digits_ne_of_tie hfinite hpos hleast hmost hn hc hfewest hj hread hother herror)
  have hkept : c.count = d.count := by
    rw [hcount]
    exact le_antisymm ((count_le_iff hn).2 hless) (hfewest c hc.reads)
  rw [← eq_of_toRat_eq (digits_ne_zero hfinite hpos hc.reads) hdigits hkept hvalue.symm]
  exact hc.even j hj hread hother herror

end

/-- The search finds the simplest decimal. -/
theorem simplest_shortest : Simplest x (shortest .toEven x) := by
  obtain ⟨s, n, c, hleast, hmost, hn, hc, hshortest, hfewest⟩ := exists_taken hfinite hpos
  rw [hshortest]
  have hvalue := toRat_stripZeros 17 c
  have hreads : (stripZeros 17 c).toFloat = magnitude x :=
    (toFloat_congr hvalue).trans hc.reads
  have hcount : (stripZeros 17 c).count = n := by
    refine le_antisymm ?_ (hfewest _ hreads)
    rw [count_le_iff hn]
    exact digits_stripZeros_lt 16 hn (digits_le_of_taken hpos hleast hmost hn hc)
  refine ⟨hreads, fun d hd => hcount.trans_le (hfewest d hd), fun d hd hcount' => ?_,
    fun d hd hcount' => ?_⟩
  · obtain ⟨j, hj, hread, hle, -⟩ := exists_neighbour hfinite hpos hleast hmost hd
    rw [hcount', hcount] at hj hread hle
    rw [error_congr hvalue]
    exact (hc.closest j hj hread).trans hle
  · exact even_of_taken hfinite hpos hleast hmost hn hc hfewest hvalue hcount hd
      (hcount'.trans hcount)

omit hfinite hpos in
theorem Simplest.alike {d d' : Decimal} (hd : Simplest x d) (hd' : Simplest x d') :
    d'.count = d.count ∧ error x d = error x d' := by
  have hcount : d'.count = d.count := (hd'.fewest d hd.reads).antisymm (hd.fewest d' hd'.reads)
  exact ⟨hcount, (hd.closest d' hd'.reads hcount).antisymm (hd'.closest d hd.reads hcount.symm)⟩

theorem Simplest.not_between {d d' c : Decimal} (hd : Simplest x d) (hd' : Simplest x d')
    (hlow : d.toRat < c.toRat) (hhigh : c.toRat < d'.toRat) : d.count < c.count := by
  obtain ⟨-, heq⟩ := hd.alike hd'
  have hdigits := digits_ne_zero hfinite hpos hd.reads
  have hc : c.digits ≠ 0 := by
    intro hzero
    rw [digits_eq_zero_iff.1 hzero] at hlow
    exact hlow.not_gt (toRat_pos hdigits)
  have hread := reads_of_between hfinite hpos hc (toNearest_of_reads hfinite hpos hd.reads)
    (toNearest_of_reads hfinite hpos hd'.reads) hlow.le hhigh.le
  refine (hd.fewest c hread).lt_of_ne fun hsame => ?_
  exact (error_lt_of_between heq hlow hhigh).not_ge (hd.closest c hread hsame.symm)

/-- Of two simplest decimals neither is less. -/
theorem Simplest.not_lt {d d' : Decimal} (hd : Simplest x d) (hd' : Simplest x d') :
    ¬ d.toRat < d'.toRat := by
  intro hlt
  obtain ⟨hcount, heq⟩ := hd.alike hd'
  have hdigits := digits_ne_zero hfinite hpos hd.reads
  have hdigits' := digits_ne_zero hfinite hpos hd'.reads
  have hne : d' ≠ d := fun h => hlt.ne (by rw [h])
  have heven := hd.even d' hd'.reads hcount heq.symm hne
  have heven' := hd'.even d hd.reads hcount.symm heq hne.symm
  rcases (exponent_le_of_toRat_le hdigits hcount.symm hlt.le).lt_or_eq with hfiner | hsame
  · -- a power of ten stands between decimals of different places
    have hten : d.toRat < toRat ⟨1, d.exponent + d.count⟩ := by
      rw [toRat_one]
      exact d.toRat_lt_zpow
    have hnot : ¬ d.count < count ⟨1, d.exponent + d.count⟩ := by
      have hpos := d.count_pos
      rw [count_one]
      omega
    have hle : toRat ⟨1, d.exponent + d.count⟩ ≤ d'.toRat := by
      rw [toRat_one]
      refine le_trans (zpow_le_zpow_right₀ (by norm_num) ?_) (zpow_le_toRat hdigits')
      omega
    rcases hle.lt_or_eq with hbelow | hvalue
    · exact hnot (hd.not_between hfinite hpos hd' hten hbelow)
    · have hread : toFloat ⟨1, d.exponent + d.count⟩ = magnitude x :=
        (toFloat_congr hvalue).trans hd'.reads
      have hone : count ⟨1, d.exponent + d.count⟩ = d'.count := by
        refine le_antisymm ?_ (hd'.fewest _ hread)
        rw [count_one]
        exact d'.count_pos
      rw [← eq_of_toRat_eq one_ne_zero hdigits' hone hvalue] at heven'
      cases heven'
  · -- between even neighbours of one place stands an odd one
    have hodd : d.digits + 1 < d'.digits := by
      have hless : d.digits < d'.digits := by
        have hlt' : toRat ⟨d.digits, d.exponent⟩ < toRat ⟨d'.digits, d'.exponent⟩ := hlt
        rw [hsame] at hlt'
        exact toRat_lt_iff.1 hlt'
      omega
    have hlow : d.toRat < toRat ⟨d.digits + 1, d.exponent⟩ := toRat_lt_iff.2 d.digits.lt_succ_self
    have hhigh : toRat ⟨d.digits + 1, d.exponent⟩ < d'.toRat := by
      rw [hsame]
      exact toRat_lt_iff.2 hodd
    have hmore := hd.not_between hfinite hpos hd' hlow hhigh
    have hfew : count ⟨d.digits + 1, d.exponent⟩ ≤ d'.count := by
      rw [count_le_iff d'.count_pos]
      exact hodd.trans d'.digits_lt
    omega

/-- There is one simplest decimal, and the search finds it. -/
theorem simplest_iff {d : Decimal} : Simplest x d ↔ d = shortest .toEven x := by
  constructor
  · intro hd
    have hs := simplest_shortest hfinite hpos
    have hvalue : d.toRat = (shortest .toEven x).toRat :=
      le_antisymm (not_lt.1 (hs.not_lt hfinite hpos hd)) (not_lt.1 (hd.not_lt hfinite hpos hs))
    exact eq_of_toRat_eq (digits_ne_zero hfinite hpos hd.reads)
      (digits_ne_zero hfinite hpos hs.reads)
      (hs.alike hd).1 hvalue
  · rintro rfl
    exact simplest_shortest hfinite hpos

end

end BenchHistory.Decimal
