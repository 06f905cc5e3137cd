import BenchHistory.Proofs.Decimal.Search
import Mathlib.Tactic.LinearCombination

/-!
# The fewest digits, and the closest of them

On a grid the search takes the closer one of the two neighbours of the size that read back, and the
even one of equally close neighbours (`onGrid_cases`). A decimal that reads back has a neighbour on
the grid of its digits that does and is as close (`exists_neighbour`), and with seventeen digits
there is one (`exists_seventeen`). So the search ends on the first grid with enough digits
(`exists_taken`).
-/

namespace BenchHistory.Decimal

open Binary64

/-! ## Grids -/

/-- How far a decimal is from the size of a float. -/
def error (x : Float) (d : Decimal) : ℚ := |d.toRat - size x|

/-- The neighbours of the size of a float on a grid. -/
def Neighbour (x : Float) (exponent : ℤ) (k : ℕ) : Prop :=
  k = ⌊size x * 10 ^ (-exponent)⌋₊ ∨ k = ⌊size x * 10 ^ (-exponent)⌋₊ + 1

/--
A neighbour that reads back. No other one that does is closer, and the digits are even if one is as
close.
-/
structure Taken (x : Float) (exponent : ℤ) (d : Decimal) : Prop where
  exponent_eq : d.exponent = exponent
  neighbour : Neighbour x exponent d.digits
  reads : d.toFloat = magnitude x
  closest : ∀ k, Neighbour x exponent k → toFloat ⟨k, exponent⟩ = magnitude x →
    error x d ≤ error x ⟨k, exponent⟩
  even : ∀ k, Neighbour x exponent k → toFloat ⟨k, exponent⟩ = magnitude x → k ≠ d.digits →
    error x ⟨k, exponent⟩ = error x d → d.digits % 2 = 0

theorem error_of_between {x : Float} {d d' : Decimal}
    (h : d.toRat ≤ d'.toRat ∧ d'.toRat ≤ size x ∨ size x ≤ d'.toRat ∧ d'.toRat ≤ d.toRat) :
    error x d' ≤ error x d ∧ (error x d' = error x d → d'.toRat = d.toRat) := by
  unfold error
  obtain ⟨h₁, h₂⟩ | ⟨h₁, h₂⟩ := h
  · rw [abs_of_nonpos (by linarith), abs_of_nonpos (by linarith)]
    exact ⟨by linarith, fun heq => by linarith⟩
  · rw [abs_of_nonneg (by linarith), abs_of_nonneg (by linarith)]
    exact ⟨by linarith, fun heq => by linarith⟩

theorem mul_zpow_neg_cancel (q : ℚ) (k : ℤ) : q * 10 ^ (-k) * 10 ^ k = q := by
  rw [mul_assoc, ← zpow_add₀ (by norm_num), neg_add_cancel, zpow_zero, mul_one]

theorem error_floor {x : Float} (hpos : 0 < size x) (k : ℤ) :
    error x ⟨⌊size x * 10 ^ (-k)⌋₊, k⟩ =
      (size x * 10 ^ (-k) - ⌊size x * 10 ^ (-k)⌋₊) * 10 ^ k := by
  have hfloor : (⌊size x * 10 ^ (-k)⌋₊ : ℚ) ≤ size x * 10 ^ (-k) := Nat.floor_le (by positivity)
  have hscaled := mul_zpow_neg_cancel (size x) k
  have hten : (0 : ℚ) < 10 ^ k := by positivity
  unfold error toRat
  rw [abs_sub_comm, abs_of_nonneg, sub_mul, hscaled]
  rw [sub_nonneg]
  calc (⌊size x * 10 ^ (-k)⌋₊ : ℚ) * 10 ^ k ≤ size x * 10 ^ (-k) * 10 ^ k := by gcongr
    _ = size x := hscaled

theorem error_floor_add_one (x : Float) (k : ℤ) :
    error x ⟨⌊size x * 10 ^ (-k)⌋₊ + 1, k⟩ =
      (1 - (size x * 10 ^ (-k) - ⌊size x * 10 ^ (-k)⌋₊)) * 10 ^ k := by
  have hfloor := Nat.lt_floor_add_one (size x * 10 ^ (-k))
  have hscaled := mul_zpow_neg_cancel (size x) k
  have hten : (0 : ℚ) < 10 ^ k := by positivity
  unfold error toRat
  rw [abs_of_nonneg]
  · push_cast
    linear_combination hscaled
  · rw [sub_nonneg]
    push_cast
    calc size x = size x * 10 ^ (-k) * 10 ^ k := hscaled.symm
      _ ≤ (⌊size x * 10 ^ (-k)⌋₊ + 1) * 10 ^ k := by gcongr

/-- What the rest of the division tells of the two neighbours. -/
theorem rest_iff {x : Float} (hpos : 0 < size x) (k : ℤ) {n d : ℕ}
    (hscaled : (Dyadic.ofFloat x).scaled (-k) = (n, d)) :
    (2 * (n % d) = d ↔ error x ⟨n / d, k⟩ = error x ⟨n / d + 1, k⟩) ∧
      (2 * (n % d) < d ↔ error x ⟨n / d, k⟩ < error x ⟨n / d + 1, k⟩) := by
  have hd := (Dyadic.ofFloat x).scaled_pos (-k)
  have hfloor := (Dyadic.ofFloat x).scaled_div (-k)
  have hrest := (Dyadic.ofFloat x).scaled_mod (-k)
  rw [hscaled] at hd hfloor hrest
  have hd' : (0 : ℚ) < d := Nat.cast_pos.2 hd
  have hten : (0 : ℚ) < 10 ^ k := by positivity
  have hlow := error_floor hpos k
  have hhigh := error_floor_add_one x k
  unfold size at hlow hhigh
  rw [← hrest, ← hfloor] at hlow hhigh
  simp only at hlow hhigh
  rw [hlow, hhigh, mul_left_inj' hten.ne', mul_lt_mul_iff_left₀ hten, eq_sub_iff_add_eq,
    lt_sub_iff_add_lt, ← two_mul, ← mul_div_assoc, div_eq_one_iff_eq hd'.ne', div_lt_one hd']
  constructor <;> norm_cast

/-- One of the two neighbours is taken if the other one does not stand in its way. -/
theorem taken_of {x : Float} {k : ℤ} {a b : ℕ} (ha : Neighbour x k a)
    (hall : ∀ j, Neighbour x k j → j = a ∨ j = b) (hread : toFloat ⟨a, k⟩ = magnitude x)
    (hother : toFloat ⟨b, k⟩ = magnitude x → error x ⟨a, k⟩ ≤ error x ⟨b, k⟩ ∧
      (error x ⟨b, k⟩ = error x ⟨a, k⟩ → a % 2 = 0)) : Taken x k ⟨a, k⟩ where
  exponent_eq := rfl
  neighbour := ha
  reads := hread
  closest := by
    intro j hj hread'
    obtain rfl | rfl := hall j hj
    · exact le_rfl
    · exact (hother hread').1
  even := by
    intro j hj hread' hne heq
    obtain rfl | rfl := hall j hj
    · exact absurd rfl hne
    · exact (hother hread').2 heq

section

variable {x : Float} (hfinite : x.isFinite = true) (hpos : 0 < size x)

include hfinite hpos

/-- The neighbour that the search takes on a grid, if one reads back. -/
theorem onGrid_cases (k : ℤ) :
    (∃ d, onGrid .toEven (magnitude x) (Dyadic.ofFloat x) k = some d ∧ Taken x k d) ∨
      onGrid .toEven (magnitude x) (Dyadic.ofFloat x) k = none ∧
        ∀ j, Neighbour x k j → toFloat ⟨j, k⟩ ≠ magnitude x := by
  obtain ⟨⟨n, d⟩, hscaled⟩ : ∃ p, (Dyadic.ofFloat x).scaled (-k) = p := ⟨_, rfl⟩
  obtain ⟨htie, hcloser⟩ := rest_iff hpos k hscaled
  have hfloor : n / d = ⌊size x * 10 ^ (-k)⌋₊ := by
    have hdiv := (Dyadic.ofFloat x).scaled_div (-k)
    rwa [hscaled] at hdiv
  have hall : ∀ j, Neighbour x k j ↔ j = n / d ∨ j = n / d + 1 := by
    intro j
    unfold Neighbour
    rw [hfloor]
  have hlow : Neighbour x k (n / d) := (hall _).2 (.inl rfl)
  have hhigh : Neighbour x k (n / d + 1) := (hall _).2 (.inr rfl)
  have hreads := fun j => readsAs_iff hfinite hpos ⟨j, k⟩
  have hnot : ∀ j, readsAs ⟨j, k⟩ (magnitude x) = false → toFloat ⟨j, k⟩ ≠ magnitude x := by
    intro j hj hread
    rw [(hreads j).2 hread] at hj
    cases hj
  unfold onGrid
  rw [hscaled]
  simp only
  cases hl : readsAs ⟨n / d, k⟩ (magnitude x) with
  | true =>
    cases hh : readsAs ⟨n / d + 1, k⟩ (magnitude x) with
    | true =>
      refine .inl ?_
      simp only
      split_ifs with hrest htake htake
      · have heven : n / d % 2 = 0 := by simpa using htake
        refine ⟨_, rfl, taken_of hlow (fun j => (hall j).1) ((hreads _).1 hl) fun _ => ?_⟩
        exact ⟨(htie.1 hrest).le, fun _ => heven⟩
      · have hodd : n / d % 2 ≠ 0 := by simpa using htake
        refine ⟨_, rfl, taken_of hhigh (fun j hj => ((hall j).1 hj).symm) ((hreads _).1 hh)
          fun _ => ?_⟩
        exact ⟨(htie.1 hrest).ge, fun _ => by omega⟩
      · have hlt := hcloser.1 (by simpa using htake)
        refine ⟨_, rfl, taken_of hlow (fun j => (hall j).1) ((hreads _).1 hl) fun _ => ?_⟩
        exact ⟨hlt.le, fun heq => absurd heq hlt.ne'⟩
      · have hge : error x ⟨n / d + 1, k⟩ ≤ error x ⟨n / d, k⟩ := by
          rw [← not_lt, ← hcloser]
          simpa using htake
        refine ⟨_, rfl, taken_of hhigh (fun j hj => ((hall j).1 hj).symm) ((hreads _).1 hh)
          fun _ => ?_⟩
        exact ⟨hge, fun heq => absurd (htie.2 heq) hrest⟩
    | false =>
      exact .inl ⟨_, rfl, taken_of hlow (fun j => (hall j).1) ((hreads _).1 hl)
        fun hread => absurd hread (hnot _ hh)⟩
  | false =>
    cases hh : readsAs ⟨n / d + 1, k⟩ (magnitude x) with
    | true =>
      exact .inl ⟨_, rfl, taken_of hhigh (fun j hj => ((hall j).1 hj).symm) ((hreads _).1 hh)
        fun hread => absurd hread (hnot _ hl)⟩
    | false =>
      refine .inr ⟨rfl, fun j hj => ?_⟩
      obtain rfl | rfl := (hall j).1 hj
      · exact hnot _ hl
      · exact hnot _ hh

omit hfinite in
/-- The neighbour below has as many digits as the grid has places for the size. -/
theorem floor_bounds {s : ℤ} (hleast : 10 ^ (s - 1) ≤ size x) (hmost : size x < 10 ^ s) {n : ℕ}
    (hn : 0 < n) :
    10 ^ (n - 1) ≤ ⌊size x * 10 ^ (-(s - n))⌋₊ ∧ ⌊size x * 10 ^ (-(s - n))⌋₊ < 10 ^ n := by
  have hten : (0 : ℚ) < 10 ^ (-(s - n)) := by positivity
  constructor
  · refine Nat.le_floor ?_
    calc ((10 ^ (n - 1) : ℕ) : ℚ) = 10 ^ (s - 1) * 10 ^ (-(s - n)) := by
          rw [← zpow_add₀ (by norm_num), Nat.cast_pow, Nat.cast_ofNat, ← zpow_natCast]
          congr 1
          omega
      _ ≤ size x * 10 ^ (-(s - n)) := by gcongr
  · rw [Nat.floor_lt (by positivity)]
    calc size x * 10 ^ (-(s - n)) < 10 ^ s * 10 ^ (-(s - n)) := by gcongr
      _ = ((10 ^ n : ℕ) : ℚ) := by
          rw [← zpow_add₀ (by norm_num), Nat.cast_pow, Nat.cast_ofNat, ← zpow_natCast]
          congr 1
          omega

omit hfinite in
theorem toRat_floor_le (k : ℤ) : toRat ⟨⌊size x * 10 ^ (-k)⌋₊, k⟩ ≤ size x := by
  have hfloor : (⌊size x * 10 ^ (-k)⌋₊ : ℚ) ≤ size x * 10 ^ (-k) := Nat.floor_le (by positivity)
  calc toRat ⟨⌊size x * 10 ^ (-k)⌋₊, k⟩ ≤ size x * 10 ^ (-k) * 10 ^ k :=
        mul_le_mul_of_nonneg_right hfloor (by positivity)
    _ = size x := mul_zpow_neg_cancel _ _

omit hfinite hpos in
theorem lt_toRat_floor_add_one (k : ℤ) : size x < toRat ⟨⌊size x * 10 ^ (-k)⌋₊ + 1, k⟩ := by
  have hfloor : size x * 10 ^ (-k) < (⌊size x * 10 ^ (-k)⌋₊ + 1 : ℕ) := by
    exact_mod_cast Nat.lt_floor_add_one _
  calc size x = size x * 10 ^ (-k) * 10 ^ k := (mul_zpow_neg_cancel _ _).symm
    _ < toRat ⟨⌊size x * 10 ^ (-k)⌋₊ + 1, k⟩ := mul_lt_mul_of_pos_right hfloor (by positivity)

/-- On the grid of its digits, a neighbour that reads back is as close as a decimal that does. -/
theorem exists_neighbour {s : ℤ} (hleast : 10 ^ (s - 1) ≤ size x) (hmost : size x < 10 ^ s)
    {d : Decimal} (hd : d.toFloat = magnitude x) :
    ∃ j, Neighbour x (s - d.count) j ∧ toFloat ⟨j, s - d.count⟩ = magnitude x ∧
      error x ⟨j, s - d.count⟩ ≤ error x d ∧
        (error x ⟨j, s - d.count⟩ = error x d → toRat ⟨j, s - d.count⟩ = d.toRat) := by
  have hdigits := digits_ne_zero hfinite hpos hd
  have hround := toNearest_of_reads hfinite hpos hd
  have hsize := toNearest_size hfinite hpos
  have hlow := toRat_floor_le hpos (s - d.count)
  have hhigh := lt_toRat_floor_add_one (x := x) (s - d.count)
  obtain ⟨hfloor, -⟩ := floor_bounds hpos hleast hmost d.count_pos
  rcases le_or_gt d.toRat (size x) with hle | hgt
  · have hbelow : d.toRat ≤ toRat ⟨⌊size x * 10 ^ (-(s - d.count))⌋₊, s - d.count⟩ := by
      have hexponent : d.exponent ≤ s - d.count := by
        have hlt := (zpow_le_toRat hdigits).trans_lt (hle.trans_lt hmost)
        rw [zpow_lt_zpow_iff_right₀ (by norm_num)] at hlt
        omega
      rcases hexponent.lt_or_eq with hfiner | heq
      · -- a finer decimal with as many digits is below the leading place of the size
        calc d.toRat ≤ 10 ^ (d.exponent + d.count) := d.toRat_lt_zpow.le
          _ ≤ 10 ^ (((d.count - 1 : ℕ) : ℤ) + (s - d.count)) := by
              refine zpow_le_zpow_right₀ (by norm_num) ?_
              have hpos := d.count_pos
              omega
          _ = ((10 ^ (d.count - 1) : ℕ) : ℚ) * 10 ^ (s - d.count) := by
              rw [zpow_add₀ (by norm_num), zpow_natCast, Nat.cast_pow, Nat.cast_ofNat]
          _ ≤ _ := mul_le_mul_of_nonneg_right (Nat.cast_le.2 hfloor) (by positivity)
      · have hdigits' : d.digits ≤ ⌊size x * 10 ^ (-(s - d.count))⌋₊ := by
          refine Nat.le_floor ?_
          rw [zpow_neg, ← div_eq_mul_inv, le_div_iff₀ (by positivity), ← heq]
          exact hle
        unfold toRat
        rw [heq]
        gcongr
    refine ⟨_, .inl rfl, ?_, error_of_between (.inl ⟨hbelow, hlow⟩)⟩
    refine reads_of_between hfinite hpos ?_ hround hsize hbelow hlow
    have hten : 0 < 10 ^ (d.count - 1) := by positivity
    exact (hten.trans_le hfloor).ne'
  · have habove : toRat ⟨⌊size x * 10 ^ (-(s - d.count))⌋₊ + 1, s - d.count⟩ ≤ d.toRat := by
      have hexponent : s - d.count ≤ d.exponent := by
        have hlt := hleast.trans_lt (hgt.trans d.toRat_lt_zpow)
        rw [zpow_lt_zpow_iff_right₀ (by norm_num)] at hlt
        omega
      obtain ⟨p, hp⟩ := Int.eq_ofNat_of_zero_le (sub_nonneg.2 hexponent)
      have hvalue : d.toRat = ((d.digits * 10 ^ p : ℕ) : ℚ) * 10 ^ (s - d.count) := by
        unfold toRat
        rw [show d.exponent = p + (s - d.count) by omega, zpow_add₀ (by norm_num), zpow_natCast]
        push_cast
        ring
      have hnext : ⌊size x * 10 ^ (-(s - d.count))⌋₊ + 1 ≤ d.digits * 10 ^ p := by
        refine (Nat.floor_lt (by positivity)).2 ?_
        rw [zpow_neg, ← div_eq_mul_inv, div_lt_iff₀ (by positivity), ← hvalue]
        exact hgt
      rw [hvalue]
      exact mul_le_mul_of_nonneg_right (Nat.cast_le.2 hnext) (by positivity)
    refine ⟨_, .inr rfl, ?_, error_of_between (.inr ⟨hhigh.le, habove⟩)⟩
    exact reads_of_between hfinite hpos (Nat.succ_ne_zero _) hsize hround hhigh.le habove

theorem toNearest_of_close {q : ℚ} (hq : 0 < q) (hclose : 2 ^ 54 * |q - size x| < size x) :
    toNearest q = size x := by
  have hlimit := value_lt_limit (isFinite_magnitude hfinite) (value?_magnitude hfinite hpos)
  obtain ⟨m, e, hm, hc, hsize⟩ := exists_canonical hfinite hpos
  rw [hsize] at hclose hlimit ⊢
  unfold toNearest
  rw [if_pos hq, near_eq_of_close hm hc hq hclose, min_eq_left hlimit.le]

/-- On the grid of seventeen digits, the closer neighbour reads back. -/
theorem exists_seventeen {s : ℤ} (hleast : 10 ^ (s - 1) ≤ size x) (hmost : size x < 10 ^ s) :
    ∃ j, Neighbour x (s - 17) j ∧ toFloat ⟨j, s - 17⟩ = magnitude x := by
  have hten : (0 : ℚ) < 10 ^ (s - 17) := by positivity
  have hlow := error_floor hpos (s - 17)
  have hhigh := error_floor_add_one x (s - 17)
  obtain ⟨hfloor, -⟩ := floor_bounds hpos hleast hmost (n := 17) (by norm_num)
  obtain ⟨j, hj, hne, hhalf⟩ : ∃ j, Neighbour x (s - 17) j ∧ j ≠ 0 ∧
      error x ⟨j, s - 17⟩ ≤ 1 / 2 * 10 ^ (s - 17) := by
    rcases le_or_gt (size x * 10 ^ (-(s - 17)) - ⌊size x * 10 ^ (-(s - 17))⌋₊) (1 / 2) with h | h
    · refine ⟨_, .inl rfl, ?_, ?_⟩
      · have hbig : 0 < ⌊size x * 10 ^ (-(s - (17 : ℕ)))⌋₊ := lt_of_lt_of_le (by norm_num) hfloor
        exact hbig.ne'
      · rw [hlow]
        gcongr
    · refine ⟨_, .inr rfl, Nat.succ_ne_zero _, ?_⟩
      rw [hhigh]
      gcongr
      linarith
  refine ⟨j, hj, (reads_iff hfinite hpos hne).2 ?_⟩
  refine toNearest_of_close hfinite hpos (toRat_pos hne) ?_
  calc 2 ^ 54 * |toRat ⟨j, s - 17⟩ - size x| ≤ 2 ^ 54 * (1 / 2 * 10 ^ (s - 17)) :=
        mul_le_mul_of_nonneg_left hhalf (by positivity)
    _ < 10 ^ 16 * 10 ^ (s - 17) := by
        rw [← mul_assoc]
        gcongr
        norm_num
    _ = 10 ^ (s - 1) := by
        rw [← zpow_natCast, ← zpow_add₀ (by norm_num)]
        congr 1
        push_cast
        ring
    _ ≤ size x := hleast

omit hfinite hpos in
theorem exists_of_findSome?_range {α : Type} {f : ℕ → Option α} {k : ℕ} {a : α}
    (h : (List.range k).findSome? f = some a) : ∃ i < k, f i = some a ∧ ∀ j < i, f j = none := by
  induction k with
  | zero => cases h
  | succ k ih =>
    rw [List.range_succ, List.findSome?_append] at h
    match hfirst : (List.range k).findSome? f with
    | some b =>
      rw [hfirst] at h
      cases h
      obtain ⟨i, hi, hfound⟩ := ih hfirst
      exact ⟨i, hi.trans k.lt_succ_self, hfound⟩
    | none =>
      rw [hfirst] at h
      refine ⟨k, k.lt_succ_self, by simpa using h, fun j hj => ?_⟩
      exact List.findSome?_eq_none_iff.1 hfirst j (List.mem_range.2 hj)

/-- The grid on which the search ends, and what it takes there. -/
theorem exists_taken : ∃ (s : ℤ) (n : ℕ) (d : Decimal), 10 ^ (s - 1) ≤ size x ∧ size x < 10 ^ s ∧
    0 < n ∧ Taken x (s - n) d ∧ shortest .toEven x = stripZeros 17 d ∧
      ∀ d' : Decimal, d'.toFloat = magnitude x → n ≤ d'.count := by
  obtain ⟨_, m, e, hm, hx, hc, he, hv⟩ := exists_unpacked hfinite hpos
  have hscale := scale_spec hm hc he
  rw [← hv] at hscale
  change _ ≤ size x ∧ size x < _ at hscale
  obtain ⟨hleast, hmost⟩ := hscale
  generalize hs : scale (Dyadic.ofFloat x) = s at hleast hmost
  have hunits : (Dyadic.ofFloat x).units ≠ 0 := by
    rw [hv]
    exact hm.ne'
  -- the neighbour that reads back shows that the grid is not passed over
  have hfound : ∀ (n : ℕ) (j : ℕ), Neighbour x (s - n) j → toFloat ⟨j, s - n⟩ = magnitude x →
      onGrid .toEven (magnitude x) (Dyadic.ofFloat x) (s - n) ≠ none := by
    intro n j hj hread heq
    obtain ⟨d, hd, -⟩ | ⟨-, hnone⟩ := onGrid_cases hfinite hpos (s - n)
    · rw [hd] at heq
      cases heq
    · exact hnone j hj hread
  cases hsearch : (List.range 17).findSome? fun n =>
      onGrid .toEven (magnitude x) (Dyadic.ofFloat x) (s - (n + 1 : ℕ)) with
  | none =>
    obtain ⟨j, hj, hread⟩ := exists_seventeen hfinite hpos hleast hmost
    rw [List.findSome?_eq_none_iff] at hsearch
    exact absurd (hsearch 16 (by decide)) (hfound 17 j hj hread)
  | some d =>
    have hshortest : shortest .toEven x = stripZeros 17 d := by
      unfold shortest
      simp only
      rw [if_neg hunits, hs]
      unfold magnitude at hsearch
      rw [hsearch]
    obtain ⟨n, -, hd, hbefore⟩ := exists_of_findSome?_range hsearch
    refine ⟨s, n + 1, d, hleast, hmost, n.succ_pos, ?_, hshortest, fun d' hd' => ?_⟩
    · obtain ⟨c, hc, htaken⟩ | ⟨hnone, -⟩ := onGrid_cases hfinite hpos (s - (n + 1 : ℕ))
      · cases hc.symm.trans hd
        exact htaken
      · rw [hnone] at hd
        cases hd
    · by_contra hlt
      obtain ⟨j, hj, hread, -⟩ := exists_neighbour hfinite hpos hleast hmost hd'
      have hcount := d'.count_pos
      refine hfound d'.count j hj hread ?_
      have hnone := hbefore (d'.count - 1) (by omega)
      rwa [show d'.count - 1 + 1 = d'.count by omega] at hnone

end

end BenchHistory.Decimal
