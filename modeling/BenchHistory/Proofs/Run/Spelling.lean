import BenchHistory.Proofs.Decimal.Spelling
import BenchHistory.Proofs.Json.RoundTrip
import BenchHistory.Proofs.Run.RoundTrip

/-!
# Measured values in JavaScript spelling

What JavaScript writes for a float is read as the float (`Spells.read`). Written again, it has the
same characters except in two ranges (`Spells.text_measured_iff`): where only one of the spellings
has an exponent, and where whole numbers are too large to be written as integers.
-/

namespace BenchHistory

open Binary64 Decimal

/-- The floats that JavaScript spells in another way than they are written as measured values. -/
def SpelledOtherwise (x : Float) : Prop :=
  1e-6 ≤ magnitude x ∧ magnitude x < 1e-5 ∨ 9007199254740992 ≤ magnitude x ∧ magnitude x < 1e21

/-! ## Reading -/

namespace Json

/-- The text writes a decimal, perhaps with digits alone. -/
def Denotes (text : List Char) (d : Decimal) : Prop :=
  ∀ negative, ∃ n : Numeral, unsigned negative text = .ok (n, []) ∧ n.negative = negative ∧
    n.decimal.toRat = d.toRat

theorem Writes.denotes {text : List Char} {d : Decimal} (h : Writes text d) : Denotes text d := by
  intro negative
  obtain ⟨n, hn, hnegative, -, hvalue⟩ := h negative [] nofun
  rw [List.append_nil] at hn
  exact ⟨n, hn, hnegative, hvalue⟩

theorem denotes_whole {d : Decimal} (hd : d.digits ≠ 0) (hexponent : 0 ≤ d.exponent) :
    Denotes (digitList d.digits ++ List.replicate d.exponent.toNat '0') d := by
  intro negative
  refine ⟨⟨negative, digitList d.digits ++ List.replicate d.exponent.toNat '0', [], none⟩, ?_, rfl,
    ?_⟩
  · have hread : unsigned negative
        (digitList d.digits ++ List.replicate d.exponent.toNat '0' ++ []) =
          .ok (⟨negative, digitList d.digits ++ List.replicate d.exponent.toNat '0', [], none⟩,
            []) := by
      refine unsigned_append negative ?_ ?_ ?_ nofun rfl rfl
      · rw [List.forall_mem_append]
        exact ⟨fun c hc => isDigit_of_mem_digitList hc, isDigit_of_mem_zeros _⟩
      · simp [digitList_ne_nil]
      · intro hzero
        rw [List.head?_append_of_ne_nil _ (digitList_ne_nil _)] at hzero
        exact absurd (eq_zero_of_head?_digitList hzero) hd
    rwa [List.append_nil] at hread
  · unfold Numeral.decimal
    rw [toRat_of_exponent_nonneg hexponent, List.append_nil, ofDigits_append_zeros,
      ofDigits_digitList, mul_comm]
    unfold toRat
    simp

theorem denotes_javaScriptText {d : Decimal} (hd : d.digits ≠ 0) : Denotes d.javaScriptText d := by
  unfold javaScriptText
  split
  · rcases le_or_gt 0 d.exponent with hexponent | hexponent
    · rw [positional_of_nonneg hexponent]
      simpa using denotes_whole hd hexponent
    · rw [← positional_of_neg hexponent true]
      exact (writes_positional fun hzero => absurd hzero hd).denotes
  · exact (writes_scientific d).denotes

/-- A number of the given size and sign is read, as an integer or as a float. -/
theorem exists_number? {x : Float} (hfinite : x.isFinite = true) {n : Numeral}
    (hsign : n.negative = signed x) (hsize : n.decimal.toFloat = magnitude x) :
    ∃ m, n.number? = some m ∧ m.toFloat = x := by
  have hsigned := signed_magnitude hfinite
  have hwhole : n.fraction = [] → n.power = none →
      Float.ofNat (ofDigits n.whole) = magnitude x := by
    intro hfraction hpower
    rw [ofNat_eq_toFloat, ← hsize]
    unfold Numeral.decimal
    rw [hfraction, hpower, List.append_nil]
    rfl
  unfold Numeral.number?
  simp only [Bool.and_eq_true, List.isEmpty_iff, Option.isNone_iff_eq_none, decide_eq_true_eq,
    Bool.not_eq_true']
  split
  · next h =>
    obtain ⟨⟨⟨hfraction, hpower⟩, hnegative⟩, -⟩ := h
    refine ⟨_, rfl, ?_⟩
    rw [← hsign, hnegative, ← hwhole hfraction hpower] at hsigned
    exact hsigned
  split
  · next h =>
    obtain ⟨⟨⟨⟨hfraction, hpower⟩, hnegative⟩, hpos⟩, -⟩ := h
    refine ⟨_, rfl, ?_⟩
    have hread := ofInt_of_size hfinite hpos (hwhole hfraction hpower)
    rw [← hsign, hnegative] at hread
    exact hread
  · rw [← Numeral.decimal, hsize, if_pos (isFinite_magnitude hfinite), hsign]
    exact ⟨_, rfl, hsigned⟩

end Json

/-- A JavaScript spelling is read as the float, or as the other zero. -/
theorem Spells.read {x : Float} (hfinite : x.isFinite = true) {t : List Char} (ht : Spells x t) :
    ∃ n : Number, Json.draft t = (.number n, some []) ∧ (n.toFloat == x) = true := by
  cases ht with
  | zero hzero =>
    have hnumber : Json.draft ['0'] = (.number (.whole 0), some []) := by
      unfold Json.draft
      rfl
    exact ⟨.whole 0, hnumber, Binary64.beq_symm hzero⟩
  | @nonzero d hne hd =>
    have hpos := (size_pos_iff hfinite).2 hne
    have hdigits := digits_ne_zero hfinite hpos hd.reads
    obtain ⟨n, hn, hsign, hvalue⟩ := Json.denotes_javaScriptText hdigits (signed x)
    have hsize : n.decimal.toFloat = magnitude x := (toFloat_congr hvalue).trans hd.reads
    obtain ⟨m, hm, hx⟩ := Json.exists_number? hfinite hsign hsize
    have hnumeral := Json.numeral_eq_ok hn
    refine ⟨m, ?_, ?_⟩
    · unfold Json.draft
      rw [Json.value_of_numeral hnumeral]
      unfold Json.numberValue
      simp only [hnumeral, hm]
    · obtain ⟨a, ha⟩ := exists_value? hfinite
      rw [hx, beq_iff_value]
      exact ⟨a, ha, ha⟩

/-! ## Whole numbers -/

theorem toNat?_iff {v : Dyadic} {n : ℕ} : v.toNat? = some n ↔ v.toRat = n := by
  constructor
  · intro h
    exact (toNat?_eq_some h).symm
  · intro h
    have hpos : (0 : ℚ) < (v.scaled 0).2 := Nat.cast_pos.2 (v.scaled_pos 0)
    have hscaled := v.scaled_eq 0
    rw [zpow_zero, mul_one, h, div_eq_iff hpos.ne'] at hscaled
    have hnat : (v.scaled 0).1 = n * (v.scaled 0).2 := by exact_mod_cast hscaled
    unfold Dyadic.toNat?
    simp only [hnat]
    rw [Nat.mul_mod_left, if_pos rfl, Nat.mul_div_cancel _ (v.scaled_pos 0)]

theorem wholeValue?_iff {x : Float} (hfinite : x.isFinite = true) {k : ℤ} :
    wholeValue? x = some k ↔ ∃ n : ℕ, size x = n ∧ (if signed x then -(n : ℤ) else n) = k := by
  unfold wholeValue?
  rw [if_pos hfinite, Option.map_eq_some_iff]
  simp only [toNat?_iff]
  rfl

theorem natAbs_sign (s : Bool) (n : ℕ) : (if s then -(n : ℤ) else n).natAbs = n := by
  cases s <;> simp

theorem measured_of_le {x : Float} (hfinite : x.isFinite = true) {n : ℕ} (hn : size x = n)
    (hsmall : n ≤ maxExact) : measured x = .int (if signed x then -(n : ℤ) else n) := by
  have hwhole : wholeValue? x = some (if signed x then -(n : ℤ) else n) :=
    (wholeValue?_iff hfinite).2 ⟨n, hn, rfl⟩
  unfold measured
  simp only [hwhole]
  rw [natAbs_sign, if_pos hsmall]

theorem measured_of_lt {x : Float} (hfinite : x.isFinite = true)
    (hlarge : ∀ n : ℕ, size x = n → maxExact < n) : measured x = .real x := by
  unfold measured
  split
  · next k hk =>
    obtain ⟨n, hn, rfl⟩ := (wholeValue?_iff hfinite).1 hk
    have hlt := hlarge n hn
    rw [natAbs_sign, if_neg hlt.not_ge]
  · rfl

/-- From the 54th bit on all floats are whole. -/
theorem exists_size_eq {x : Float} (hfinite : x.isFinite = true) (hlarge : 2 ^ 53 ≤ size x) :
    ∃ n : ℕ, size x = n := by
  have hpos : 0 < size x := lt_of_lt_of_le (by positivity) hlarge
  obtain ⟨m, e, hm, hc, hsize⟩ := exists_canonical hfinite hpos
  have he : 0 ≤ e := by
    by_contra hneg
    have hm' : (m : ℚ) < 2 ^ 53 := by exact_mod_cast hc.lt_two_pow hm
    have hpow : (2 : ℚ) ^ e ≤ 1 := zpow_le_one_of_nonpos₀ one_le_two (by omega)
    have hlt : size x < 2 ^ 53 := by
      rw [hsize]
      exact (mul_le_of_le_one_right (Nat.cast_nonneg m) hpow).trans_lt hm'
    exact hlt.not_ge hlarge
  refine ⟨m * 2 ^ e.toNat, ?_⟩
  rw [hsize]
  nth_rewrite 1 [← Int.toNat_of_nonneg he]
  rw [zpow_natCast]
  push_cast
  rfl

/-! ## Writing -/

theorem sign_eq_iff {s : Bool} {as bs : List Char} :
    (if s then '-' :: as else as) = (if s then '-' :: bs else bs) ↔ as = bs := by
  cases s <;> simp

section

variable {x : Float} (hfinite : x.isFinite = true) (hpos : 0 < size x) {d : Decimal}
  (hd : d.Simplest x)

include hfinite hpos hd

/-- The ranges by the leading place. -/
theorem spelledOtherwise_iff :
    SpelledOtherwise x ↔ d.leading = -6 ∨ 2 ^ 53 ≤ size x ∧ d.leading ≤ 20 := by
  have hmillionth := hd.le_leading_iff hfinite hpos
    (show toFloat ⟨9, -6 - 1⟩ ≠ toFloat ⟨1, -6⟩ by decide)
  have htenfold := hd.le_leading_iff hfinite hpos
    (show toFloat ⟨9, -5 - 1⟩ ≠ toFloat ⟨1, -5⟩ by decide)
  have hlarge := hd.le_leading_iff hfinite hpos
    (show toFloat ⟨9, 21 - 1⟩ ≠ toFloat ⟨1, 21⟩ by decide)
  have hwhole : toFloat ⟨9007199254740992, 0⟩ ≤ magnitude x ↔ 2 ^ 53 ≤ size x := by
    have hvalue : toRat ⟨9007199254740992, 0⟩ = ((2 ^ 53 : ℕ) : ℚ) := by
      unfold toRat
      norm_num
    have hcast : ((2 ^ 53 : ℕ) : ℚ) = 2 ^ 53 := by norm_num
    have hle := toFloat_le_magnitude_iff hfinite hpos
      (show (Decimal.mk 9007199254740992 0).digits ≠ 0 by norm_num)
    rwa [hvalue, toNearest_natCast le_rfl, hcast] at hle
  have h₁ : (1e-6 : Float) = toFloat ⟨1, -6⟩ := rfl
  have h₂ : (1e-5 : Float) = toFloat ⟨1, -5⟩ := rfl
  have h₃ : (9007199254740992 : Float) = toFloat ⟨9007199254740992, 0⟩ := ofNat_eq_toFloat _
  have h₄ : (1e21 : Float) = toFloat ⟨1, 21⟩ := rfl
  unfold SpelledOtherwise
  rw [h₁, h₂, h₃, h₄, magnitude_lt_toFloat_iff hfinite hpos one_ne_zero,
    magnitude_lt_toFloat_iff hfinite hpos one_ne_zero, hwhole, ← hmillionth, ← htenfold, ← hlarge]
  exact or_congr (by omega) (and_congr_right' (by omega))

theorem realText_eq : Json.realText x =
    if signed x then
      '-' :: (if -5 ≤ d.leading ∧ d.leading ≤ 15 then positional true d else scientific d)
    else if -5 ≤ d.leading ∧ d.leading ≤ 15 then positional true d else scientific d := by
  have hdigits := digits_ne_zero hfinite hpos hd.reads
  rw [simplest_iff hfinite hpos] at hd
  unfold Json.realText
  rw [if_pos hfinite]
  simp only
  rw [← hd]
  simp only [hdigits, false_or]

/-- Small whole numbers have one text. -/
theorem intText_eq {n : ℕ} (hn : size x = n) (hsmall : n ≤ maxExact) :
    Json.intText (if signed x then -(n : ℤ) else n) =
      if signed x then '-' :: d.javaScriptText else d.javaScriptText := by
  have hbound : size x < 2 ^ 53 := by
    have hcast : (n : ℚ) ≤ (maxExact : ℕ) := Nat.cast_le.2 hsmall
    rw [hn]
    refine hcast.trans_lt ?_
    unfold maxExact
    norm_num
  have hexponent := hd.exponent_nonneg hfinite hpos hn
  have hvalue := toRat_of_exponent_nonneg hexponent
  have hsize := hd.size_eq hfinite hpos hvalue hbound
  have hwhole : n = d.digits * 10 ^ d.exponent.toNat := by exact_mod_cast hn.symm.trans hsize
  have hdigits : 0 < d.digits := Nat.pos_of_ne_zero (digits_ne_zero hfinite hpos hd.reads)
  have hnpos : 0 < n := by
    rw [hn] at hpos
    exact_mod_cast hpos
  have hlow := hd.leading_nonneg hfinite hpos hn
  have hhigh := hd.leading_le hfinite hpos hbound
  have htext : d.javaScriptText = digitList n := by
    unfold javaScriptText
    rw [if_pos (by omega), positional_of_nonneg hexponent, hwhole, digitList_mul_pow hdigits]
    simp
  rw [htext]
  unfold Json.intText
  cases signed x
  · simp
  · simp [hnpos]

/-- Large whole numbers have one text from the twenty-second place on. -/
theorem realText_eq_iff_of_large (hlarge : 2 ^ 53 ≤ size x) :
    Json.realText x = (if signed x then '-' :: d.javaScriptText else d.javaScriptText) ↔
      ¬ d.leading ≤ 20 := by
  obtain ⟨n, hn⟩ := exists_size_eq hfinite hlarge
  have hexponent := hd.exponent_nonneg hfinite hpos hn
  have hlow : 15 ≤ d.leading := by
    refine hd.le_leading hfinite hpos (le_trans ?_ hlarge)
    norm_num
  rw [realText_eq hfinite hpos hd, sign_eq_iff]
  unfold javaScriptText
  by_cases hfifteen : d.leading ≤ 15
  · rw [if_pos (by omega), if_pos (by omega), positional_of_nonneg hexponent,
      positional_of_nonneg hexponent]
    simp
    omega
  · rw [if_neg (by omega)]
    by_cases hplain : d.leading ≤ 20
    · rw [if_pos (by omega)]
      exact iff_of_false (scientific_ne_positional d false) (not_not_intro hplain)
    · rw [if_neg (by omega)]
      exact iff_of_true rfl hplain

/-- Numbers with a fraction have one text, except with the sixth place behind the point leading. -/
theorem realText_eq_iff_of_small (hsmall : size x < 2 ^ 53) (hfraction : ∀ n : ℕ, size x ≠ n) :
    Json.realText x = (if signed x then '-' :: d.javaScriptText else d.javaScriptText) ↔
      d.leading ≠ -6 := by
  have hexponent : d.exponent < 0 := by
    rw [← not_le, hd.exponent_nonneg_iff hfinite hpos hsmall]
    rintro ⟨n, hn⟩
    exact hfraction n hn
  have hhigh := hd.leading_le hfinite hpos hsmall
  rw [realText_eq hfinite hpos hd, sign_eq_iff]
  unfold javaScriptText
  by_cases hplain : -5 ≤ d.leading
  · rw [if_pos (by omega), if_pos (by omega), positional_of_neg hexponent]
    exact iff_of_true rfl (by omega)
  · rw [if_neg (by omega)]
    by_cases hsix : d.leading = -6
    · rw [if_pos (by omega)]
      exact iff_of_false (scientific_ne_positional d false) (not_not_intro hsix)
    · rw [if_neg (by omega)]
      exact iff_of_true rfl hsix

/-- What is written for a measured value is its JavaScript spelling, but for two ranges. -/
theorem text_measured_eq_iff (l : Json.Layout) (level : ℕ) :
    Json.text l level (measured x) =
        (if signed x then '-' :: d.javaScriptText else d.javaScriptText) ↔
      ¬ SpelledOtherwise x := by
  have hreal : Json.text l level (.real x) = Json.realText x := by
    rw [Json.real, Json.text]
    rfl
  rw [spelledOtherwise_iff hfinite hpos hd]
  rcases lt_or_ge (size x) (2 ^ 53) with hsmall | hlarge
  · rw [and_iff_left_of_imp fun h => absurd h hsmall.not_ge]
    by_cases hwhole : ∃ n : ℕ, size x = n
    · obtain ⟨n, hn⟩ := hwhole
      have hle : n ≤ maxExact := by
        rw [hn] at hsmall
        have hlt : n < 2 ^ 53 := by exact_mod_cast hsmall
        unfold maxExact
        omega
      have hint : Json.text l level (.int (if signed x then -(n : ℤ) else n)) =
          Json.intText (if signed x then -(n : ℤ) else n) := by
        rw [Json.int, Json.text]
        rfl
      have hleading := hd.leading_nonneg hfinite hpos hn
      rw [measured_of_le hfinite hn hle, hint]
      refine iff_of_true (intText_eq hfinite hpos hd hn hle) ?_
      rintro (hsix | hbig)
      · omega
      · exact hsmall.not_ge hbig
    · have hfraction : ∀ n : ℕ, size x ≠ n := fun n hn => hwhole ⟨n, hn⟩
      rw [measured_of_lt hfinite fun n hn => absurd hn (hfraction n), hreal,
        realText_eq_iff_of_small hfinite hpos hd hsmall hfraction, or_iff_left hsmall.not_ge]
  · have hleading : 15 ≤ d.leading := by
      refine hd.le_leading hfinite hpos (le_trans ?_ hlarge)
      norm_num
    have hmeasured : measured x = .real x := by
      refine measured_of_lt hfinite fun n hn => ?_
      rw [hn] at hlarge
      have hle : 2 ^ 53 ≤ n := by exact_mod_cast hlarge
      unfold maxExact
      omega
    rw [hmeasured, hreal, realText_eq_iff_of_large hfinite hpos hd hlarge,
      and_iff_right hlarge, or_iff_right (by omega)]

end

theorem text_measured_of_zero {x : Float} (hfinite : x.isFinite = true) (hzero : (x == 0) = true)
    (l : Json.Layout) (level : ℕ) : Json.text l level (measured x) = ['0'] := by
  have hwhole := wholeValue?_of_zero hfinite hzero
  unfold measured
  simp only [hwhole]
  rw [if_pos (show Int.natAbs 0 ≤ maxExact from Nat.zero_le _), Json.int, Json.text]
  rfl

theorem not_spelledOtherwise_of_zero {x : Float} (hfinite : x.isFinite = true)
    (hzero : (x == 0) = true) : ¬ SpelledOtherwise x := by
  have hmagnitude : magnitude x = 0 := by
    obtain ⟨s, hx⟩ | ⟨s, m, e, hm, hx⟩ := unpacked_cases hfinite
    · exact magnitude_of_zero hx
    · rw [beq_eq, hx, unpacked_zero] at hzero
      cases s <;> cases hzero
  unfold SpelledOtherwise
  rw [hmagnitude]
  decide

/--
A float that equals one in JavaScript spelling is written with the same characters, if and only if
it is in neither range.
-/
theorem Spells.text_measured_iff {x y : Float} (hfinite : x.isFinite = true)
    (hy : y.isFinite = true) (heq : (y == x) = true) {t : List Char} (ht : Spells x t)
    (l : Json.Layout) (level : ℕ) :
    Json.text l level (measured y) = t ↔ ¬ SpelledOtherwise x := by
  cases ht with
  | zero hzero =>
    exact iff_of_true (text_measured_of_zero hy (Binary64.beq_trans heq hzero) l level)
      (not_spelledOtherwise_of_zero hfinite hzero)
  | @nonzero d hne hd =>
    have hpos := (size_pos_iff hfinite).2 hne
    obtain ⟨s, m, e, hm, hx, -⟩ := exists_unpacked hfinite hpos
    rw [eq_of_beq heq hx]
    exact text_measured_eq_iff hfinite hpos hd l level

end BenchHistory
