import BenchHistory.Proofs.Float.Bits

/-!
# The numbers that floats stand for

Every float but the one that is no number stands for a rational number; an infinite one counts as
the first number that is too large. Floats are compared by these numbers (`lt_iff`, `le_iff`), so
comparisons follow from each other as those of numbers do.
-/

namespace BenchHistory.Binary64

open Float.Model Float.Model.UnpackedFloat

/-- One for the positive sign, minus one for the negative. -/
def factor : Sign → ℚ
  | .positive => 1
  | .negative => -1

/-- The first number that is too large for a float. -/
def limit : ℚ := 2 ^ (1024 : ℤ)

theorem limit_pos : 0 < limit := by
  unfold limit
  positivity

theorem limit_eq_mul (k : ℕ) : limit = 2 ^ k * 2 ^ (1024 - k : ℤ) := by
  rw [limit, ← zpow_natCast, ← zpow_add₀ two_ne_zero, add_sub_cancel]

/-- The number of an unpacked float. -/
def number? : UnpackedFloat → Option ℚ
  | .notANumber => none
  | .infinity s => some (factor s * limit)
  | .zero _ => some 0
  | .finite s m e _ => some (factor s * (m * 2 ^ e))

/-- The number that a float stands for. -/
def value? (x : Float) : Option ℚ := number? (unpacked x)

theorem value?_zero : value? 0 = some 0 := rfl

theorem value?_one : value? 1 = some 1 := by
  have hunpacked : unpacked 1 = .finite .positive (2 ^ 52) (-52) (by norm_num) := rfl
  unfold value?
  rw [hunpacked]
  show some (1 * (((2 ^ 52 : ℕ) : ℚ) * 2 ^ (-52 : ℤ))) = some 1
  norm_num

/-! ## Significand and exponent -/

theorem Canonical.lt_two_pow {m : ℕ} (hm : 0 < m) {e : ℤ} (hc : Canonical m e) : m < 2 ^ 53 := by
  unfold Canonical at hc
  exact (Nat.log2_lt hm.ne').1 (by omega)

theorem Canonical.two_pow_le {m : ℕ} (hm : 0 < m) {e : ℤ} (hc : Canonical m e) (he : -1074 < e) :
    2 ^ 52 ≤ m := by
  unfold Canonical at hc
  rw [← Nat.le_log2 hm.ne']
  omega

theorem mul_zpow_lt_limit {m : ℕ} (hm : 0 < m) {e : ℤ} (hc : Canonical m e) (he : e ≤ 971) :
    (m : ℚ) * 2 ^ e < limit := by
  have hm' : (m : ℚ) < 2 ^ 53 := by exact_mod_cast hc.lt_two_pow hm
  calc (m : ℚ) * 2 ^ e < 2 ^ 53 * 2 ^ e := by gcongr
    _ ≤ 2 ^ 53 * 2 ^ (971 : ℤ) := by
        gcongr
        norm_num
    _ = limit := (limit_eq_mul 53).symm

/-- A greater exponent outweighs any significand. -/
theorem two_pow_mul_zpow_le {e f : ℤ} (hlt : e < f) {b : ℚ} (hb : 2 ^ 52 ≤ b) :
    2 ^ 53 * 2 ^ e ≤ b * 2 ^ f := by
  calc (2 : ℚ) ^ 53 * 2 ^ e = 2 ^ 52 * 2 ^ (e + 1) := by
        rw [zpow_add_one₀ two_ne_zero]
        ring
    _ ≤ b * 2 ^ f := by
        gcongr
        · norm_num
        · omega

theorem mul_zpow_lt_of_exponent_lt {m n : ℕ} (hm : 0 < m) (hn : 0 < n) {e f : ℤ}
    (hc : Canonical m e) (hd : Canonical n f) (hlt : e < f) : (m : ℚ) * 2 ^ e < n * 2 ^ f := by
  have hlow : -1074 ≤ e := by
    unfold Canonical at hc
    omega
  have hm' : (m : ℚ) < 2 ^ 53 := by exact_mod_cast hc.lt_two_pow hm
  have hn' : (2 : ℚ) ^ 52 ≤ n := by exact_mod_cast hd.two_pow_le hn (by omega)
  calc (m : ℚ) * 2 ^ e < 2 ^ 53 * 2 ^ e := by gcongr
    _ ≤ n * 2 ^ f := two_pow_mul_zpow_le hlt hn'

/-! ## Comparison -/

theorem compare_mul_zpow {m n : ℕ} (hm : 0 < m) (hn : 0 < n) {e f : ℤ} (hc : Canonical m e)
    (hd : Canonical n f) :
    (compare e f).then (compare m n) = compare ((m : ℚ) * 2 ^ e) (n * 2 ^ f) := by
  rcases lt_trichotomy e f with hlt | rfl | hgt
  · rw [compare_lt_iff_lt.2 hlt,
      compare_lt_iff_lt.2 (mul_zpow_lt_of_exponent_lt hm hn hc hd hlt)]
    rfl
  · rw [compare_eq_iff_eq.2 rfl]
    rcases lt_trichotomy m n with hlt | rfl | hgt
    · have hnumber : (m : ℚ) * 2 ^ e < n * 2 ^ e := by gcongr
      rw [compare_lt_iff_lt.2 hlt, compare_lt_iff_lt.2 hnumber]
      rfl
    · rw [compare_eq_iff_eq.2 rfl, compare_eq_iff_eq.2 rfl]
      rfl
    · have hnumber : (n : ℚ) * 2 ^ e < m * 2 ^ e := by gcongr
      rw [compare_gt_iff_gt.2 hgt, compare_gt_iff_gt.2 hnumber]
      rfl
  · rw [compare_gt_iff_gt.2 hgt,
      compare_gt_iff_gt.2 (mul_zpow_lt_of_exponent_lt hn hm hd hc hgt)]
    rfl

theorem compare_factor (s t : Sign) {a b : ℚ} (ha : 0 < a) (hb : 0 < b) :
    compare (factor s * a) (factor t * b) =
      match s, t with
      | .negative, .negative => (compare a b).swap
      | .negative, .positive => .lt
      | .positive, .negative => .gt
      | .positive, .positive => compare a b := by
  cases s <;> cases t <;> simp only [factor, one_mul, neg_one_mul]
  · rcases lt_trichotomy a b with hlt | rfl | hgt
    · rw [compare_lt_iff_lt.2 hlt, compare_gt_iff_gt.2 (neg_lt_neg hlt)]
      rfl
    · rw [compare_eq_iff_eq.2 rfl, compare_eq_iff_eq.2 rfl]
      rfl
    · rw [compare_gt_iff_gt.2 hgt, compare_lt_iff_lt.2 (neg_lt_neg hgt)]
      rfl
  · exact compare_lt_iff_lt.2 (by linarith)
  · exact compare_gt_iff_gt.2 (by linarith)

theorem compare_factor_zero (s : Sign) {a : ℚ} (ha : 0 < a) :
    compare (factor s * a) 0 = match s with | .negative => .lt | .positive => .gt := by
  cases s <;> simp only [factor, one_mul, neg_one_mul]
  · exact compare_lt_iff_lt.2 (neg_lt_zero.2 ha)
  · exact compare_gt_iff_gt.2 ha

theorem zero_compare_factor (s : Sign) {a : ℚ} (ha : 0 < a) :
    compare 0 (factor s * a) = match s with | .negative => .gt | .positive => .lt := by
  cases s <;> simp only [factor, one_mul, neg_one_mul]
  · exact compare_gt_iff_gt.2 (neg_lt_zero.2 ha)
  · exact compare_lt_iff_lt.2 ha

/-- An unpacked number as it stands in a float. -/
def Proper : UnpackedFloat → Prop
  | .finite _ m e _ => Canonical m e ∧ e ≤ 971
  | _ => True

theorem proper_unpacked (x : Float) : Proper (unpacked x) := by
  match h : unpacked x with
  | .notANumber => trivial
  | .infinity _ => trivial
  | .zero _ => trivial
  | .finite _ _ _ _ => exact canonical_of_unpacked h

theorem compare_eq_number? {u v : UnpackedFloat} (hu : Proper u) (hv : Proper v) :
    u.compare v = (number? u).bind fun a => (number? v).map (compare a) := by
  have hlimit := limit_pos
  cases u with
  | notANumber => rfl
  | infinity s =>
    cases v with
    | notANumber => cases s <;> rfl
    | infinity t =>
      show _ = some (compare (factor s * limit) (factor t * limit))
      rw [compare_factor s t hlimit hlimit, compare_eq_iff_eq.2 rfl]
      cases s <;> cases t <;> rfl
    | zero t =>
      show _ = some (compare (factor s * limit) 0)
      rw [compare_factor_zero s hlimit]
      cases s <;> rfl
    | finite t n f hn =>
      show _ = some (compare (factor s * limit) (factor t * (n * 2 ^ f)))
      rw [compare_factor s t hlimit (by positivity),
        compare_gt_iff_gt.2 (mul_zpow_lt_limit hn hv.1 hv.2)]
      cases s <;> cases t <;> rfl
  | zero s =>
    cases v with
    | notANumber => rfl
    | infinity t =>
      show _ = some (compare 0 (factor t * limit))
      rw [zero_compare_factor t hlimit]
      cases t <;> rfl
    | zero t => exact congrArg some (compare_eq_iff_eq.2 rfl).symm
    | finite t n f hn =>
      show _ = some (compare 0 (factor t * (n * 2 ^ f)))
      rw [zero_compare_factor t (by positivity)]
      cases t <;> rfl
  | finite s m e hm =>
    cases v with
    | notANumber => cases s <;> rfl
    | infinity t =>
      show _ = some (compare (factor s * (m * 2 ^ e)) (factor t * limit))
      rw [compare_factor s t (by positivity) hlimit,
        compare_lt_iff_lt.2 (mul_zpow_lt_limit hm hu.1 hu.2)]
      cases s <;> cases t <;> rfl
    | zero t =>
      show _ = some (compare (factor s * (m * 2 ^ e)) 0)
      rw [compare_factor_zero s (by positivity)]
      cases s <;> rfl
    | finite t n f hn =>
      show _ = some (compare (factor s * (m * 2 ^ e)) (factor t * (n * 2 ^ f)))
      rw [compare_factor s t (by positivity) (by positivity), ← compare_mul_zpow hm hn hu.1 hv.1]
      cases s <;> cases t <;> rfl

variable {x y z : Float}

theorem compare_unpacked (x y : Float) :
    (unpacked x).compare (unpacked y) = (value? x).bind fun a => (value? y).map (compare a) :=
  compare_eq_number? (proper_unpacked x) (proper_unpacked y)

theorem lt_iff_value : x < y ↔ ∃ a b, value? x = some a ∧ value? y = some b ∧ a < b := by
  rw [lt_iff]
  unfold UnpackedFloat.lt
  rw [compare_unpacked, beq_iff_eq]
  cases value? x with
  | none => simp
  | some a =>
    cases value? y with
    | none => simp
    | some b => simp [compare_lt_iff_lt]

theorem le_iff_value : x ≤ y ↔ ∃ a b, value? x = some a ∧ value? y = some b ∧ a ≤ b := by
  rw [le_iff]
  unfold UnpackedFloat.le
  rw [compare_unpacked]
  cases value? x with
  | none => simp
  | some a =>
    cases value? y with
    | none => simp
    | some b => simp [Ordering.isLE_iff_ne_gt, compare_le_iff_le]

theorem beq_iff_value : (x == y) = true ↔ ∃ a, value? x = some a ∧ value? y = some a := by
  rw [beq_eq]
  unfold UnpackedFloat.beq
  rw [compare_unpacked, beq_iff_eq]
  cases value? x with
  | none => simp
  | some a =>
    cases value? y with
    | none => simp
    | some b =>
      show some (compare a b) = some .eq ↔ _
      rw [Option.some_inj, compare_eq_iff_eq]
      simp [eq_comm]

section

variable {a b : ℚ} (ha : value? x = some a) (hb : value? y = some b)

include ha hb

theorem lt_iff_of_value : x < y ↔ a < b := by
  rw [lt_iff_value]
  constructor
  · rintro ⟨a', b', ha', hb', hlt⟩
    cases ha.symm.trans ha'
    cases hb.symm.trans hb'
    exact hlt
  · intro hlt
    exact ⟨a, b, ha, hb, hlt⟩

theorem le_iff_of_value : x ≤ y ↔ a ≤ b := by
  rw [le_iff_value]
  constructor
  · rintro ⟨a', b', ha', hb', hle⟩
    cases ha.symm.trans ha'
    cases hb.symm.trans hb'
    exact hle
  · intro hle
    exact ⟨a, b, ha, hb, hle⟩

protected theorem lt_of_not_le (hnot : ¬ x ≤ y) : y < x := by
  rw [le_iff_of_value ha hb] at hnot
  rw [lt_iff_of_value hb ha]
  exact not_le.1 hnot

end

/-! ## Consequences -/

theorem value_nonneg {a : ℚ} (hx : 0 ≤ x) (ha : value? x = some a) : 0 ≤ a :=
  (le_iff_of_value value?_zero ha).1 hx

theorem value_pos {a : ℚ} (hx : 0 < x) (ha : value? x = some a) : 0 < a :=
  (lt_iff_of_value value?_zero ha).1 hx

protected theorem le_of_lt (h : x < y) : x ≤ y := by
  obtain ⟨a, b, ha, hb, hab⟩ := lt_iff_value.1 h
  exact le_iff_value.2 ⟨a, b, ha, hb, hab.le⟩

protected theorem lt_of_le_of_lt (hxy : x ≤ y) (hyz : y < z) : x < z := by
  obtain ⟨a, b, ha, hb, hab⟩ := le_iff_value.1 hxy
  obtain ⟨b', c, hb', hc, hbc⟩ := lt_iff_value.1 hyz
  cases hb.symm.trans hb'
  exact lt_iff_value.2 ⟨a, c, ha, hc, hab.trans_lt hbc⟩

protected theorem lt_of_lt_of_le (hxy : x < y) (hyz : y ≤ z) : x < z := by
  obtain ⟨a, b, ha, hb, hab⟩ := lt_iff_value.1 hxy
  obtain ⟨b', c, hb', hc, hbc⟩ := le_iff_value.1 hyz
  cases hb.symm.trans hb'
  exact lt_iff_value.2 ⟨a, c, ha, hc, hab.trans_le hbc⟩

protected theorem lt_irrefl (x : Float) : ¬ x < x := by
  intro hlt
  obtain ⟨a, _, ha, -, -⟩ := lt_iff_value.1 hlt
  rw [lt_iff_of_value ha ha] at hlt
  exact lt_irrefl a hlt

protected theorem le_of_beq (h : (x == y) = true) : x ≤ y := by
  obtain ⟨a, ha, hb⟩ := beq_iff_value.1 h
  rw [le_iff_of_value ha hb]

protected theorem beq_symm (h : (x == y) = true) : (y == x) = true := by
  rw [beq_iff_value] at h ⊢
  obtain ⟨a, hx, hy⟩ := h
  exact ⟨a, hy, hx⟩

protected theorem beq_trans (hxy : (x == y) = true) (hyz : (y == z) = true) : (x == z) = true := by
  rw [beq_iff_value] at hxy hyz ⊢
  obtain ⟨a, hx, hy⟩ := hxy
  obtain ⟨b, hy', hz⟩ := hyz
  cases hy.symm.trans hy'
  exact ⟨a, hx, hz⟩

protected theorem pos_of_not_neg {a : ℚ} (ha : value? x = some a) (hneg : ¬ x < 0)
    (hne : (x == 0) ≠ true) : 0 < x := by
  rw [lt_iff_of_value ha value?_zero, not_lt] at hneg
  rw [lt_iff_of_value value?_zero ha]
  rcases hneg.lt_or_eq with hlt | rfl
  · exact hlt
  · exact absurd (beq_iff_value.2 ⟨0, ha, value?_zero⟩) hne

protected theorem not_beq_zero_of_pos (hpos : 0 < x) : (x == 0) ≠ true := by
  intro hzero
  exact Binary64.lt_irrefl 0 (Binary64.lt_of_lt_of_le hpos (Binary64.le_of_beq hzero))

/-! ## Finite floats -/

theorem exists_value? (hx : x.isFinite = true) : ∃ a, value? x = some a := by
  unfold value?
  obtain ⟨s, hxu⟩ | ⟨s, m, e, hm, hxu⟩ := unpacked_cases hx
  · exact ⟨_, congrArg number? hxu⟩
  · exact ⟨_, congrArg number? hxu⟩

theorem value_cases {a : ℚ} (hx : x.isFinite = true) (ha : value? x = some a) :
    (∃ s, unpacked x = .zero s ∧ a = 0) ∨
      ∃ s m e hm, unpacked x = .finite s m e hm ∧ Canonical m e ∧ e ≤ 971 ∧
        a = factor s * (m * 2 ^ e) := by
  unfold value? at ha
  obtain ⟨s, hxu⟩ | ⟨s, m, e, hm, hxu⟩ := unpacked_cases hx
  · rw [hxu] at ha
    cases ha
    exact .inl ⟨s, hxu, rfl⟩
  · obtain ⟨hc, he⟩ := canonical_of_unpacked hxu
    rw [hxu] at ha
    cases ha
    exact .inr ⟨s, m, e, hm, hxu, hc, he, rfl⟩

theorem value_lt_limit {a : ℚ} (hx : x.isFinite = true) (ha : value? x = some a) : a < limit := by
  obtain ⟨s, -, rfl⟩ | ⟨s, m, e, hm, -, hc, he, rfl⟩ := value_cases hx ha
  · exact limit_pos
  · have hlt := mul_zpow_lt_limit hm hc he
    have hpos : (0 : ℚ) < m * 2 ^ e := by positivity
    cases s <;> simp only [factor, one_mul, neg_one_mul]
    · linarith
    · exact hlt

end BenchHistory.Binary64
