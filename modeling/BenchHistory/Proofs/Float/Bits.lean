import BenchHistory.Decimal.Basic
import BenchHistory.Proofs.Float.Nearest

/-!
# Floats and their bits

The bits of a float are a sign, an exponent field and a fraction field (`exists_fields`). They
give its size and sign back (`ofFloat_of_unpacked`), packing keeps what is canonical
(`unpacked_packed_of_canonical`), and `rounded` is the float nearest to a positive number.
-/

namespace BenchHistory.Binary64

open Float.Model Float.Model.UnpackedFloat

/-! ## The fields of a float -/

/-- The number that a sign, an exponent field and a fraction field write. -/
def ofFields (s : Sign) (exponent fraction : ℕ) : UnpackedFloat :=
  if exponent = 2047 then if fraction = 0 then .infinity s else .notANumber
  else if exponent = 0 then
    if h : fraction = 0 then .zero s else .finite s fraction (-1074) (Nat.pos_of_ne_zero h)
  else .finite s (2 ^ 52 + fraction) (exponent - 1075) (by omega)

theorem toNat_packComponents (s : Sign) (e : BitVec 11) (m : BitVec 52) :
    (packComponents Format.binary64 s e m).toNat =
      s.toBitVec.toNat * 2 ^ 63 + e.toNat * 2 ^ 52 + m.toNat := by
  unfold packComponents
  rw [BitVec.toNat_append, BitVec.toNat_append, ← Nat.shiftLeft_add_eq_or_of_lt e.isLt,
    ← Nat.shiftLeft_add_eq_or_of_lt m.isLt]
  simp only [Nat.shiftLeft_eq]
  ring

theorem unpackSign_packComponents (s : Sign) (e : BitVec 11) (m : BitVec 52) :
    @unpackSign Format.binary64 (packComponents Format.binary64 s e m) = s.toBitVec := by
  have hbit : (@unpackSign Format.binary64 (packComponents Format.binary64 s e m)).toNat =
      (packComponents Format.binary64 s e m).toNat >>> 63 % 2 := by
    unfold unpackSign
    rw [BitVec.toNat_cast, BitVec.extractLsb_toNat]
    rfl
  apply BitVec.eq_of_toNat_eq
  rw [hbit, toNat_packComponents, Nat.shiftRight_eq_div_pow]
  have he := e.isLt
  have hm := m.isLt
  have hs := s.toBitVec.isLt
  omega

theorem unpack_of_fields {b : BitVec 64} {s : Sign} {e : BitVec 11} {m : BitVec 52}
    (hsign : @unpackSign Format.binary64 b = s.toBitVec)
    (hexponent : @unpackExponent Format.binary64 b = e)
    (hmantissa : @unpackMantissa Format.binary64 b = m) :
    UnpackedFloat.unpack Format.binary64 b = ofFields s e.toNat m.toNat := by
  have hones : e = -1#_ ↔ e.toNat = 2047 := by
    rw [← BitVec.toNat_inj]
    rfl
  have hzero : e = 0#_ ↔ e.toNat = 0 := by
    rw [← BitVec.toNat_inj]
    rfl
  have hnone : m = 0#_ ↔ m.toNat = 0 := by
    rw [← BitVec.toNat_inj]
    rfl
  have himplicit : (1#1 ++ m).toNat = 2 ^ 52 + m.toNat := by
    rw [BitVec.toNat_append, ← Nat.shiftLeft_add_eq_or_of_lt m.isLt]
    rfl
  obtain rfl : Sign.ofBitVec (@unpackSign Format.binary64 b) = s := by
    rw [hsign]
    cases s <;> rfl
  subst hexponent hmantissa
  unfold UnpackedFloat.unpack ofFields
  by_cases hmax : (@unpackExponent Format.binary64 b).toNat = 2047
  · rw [if_pos (hones.2 hmax), if_pos hmax]
    by_cases hfraction : (@unpackMantissa Format.binary64 b).toNat = 0
    · rw [if_pos (hnone.2 hfraction), if_pos hfraction]
    · rw [if_neg (mt hnone.1 hfraction), if_neg hfraction]
  rw [if_neg (mt hones.1 hmax), if_neg hmax]
  by_cases hsubnormal : (@unpackExponent Format.binary64 b).toNat = 0
  · rw [if_pos (hzero.2 hsubnormal), if_pos hsubnormal]
    by_cases hfraction : (@unpackMantissa Format.binary64 b).toNat = 0
    · rw [dif_pos (hnone.2 hfraction), dif_pos hfraction]
    · rw [dif_neg (mt hnone.1 hfraction), dif_neg hfraction]
      refine finite_congr rfl ?_
      rw [hsubnormal]
      rfl
  · rw [if_neg (mt hzero.1 hsubnormal), if_neg hsubnormal]
    exact finite_congr himplicit rfl

theorem unpack_packComponents (s : Sign) (e : BitVec 11) (m : BitVec 52) :
    UnpackedFloat.unpack Format.binary64 (packComponents Format.binary64 s e m) =
      ofFields s e.toNat m.toNat :=
  unpack_of_fields (unpackSign_packComponents s e m) unpackExponent_packComponents
    unpackMantissa_packComponents

/-- The bits of a float are those of a sign, an exponent field and a fraction field. -/
structure Fields (x : Float) (s : Sign) (exponent fraction : ℕ) : Prop where
  exponent_lt : exponent < 2 ^ 11
  fraction_lt : fraction < 2 ^ 52
  bits : x.toBits.toNat = s.toBitVec.toNat * 2 ^ 63 + exponent * 2 ^ 52 + fraction
  unpacked : unpacked x = ofFields s exponent fraction

theorem exists_fields (x : Float) : ∃ s exponent fraction, Fields x s exponent fraction := by
  set b : BitVec 64 := x.toBits.toBitVec with hb
  have hlt : b.toNat < 2 ^ 64 := b.isLt
  obtain ⟨s, hs⟩ : ∃ s : Sign, s.toBitVec.toNat = b.toNat / 2 ^ 63 := by
    obtain hzero | hone : b.toNat / 2 ^ 63 = 0 ∨ b.toNat / 2 ^ 63 = 1 := by omega
    · exact ⟨.positive, hzero.symm⟩
    · exact ⟨.negative, hone.symm⟩
  have he : (BitVec.ofNat 11 (b.toNat / 2 ^ 52)).toNat = b.toNat / 2 ^ 52 % 2 ^ 11 :=
    BitVec.toNat_ofNat _ _
  have hm : (BitVec.ofNat 52 b.toNat).toNat = b.toNat % 2 ^ 52 := BitVec.toNat_ofNat _ _
  have hpack : b = packComponents Format.binary64 s (BitVec.ofNat 11 (b.toNat / 2 ^ 52))
      (BitVec.ofNat 52 b.toNat) := by
    apply BitVec.eq_of_toNat_eq
    rw [toNat_packComponents, he, hm, hs]
    omega
  refine ⟨s, (BitVec.ofNat 11 (b.toNat / 2 ^ 52)).toNat, (BitVec.ofNat 52 b.toNat).toNat,
    BitVec.isLt _, BitVec.isLt _, ?_, ?_⟩
  · rw [← toNat_packComponents, ← hpack]
    rfl
  · rw [← unpack_packComponents, ← hpack]
    rfl

theorem ofFields_cases (s : Sign) (exponent fraction : ℕ) :
    (exponent = 2047 ∧ (ofFields s exponent fraction = .infinity s ∨
      ofFields s exponent fraction = .notANumber)) ∨
    (exponent = 0 ∧ fraction = 0 ∧ ofFields s exponent fraction = .zero s) ∨
    (exponent = 0 ∧ ∃ h, ofFields s exponent fraction = .finite s fraction (-1074) h) ∨
    (0 < exponent ∧ exponent ≠ 2047 ∧
      ∃ h, ofFields s exponent fraction = .finite s (2 ^ 52 + fraction) (exponent - 1075) h) := by
  unfold ofFields
  by_cases hmax : exponent = 2047
  · rw [if_pos hmax]
    by_cases hnone : fraction = 0
    · exact .inl ⟨hmax, .inl (if_pos hnone)⟩
    · exact .inl ⟨hmax, .inr (if_neg hnone)⟩
  rw [if_neg hmax]
  by_cases hzero : exponent = 0
  · rw [if_pos hzero]
    by_cases hnone : fraction = 0
    · exact .inr (.inl ⟨hzero, hnone, dif_pos hnone⟩)
    · exact .inr (.inr (.inl ⟨hzero, _, dif_neg hnone⟩))
  · exact .inr (.inr (.inr ⟨Nat.pos_of_ne_zero hzero, hmax, _, if_neg hzero⟩))

theorem ofFields_finite {s t : Sign} {exponent fraction m : ℕ} {e : ℤ} {hm : 0 < m}
    (h : ofFields s exponent fraction = .finite t m e hm) :
    s = t ∧ ((exponent = 0 ∧ m = fraction ∧ e = -1074) ∨
      (0 < exponent ∧ exponent ≠ 2047 ∧ m = 2 ^ 52 + fraction ∧ e = exponent - 1075)) := by
  obtain ⟨-, hshape | hshape⟩ | ⟨-, -, hshape⟩ | ⟨hzero, _, hshape⟩ | ⟨hpos, hmax, _, hshape⟩ :=
    ofFields_cases s exponent fraction
  all_goals
    rw [hshape] at h
    cases h
  · exact ⟨rfl, .inl ⟨hzero, rfl, rfl⟩⟩
  · exact ⟨rfl, .inr ⟨hpos, hmax, rfl, rfl⟩⟩

theorem ofFields_zero {s t : Sign} {exponent fraction : ℕ}
    (h : ofFields s exponent fraction = .zero t) : s = t ∧ exponent = 0 ∧ fraction = 0 := by
  obtain ⟨-, hshape | hshape⟩ | ⟨hzero, hnone, hshape⟩ | ⟨-, _, hshape⟩ | ⟨-, -, _, hshape⟩ :=
    ofFields_cases s exponent fraction
  all_goals
    rw [hshape] at h
    cases h
  exact ⟨rfl, hzero, hnone⟩

theorem isFinite_ofFields (s : Sign) {exponent : ℕ} (fraction : ℕ) (hmax : exponent ≠ 2047) :
    (ofFields s exponent fraction).isFinite = true := by
  obtain ⟨h, -⟩ | ⟨-, -, hshape⟩ | ⟨-, _, hshape⟩ | ⟨-, -, _, hshape⟩ :=
    ofFields_cases s exponent fraction
  · exact absurd h hmax
  all_goals
    rw [hshape]
    rfl

/-- Finite floats with the same unpacked form are the same, also in their signs. -/
theorem eq_of_unpacked_eq {x y : Float} (hfinite : x.isFinite = true)
    (h : unpacked x = unpacked y) : x = y := by
  obtain ⟨s, e, m, hx⟩ := exists_fields x
  obtain ⟨t, f, n, hy⟩ := exists_fields y
  rw [hx.unpacked, hy.unpacked] at h
  have hsame : s = t ∧ e = f ∧ m = n := by
    rw [isFinite_eq, hx.unpacked, h] at hfinite
    match hf : ofFields t f n with
    | .notANumber => rw [hf] at hfinite; cases hfinite
    | .infinity _ => rw [hf] at hfinite; cases hfinite
    | .zero _ =>
      obtain ⟨hs, he, hm⟩ := ofFields_zero (h.trans hf)
      obtain ⟨ht, hf, hn⟩ := ofFields_zero hf
      exact ⟨hs.trans ht.symm, he.trans hf.symm, hm.trans hn.symm⟩
    | .finite _ _ _ _ =>
      obtain ⟨hs, hsize⟩ := ofFields_finite (h.trans hf)
      obtain ⟨ht, hsize'⟩ := ofFields_finite hf
      have hm := hx.fraction_lt
      have hn := hy.fraction_lt
      exact ⟨hs.trans ht.symm, by omega, by omega⟩
  have hbits : x.toBits = y.toBits := by
    apply UInt64.toNat_inj.1
    rw [hx.bits, hy.bits, hsame.1, hsame.2.1, hsame.2.2]
  obtain ⟨⟨_, _⟩⟩ := x
  obtain ⟨⟨_, _⟩⟩ := y
  cases hbits
  rfl

/-! ## Size and sign -/

theorem canonical_of_unpacked {x : Float} {s : Sign} {m : ℕ} {e : ℤ} {hm : 0 < m}
    (h : unpacked x = .finite s m e hm) : Canonical m e ∧ e ≤ 971 := by
  obtain ⟨t, exponent, fraction, hx⟩ := exists_fields x
  have hlt := hx.exponent_lt
  have hfraction := hx.fraction_lt
  rw [hx.unpacked] at h
  unfold Canonical
  obtain ⟨-, ⟨-, rfl, rfl⟩ | ⟨hpos, hmax, rfl, rfl⟩⟩ := ofFields_finite h
  · have hlog : m.log2 < 52 := (Nat.log2_lt hm.ne').2 hfraction
    omega
  · have hlog : (2 ^ 52 + fraction).log2 = 52 := by
      rw [Nat.log2_eq_iff (by omega)]
      omega
    omega

theorem dyadic_ofFloat {x : Float} {s : Sign} {exponent fraction : ℕ}
    (hx : Fields x s exponent fraction) :
    Dyadic.ofFloat x =
      if exponent = 0 then ⟨fraction, -1074⟩ else ⟨2 ^ 52 + fraction, exponent - 1075⟩ := by
  have he := hx.exponent_lt
  have hm := hx.fraction_lt
  have hexponent : ((x.toBits >>> 52) &&& 0x7FF).toNat = exponent := by
    rw [UInt64.toNat_and, UInt64.toNat_shiftRight]
    show x.toBits.toNat >>> 52 &&& (2 ^ 11 - 1) = exponent
    rw [Nat.and_two_pow_sub_one_eq_mod, Nat.shiftRight_eq_div_pow, hx.bits]
    omega
  have hfraction : (x.toBits &&& 0xFFFFFFFFFFFFF).toNat = fraction := by
    rw [UInt64.toNat_and]
    show x.toBits.toNat &&& (2 ^ 52 - 1) = fraction
    rw [Nat.and_two_pow_sub_one_eq_mod, hx.bits]
    omega
  unfold Dyadic.ofFloat
  simp only [hexponent, hfraction]
  rfl

theorem signed_eq {x : Float} {s : Sign} {exponent fraction : ℕ}
    (hx : Fields x s exponent fraction) : signed x = (s == .negative) := by
  have he := hx.exponent_lt
  have hm := hx.fraction_lt
  have hsign : (x.toBits >>> 63).toNat = s.toBitVec.toNat := by
    rw [UInt64.toNat_shiftRight]
    show x.toBits.toNat >>> 63 = _
    rw [Nat.shiftRight_eq_div_pow, hx.bits]
    omega
  unfold signed
  rw [Bool.eq_iff_iff, beq_iff_eq, ← UInt64.toNat_inj, hsign]
  cases s <;> decide

/-- The size and the sign of a float that is not zero, read off its bits. -/
theorem ofFloat_of_unpacked {x : Float} {s : Sign} {m : ℕ} {e : ℤ} {hm : 0 < m}
    (h : unpacked x = .finite s m e hm) :
    Dyadic.ofFloat x = ⟨m, e⟩ ∧ signed x = (s == .negative) := by
  obtain ⟨t, exponent, fraction, hx⟩ := exists_fields x
  rw [dyadic_ofFloat hx, signed_eq hx]
  rw [hx.unpacked] at h
  obtain ⟨rfl, ⟨rfl, rfl, rfl⟩ | ⟨hpos, -, rfl, rfl⟩⟩ := ofFields_finite h
  · exact ⟨if_pos rfl, rfl⟩
  · exact ⟨if_neg hpos.ne', rfl⟩

theorem ofFloat_of_unpacked_zero {x : Float} {s : Sign} (h : unpacked x = .zero s) :
    (Dyadic.ofFloat x).units = 0 ∧ signed x = (s == .negative) := by
  obtain ⟨t, exponent, fraction, hx⟩ := exists_fields x
  rw [dyadic_ofFloat hx, signed_eq hx]
  rw [hx.unpacked] at h
  obtain ⟨rfl, rfl, rfl⟩ := ofFields_zero h
  exact ⟨rfl, rfl⟩

/-! ## Packing -/

/-- The float of an unpacked number that is rounded already. -/
def packed (u : UnpackedFloat) : Float := .ofModel (.pack u)

theorem unpacked_packed (u : UnpackedFloat) :
    unpacked (packed u) =
      UnpackedFloat.unpack Format.binary64 (UnpackedFloat.pack Format.binary64 u) := rfl

theorem unpacked_packed_zero (s : Sign) : unpacked (packed (.zero s)) = .zero s := by
  cases s <;> rfl

/-- What the fields of a packed number are. -/
theorem unpacked_packed_finite (s : Sign) {m : ℕ} (hm : 0 < m) {e : ℤ} (he : e ≤ 971) :
    unpacked (packed (.finite s m e hm)) =
      if m.log2 = 52 then ofFields s (e + 1075).toNat (m % 2 ^ 52)
      else ofFields s 0 (m % 2 ^ 52) := by
  have hbiased : (e + (Format.binary64.exponentBias : ℤ) +
      (Format.binary64.mantissaBitsWithoutImplicit : ℤ)).toNat = (e + 1075).toNat := by
    congr 1
    show e + 1023 + 52 = e + 1075
    ring
  rw [unpacked_packed]
  unfold UnpackedFloat.pack
  simp only [hbiased]
  rw [if_neg (show ¬ 2 ^ 11 ≤ (e + 1075).toNat + 1 by omega)]
  split
  · next hlog =>
    have hlog : m.log2 = 52 := Nat.succ_injective (hlog.trans (Nat.add_comm 1 52))
    rw [if_pos hlog, unpack_packComponents, BitVec.toNat_ofNat, BitVec.toNat_ofNat,
      Nat.mod_eq_of_lt (show (e + 1075).toNat < 2 ^ 11 by omega)]
  · next hlog =>
    have hlog : m.log2 ≠ 52 := fun h => hlog (by rw [h]; rfl)
    rw [if_neg hlog, unpack_packComponents, BitVec.toNat_ofNat]
    rfl

/-- Packing keeps a canonical number that is not too large. -/
theorem unpacked_packed_of_canonical (s : Sign) {m : ℕ} (hm : 0 < m) {e : ℤ} (hc : Canonical m e)
    (he : e ≤ 971) : unpacked (packed (.finite s m e hm)) = .finite s m e hm := by
  unfold Canonical at hc
  rw [unpacked_packed_finite s hm he]
  by_cases hlog : m.log2 = 52
  · rw [if_pos hlog]
    obtain ⟨hlow, hhigh⟩ := (Nat.log2_eq_iff hm.ne').1 hlog
    have hrest : 2 ^ 52 + m % 2 ^ 52 = m := by omega
    unfold ofFields
    rw [if_neg (by omega), if_neg (by omega)]
    exact finite_congr hrest (by omega)
  · rw [if_neg hlog]
    have hsmall : m < 2 ^ 52 := (Nat.log2_lt hm.ne').1 (by omega)
    have hrest : m % 2 ^ 52 = m := Nat.mod_eq_of_lt hsmall
    obtain rfl : e = -1074 := by omega
    unfold ofFields
    rw [if_neg (by omega), if_pos rfl, dif_neg (by omega)]
    exact finite_congr hrest rfl

theorem isFinite_packed (s : Sign) {m : ℕ} (hm : 0 < m) {e : ℤ} (he : e ≤ 971) :
    (packed (.finite s m e hm)).isFinite = true := by
  rw [isFinite_eq, unpacked_packed_finite s hm he]
  split
  · exact isFinite_ofFields s _ (by omega)
  · exact isFinite_ofFields s _ (by omega)

theorem packed_of_large (s : Sign) {m : ℕ} (hm : 0 < m) {e : ℤ} (he : 972 ≤ e) :
    packed (.finite s m e hm) = packed (.infinity s) := by
  have hpack : UnpackedFloat.pack Format.binary64 (.finite s m e hm) =
      UnpackedFloat.pack Format.binary64 (.infinity s) := by
    have hbiased : 2 ^ 11 ≤ (e + (Format.binary64.exponentBias : ℤ) +
        (Format.binary64.mantissaBitsWithoutImplicit : ℤ)).toNat + 1 := by
      show 2 ^ 11 ≤ (e + 1023 + 52).toNat + 1
      omega
    exact if_pos hbiased
  unfold packed Float.Model.pack
  rw [Float.ofModel.injEq, Float.Model.mk.injEq]
  exact congrArg UInt64.ofBitVec hpack

/-! ## Comparison and sign -/

theorem beq_eq (x y : Float) : (x == y) = (unpacked x).beq (unpacked y) := rfl

/-- Floats that compare as equal are the same unless they are zeros. -/
theorem eq_of_beq {x y : Float} (h : (x == y) = true) {s : Sign} {m : ℕ} {e : ℤ} {hm : 0 < m}
    (hy : unpacked y = .finite s m e hm) : x = y := by
  have hfinite : y.isFinite = true := by
    rw [isFinite_eq, hy]
    rfl
  refine (eq_of_unpacked_eq hfinite ?_).symm
  rw [beq_eq, hy] at h
  unfold UnpackedFloat.beq at h
  rw [beq_iff_eq] at h
  rw [hy]
  match hx : unpacked x with
  | .notANumber => rw [hx] at h; cases s <;> cases h
  | .infinity t => rw [hx] at h; cases s <;> cases t <;> cases h
  | .zero t => rw [hx] at h; cases s <;> cases t <;> cases h
  | .finite t n f hn =>
    rw [hx] at h
    have hsame : f = e ∧ n = m ∧ t = s := by
      cases s <;> cases t
      · have horder := Option.some.inj h
        rw [Ordering.swap_eq_eq, Ordering.then_eq_eq, compare_eq_iff_eq,
          compare_eq_iff_eq] at horder
        exact ⟨horder.1, horder.2, rfl⟩
      · cases h
      · cases h
      · have horder := Option.some.inj h
        rw [Ordering.then_eq_eq, compare_eq_iff_eq, compare_eq_iff_eq] at horder
        exact ⟨horder.1, horder.2, rfl⟩
    obtain ⟨rfl, rfl, rfl⟩ := hsame
    rfl

theorem neg_eq_packed (x : Float) : -x = packed (unpacked x).neg := rfl

theorem unpacked_neg {x : Float} (hfinite : x.isFinite = true) :
    unpacked (-x) = (unpacked x).neg := by
  rw [neg_eq_packed]
  rw [isFinite_eq] at hfinite
  match hx : unpacked x with
  | .notANumber => rw [hx] at hfinite; cases hfinite
  | .infinity _ => rw [hx] at hfinite; cases hfinite
  | .zero s => exact unpacked_packed_zero (-s)
  | .finite s m e hm =>
    obtain ⟨hc, he⟩ := canonical_of_unpacked hx
    exact unpacked_packed_of_canonical (-s) hm hc he

theorem isFinite_neg {x : Float} (hfinite : x.isFinite = true) : (-x).isFinite = true := by
  have hneg : (unpacked x).neg.isFinite = (unpacked x).isFinite := by
    cases unpacked x <;> rfl
  rw [isFinite_eq, unpacked_neg hfinite, hneg]
  exact hfinite

theorem neg_neg_of_isFinite {x : Float} (hfinite : x.isFinite = true) : -(-x) = x := by
  refine (eq_of_unpacked_eq hfinite ?_).symm
  rw [unpacked_neg (isFinite_neg hfinite), unpacked_neg hfinite]
  match unpacked x with
  | .notANumber => rfl
  | .infinity s => cases s <;> rfl
  | .zero s => cases s <;> rfl
  | .finite s m e hm => cases s <;> rfl

/-! ## The nearest float -/

/-- The float nearest to a positive number. -/
def rounded (q : ℚ) : Float := packed (nearest .positive q)

theorem rounded_of_large {q : ℚ} (hq : 2 ^ (1024 : ℤ) ≤ q) :
    rounded q = Float.ofBits 0x7FF0000000000000 := by
  have hpos : 0 < q := lt_of_lt_of_le (by positivity) hq
  have hlog : 1024 ≤ Int.log 2 q := by
    rw [← Int.zpow_le_iff_le_log Nat.one_lt_two hpos]
    exact_mod_cast hq
  have hnonzero : (2 : ℚ) ^ (-1074 : ℤ) ≤ q :=
    (zpow_le_zpow_right₀ (by norm_num) (by norm_num)).trans hq
  obtain ⟨m, e, hm, hnearest, hlow, -⟩ := nearest_of_le (s := .positive) hnonzero
  unfold rounded
  rw [hnearest, packed_of_large _ _ (by unfold ulp at hlow; omega)]
  rfl

theorem rounded_of_small {q : ℚ} (hq : 0 < q) (hsmall : q < 2 ^ (-1075 : ℤ)) : rounded q = 0 := by
  unfold rounded
  rw [nearest_of_lt hq hsmall]
  rfl

theorem isFinite_rounded {q : ℚ} (hq : 0 < q) (hsmall : q < 2 ^ (1023 : ℤ)) :
    (rounded q).isFinite = true := by
  have hlog : Int.log 2 q < 1023 := by
    rw [← Int.lt_zpow_iff_log_lt Nat.one_lt_two hq]
    exact_mod_cast hsmall
  unfold rounded
  obtain hzero | ⟨m, e, hm, hnearest, -, hhigh⟩ := nearest_cases .positive hq
  · rw [hzero]
    rfl
  · rw [hnearest]
    exact isFinite_packed _ _ (by unfold ulp at hhigh; omega)

theorem unpacked_rounded {m : ℕ} (hm : 0 < m) {e : ℤ} (hc : Canonical m e) (he : e ≤ 971) :
    unpacked (rounded (m * 2 ^ e)) = .finite .positive m e hm := by
  unfold rounded
  rw [nearest_of_canonical _ hm hc, unpacked_packed_of_canonical _ hm hc he]

theorem rounded_of_unpacked {x : Float} {m : ℕ} {e : ℤ} {hm : 0 < m}
    (h : unpacked x = .finite .positive m e hm) : rounded (m * 2 ^ e) = x := by
  obtain ⟨hc, he⟩ := canonical_of_unpacked h
  have hfinite : x.isFinite = true := by
    rw [isFinite_eq, h]
    rfl
  refine (eq_of_unpacked_eq hfinite ?_).symm
  rw [h, unpacked_rounded hm hc he]

end BenchHistory.Binary64
