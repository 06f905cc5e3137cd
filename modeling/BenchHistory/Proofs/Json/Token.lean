import BenchHistory.Json.Parser
import BenchHistory.Json.Printer
import BenchHistory.Proofs.Decimal.Digits
import BenchHistory.Proofs.Decimal.Shortest

/-!
# Tokens read back

The text of a string is read as the string (`stringValue_text`), and the text of a number that
a JSON value can hold as the number (`numberValue_text`): integers digit by digit, floats
because their shortest digits are those of the nearest float.
-/

namespace BenchHistory.Json

open Decimal

/-! ## Strings -/

theorem hex4_code {n : ℕ} (hn : n < 0x20) :
    hex4 '0' '0' (Nat.digitChar (n / 16)) (Nat.digitChar (n % 16)) = some n := by
  revert n
  decide

theorem readString_escapeChar (c : Char) (cs : List Char) :
    readString (escapeChar c ++ cs) = consChar c (readString cs) := by
  unfold escapeChar
  split
  · next h => rw [h]; rfl
  split
  · next h => rw [h]; rfl
  split
  · next h => rw [h]; rfl
  split
  · next h => rw [h]; rfl
  split
  · next h => rw [h]; rfl
  split
  · next h => rw [h]; rfl
  split
  · next h => rw [h]; rfl
  split
  · next hlow =>
    simp only [List.cons_append, List.nil_append]
    rw [readString, hex4_code hlow]
    simp only
    rw [if_neg (by omega), if_neg (by omega), Char.ofNat_toNat]
  · next hquote hback _ _ _ _ _ hlow =>
    simp only [List.cons_append, List.nil_append]
    rw [readString.eq_def]
    split <;> simp_all

theorem readString_flatMap (s rest : List Char) :
    readString (s.flatMap escapeChar ++ '"' :: rest) = .ok (s, rest) := by
  induction s with
  | nil => rfl
  | cons c s ih =>
    rw [List.flatMap_cons, List.append_assoc, readString_escapeChar, ih]
    rfl

theorem stringValue_text (s : String) (rest : List Char) :
    stringValue (s.toList.flatMap escapeChar ++ '"' :: rest) = (.string s, some rest) := by
  unfold stringValue
  rw [readString_flatMap]
  simp

/-! ## Parts of numbers -/

/-- A text that no number goes on with. -/
def Ends (rest : List Char) : Prop :=
  ∀ c ∈ rest.head?, c.isDigit = false ∧ c ≠ '.' ∧ c ≠ 'e' ∧ c ≠ 'E'

theorem someDigits_append {ds rest : List Char} (hds : ∀ c ∈ ds, c.isDigit = true) (hne : ds ≠ [])
    (hrest : ∀ c ∈ rest.head?, c.isDigit = false) : someDigits (ds ++ rest) = .ok (ds, rest) := by
  have hspan : (ds ++ rest).span Char.isDigit = (ds, rest) := by
    rw [List.span_eq_takeWhile_dropWhile, List.takeWhile_append_of_pos hds,
      List.dropWhile_append_of_pos hds]
    cases rest with
    | nil => simp
    | cons c rest =>
      have hc := hrest c rfl
      simp [hc]
  unfold someDigits
  rw [hspan]
  simp [hne]

theorem fractionPart_append {ds rest : List Char} (hds : ∀ c ∈ ds, c.isDigit = true) (hne : ds ≠ [])
    (hrest : ∀ c ∈ rest.head?, c.isDigit = false) :
    fractionPart ('.' :: ds ++ rest) = .ok (ds, rest) :=
  someDigits_append hds hne hrest

theorem fractionPart_none {rest : List Char} (hrest : ∀ c ∈ rest.head?, c ≠ '.') :
    fractionPart rest = .ok ([], rest) := by
  unfold fractionPart
  split
  · exact absurd rfl (hrest '.' rfl)
  · rfl

theorem powerPart_none {rest : List Char} (hrest : ∀ c ∈ rest.head?, c ≠ 'e' ∧ c ≠ 'E') :
    powerPart rest = .ok (none, rest) := by
  unfold powerPart
  split
  · next c r =>
    have hc := hrest c rfl
    simp [hc.1, hc.2]
  · rfl

theorem powerPart_append (k : ℤ) {rest : List Char} (hrest : ∀ c ∈ rest.head?, c.isDigit = false) :
    powerPart ('e' :: (if 0 ≤ k then '+' else '-') :: digitList k.natAbs ++ rest) =
      .ok (some k, rest) := by
  have hdigits := someDigits_append (fun c hc => isDigit_of_mem_digitList hc)
    (digitList_ne_nil k.natAbs) hrest
  have hsize := ofDigits_digitList k.natAbs
  split
  · next hnonneg =>
    have hvalue : ((k.natAbs : ℕ) : ℤ) = k := by omega
    simp only [List.cons_append, powerPart, powerSign, hdigits, bind, Except.bind, pure,
      Except.pure, hsize, hvalue]
    rfl
  · next hneg =>
    have hvalue : -((k.natAbs : ℕ) : ℤ) = k := by omega
    simp only [List.cons_append, powerPart, powerSign, hdigits, bind, Except.bind, pure,
      Except.pure, hsize, if_true, hvalue]
    rfl

/-- A number is read part by part. -/
theorem unsigned_append (negative : Bool) {whole tail fraction tail' rest : List Char}
    {power : Option ℤ} (hdigits : ∀ c ∈ whole, c.isDigit = true) (hne : whole ≠ [])
    (hlead : whole.head? = some '0' → whole.length = 1)
    (htail : ∀ c ∈ tail.head?, c.isDigit = false)
    (hfraction : fractionPart tail = .ok (fraction, tail'))
    (hpower : powerPart tail' = .ok (power, rest)) :
    unsigned negative (whole ++ tail) = .ok (⟨negative, whole, fraction, power⟩, rest) := by
  have hlead' : ¬ (whole.head? = some '0' ∧ 1 < whole.length) := by
    rintro ⟨hzero, hlong⟩
    rw [hlead hzero] at hlong
    omega
  unfold unsigned
  rw [someDigits_append hdigits hne htail]
  simp only [bind, Except.bind, pure, Except.pure, hfraction, hpower]
  split
  · next hthrow =>
    simp only [Bool.and_eq_true, decide_eq_true_eq] at hthrow
    exact absurd hthrow hlead'
  · rfl

/-! ## Floats -/

/-- The decimal that a written number stands for, its sign left out. -/
def Numeral.decimal (n : Numeral) : Decimal :=
  ⟨ofDigits (n.whole ++ n.fraction), n.power.getD 0 - n.fraction.length⟩

/-- The text writes a decimal, and not with digits alone. -/
def Writes (text : List Char) (d : Decimal) : Prop :=
  ∀ negative rest, Ends rest → ∃ n : Numeral, unsigned negative (text ++ rest) = .ok (n, rest) ∧
    n.negative = negative ∧ (n.fraction ≠ [] ∨ n.power ≠ none) ∧ n.decimal.toRat = d.toRat

theorem writes_point {whole fraction : List Char} {d : Decimal}
    (hwhole : ∀ c ∈ whole, c.isDigit = true) (hne : whole ≠ [])
    (hlead : whole.head? = some '0' → whole.length = 1)
    (hfraction : ∀ c ∈ fraction, c.isDigit = true) (hne' : fraction ≠ [])
    (hvalue : toRat ⟨ofDigits (whole ++ fraction), -(fraction.length : ℤ)⟩ = d.toRat) :
    Writes (whole ++ '.' :: fraction) d := by
  intro negative rest hrest
  refine ⟨⟨negative, whole, fraction, none⟩, ?_, rfl, .inl hne', ?_⟩
  · rw [List.append_assoc]
    refine unsigned_append negative hwhole hne hlead ?_ (fractionPart_append hfraction hne'
      fun c hc => (hrest c hc).1) (powerPart_none fun c hc => (hrest c hc).2.2)
    rintro c hc
    cases hc
    rfl
  · rw [← hvalue]
    unfold Numeral.decimal
    simp

theorem writes_power {c : Char} {fraction : List Char} {k : ℤ} {d : Decimal}
    (hc : c.isDigit = true) (hfraction : ∀ c ∈ fraction, c.isDigit = true)
    (hvalue : toRat ⟨ofDigits (c :: fraction), k - fraction.length⟩ = d.toRat) :
    Writes (c :: (if fraction = [] then [] else '.' :: fraction) ++
      'e' :: (if 0 ≤ k then '+' else '-') :: digitList k.natAbs) d := by
  intro negative rest hrest
  refine ⟨⟨negative, [c], fraction, some k⟩, ?_, rfl, .inr nofun, hvalue⟩
  have hpower : powerPart ('e' :: (if 0 ≤ k then '+' else '-') :: digitList k.natAbs ++ rest) =
      .ok (some k, rest) := powerPart_append k fun c hc => (hrest c hc).1
  have hwhole : ∀ b ∈ [c], b.isDigit = true := by
    rintro b hb
    rw [List.mem_singleton.1 hb]
    exact hc
  split
  · next hnone =>
    subst hnone
    refine unsigned_append negative hwhole (by simp) (fun _ => rfl) ?_
      (fractionPart_none ?_) hpower
    · rintro b hb
      cases hb
      rfl
    · rintro b hb
      cases hb
      decide
  · next hne =>
    have htext : c :: '.' :: fraction ++
        'e' :: (if 0 ≤ k then '+' else '-') :: digitList k.natAbs ++ rest =
          [c] ++ ('.' :: fraction ++
            ('e' :: (if 0 ≤ k then '+' else '-') :: digitList k.natAbs ++ rest)) := by
      simp only [List.append_assoc, List.cons_append, List.nil_append]
    rw [htext]
    refine unsigned_append negative hwhole (by simp) (fun _ => rfl) ?_
      (fractionPart_append hfraction hne ?_) hpower
    · rintro b hb
      cases hb
      rfl
    · rintro b hb
      cases hb
      rfl

/-- Below one, zeros stand between the point and the digits. -/
theorem writes_below_one {d : Decimal} {k : ℕ}
    (hexponent : d.exponent = -(k + (digitList d.digits).length : ℕ)) :
    Writes ('0' :: '.' :: (List.replicate k '0' ++ digitList d.digits)) d := by
  have hwhole : ofDigits ('0' :: (List.replicate k '0' ++ digitList d.digits)) = d.digits := by
    rw [← List.cons_append, ← List.replicate_succ, ofDigits_zeros_append, ofDigits_digitList]
  have hfraction : ∀ c ∈ List.replicate k '0' ++ digitList d.digits, c.isDigit = true := by
    rw [List.forall_mem_append]
    exact ⟨isDigit_of_mem_zeros k, fun c hc => isDigit_of_mem_digitList hc⟩
  show Writes (['0'] ++ '.' :: (List.replicate k '0' ++ digitList d.digits)) d
  refine writes_point (isDigit_of_mem_zeros 1) (by simp) (fun _ => rfl) hfraction
    (by simp [digitList_ne_nil]) ?_
  rw [List.singleton_append, hwhole, List.length_append, List.length_replicate, ← hexponent]

/-- A whole number ends in zeros up to the units. -/
theorem writes_whole {d : Decimal} {k : ℕ} (hexponent : d.exponent = k)
    (hd : d.digits = 0 → d.exponent = 0) :
    Writes (digitList d.digits ++ List.replicate k '0' ++ ['.', '0']) d := by
  have hwhole : ofDigits (digitList d.digits ++ List.replicate k '0' ++ ['0']) =
      10 ^ (k + 1) * d.digits := by
    rw [List.append_assoc, ← List.replicate_succ', ofDigits_append_zeros, ofDigits_digitList]
  have hdigits : ∀ c ∈ digitList d.digits ++ List.replicate k '0', c.isDigit = true := by
    rw [List.forall_mem_append]
    exact ⟨fun c hc => isDigit_of_mem_digitList hc, isDigit_of_mem_zeros k⟩
  refine writes_point hdigits (by simp [digitList_ne_nil]) ?_ (isDigit_of_mem_zeros 1) (by simp) ?_
  · intro hzero
    rw [List.head?_append_of_ne_nil _ (digitList_ne_nil _)] at hzero
    have hnone := eq_zero_of_head?_digitList hzero
    have hk : k = 0 := by
      have hplain := hd hnone
      omega
    rw [hk, hnone]
    rfl
  · show toRat ⟨ofDigits (digitList d.digits ++ List.replicate k '0' ++ ['0']), _⟩ = _
    rw [hwhole]
    unfold toRat
    rw [hexponent]
    push_cast
    rw [zpow_natCast, pow_succ, List.length_singleton, Nat.cast_one, zpow_neg_one]
    field_simp

/-- Otherwise the point stands between two digits. -/
theorem writes_between {d : Decimal} {k : ℕ} (hpos : 0 < k) (hk : k < (digitList d.digits).length)
    (hexponent : d.exponent = k - (digitList d.digits).length)
    (hd : d.digits = 0 → d.exponent = 0) :
    Writes ((digitList d.digits).take k ++ '.' :: (digitList d.digits).drop k) d := by
  have hdigits : ∀ c ∈ digitList d.digits, c.isDigit = true :=
    fun c hc => isDigit_of_mem_digitList hc
  have hfraction : -(((digitList d.digits).drop k).length : ℤ) = d.exponent := by
    rw [List.length_drop]
    omega
  refine writes_point (fun c hc => hdigits c (List.mem_of_mem_take hc)) ?_ ?_
    (fun c hc => hdigits c (List.mem_of_mem_drop hc)) ?_ ?_
  · rw [← List.length_pos_iff, List.length_take]
    omega
  · intro hzero
    rw [List.head?_take, if_neg (by omega)] at hzero
    have hplain := hd (eq_zero_of_head?_digitList hzero)
    omega
  · rw [← List.length_pos_iff, List.length_drop]
    omega
  · rw [List.take_append_drop, ofDigits_digitList, hfraction]

theorem writes_positional {d : Decimal} (hd : d.digits = 0 → d.exponent = 0) :
    Writes (positional true d) d := by
  unfold positional
  simp only
  split
  · next hpoint => exact writes_below_one (by omega)
  split
  · next hpoint hshort => exact writes_whole (by omega) hd
  · next hpoint hlong => exact writes_between (by omega) (by omega) (by omega) hd

theorem writes_scientific (d : Decimal) : Writes (scientific d) d := by
  have hdigits : ∀ c ∈ digitList d.digits, c.isDigit = true :=
    fun c hc => isDigit_of_mem_digitList hc
  have hvalue := ofDigits_digitList d.digits
  have hleading : d.leading = d.exponent + (digitList d.digits).length - 1 := rfl
  have hpower : ∀ c cs, digitList d.digits = c :: cs →
      Writes (c :: (if cs = [] then [] else '.' :: cs) ++
        'e' :: (if 0 ≤ d.leading then '+' else '-') :: digitList d.leading.natAbs) d := by
    intro c cs hcs
    rw [hcs] at hdigits hvalue hleading
    rw [List.length_cons] at hleading
    refine writes_power (hdigits c List.mem_cons_self)
      (fun b hb => hdigits b (List.mem_cons_of_mem c hb)) ?_
    have hexponent : d.leading - cs.length = d.exponent := by omega
    rw [hvalue, hexponent]
  unfold scientific
  simp only
  split
  · next hnone => exact absurd hnone (digitList_ne_nil _)
  · next c hone => exact hpower c [] hone
  · next c cs hmany hcs =>
    have h := hpower c cs hcs
    rw [if_neg (fun hnone => hmany hnone)] at h
    exact h

theorem exponent_shortest {tie : Tie} {x : Float} (hfinite : x.isFinite = true)
    (hzero : (shortest tie x).digits = 0) : (shortest tie x).exponent = 0 := by
  obtain ⟨s, hx⟩ | ⟨s, m, e, hm, hx⟩ := Binary64.unpacked_cases hfinite
  · unfold shortest
    simp only [(Binary64.ofFloat_of_unpacked_zero hx).1, if_true]
  · have hsize := toFloat_shortest tie hfinite
    have hread : (shortest tie x).toFloat = 0 := by
      unfold toFloat
      rw [if_pos hzero]
      rfl
    have hunpacked := unpacked_magnitude hx
    rw [← hsize, hread, Binary64.unpacked_zero] at hunpacked
    cases hunpacked

theorem writes_size {x : Float} (hfinite : x.isFinite = true) :
    Writes (if (shortest .toEven x).digits = 0 ∨
        (-5 ≤ (shortest .toEven x).leading ∧ (shortest .toEven x).leading ≤ 15) then
      positional true (shortest .toEven x) else scientific (shortest .toEven x))
      (shortest .toEven x) := by
  split
  · exact writes_positional (exponent_shortest hfinite)
  · exact writes_scientific _

theorem number?_of_value {n : Numeral} {x : Float} (hfinite : x.isFinite = true)
    (hsign : n.negative = signed x) (hreal : n.fraction ≠ [] ∨ n.power ≠ none)
    (hvalue : n.decimal.toRat = (shortest .toEven x).toRat) : n.number? = some (.real x) := by
  have hsize : n.decimal.toFloat = magnitude x := by
    rw [toFloat_congr hvalue, toFloat_shortest .toEven hfinite]
  have hnot : (n.fraction.isEmpty && n.power.isNone) = false := by
    rw [Bool.and_eq_false_iff]
    obtain hfraction | hpower := hreal
    · exact .inl (by simpa using hfraction)
    · exact .inr (by simpa using Option.isSome_iff_ne_none.2 hpower)
  have hx := signed_magnitude hfinite
  unfold Numeral.number?
  simp only [hnot, Bool.false_and, Bool.false_eq_true, if_false]
  rw [← Numeral.decimal, hsize, if_pos (isFinite_magnitude hfinite), hsign, hx]

/-- Behind its sign, a number is read as one without a sign. -/
theorem numeral_eq_ok {negative : Bool} {text : List Char} {p : Numeral × List Char}
    (h : unsigned negative text = .ok p) :
    numeral (if negative then '-' :: text else text) = .ok p := by
  cases negative
  · show numeral text = _
    unfold numeral
    split
    · next r =>
      have hfault : unsigned false ('-' :: r) = .error (digitsMissing ('-' :: r)) := by
        unfold unsigned someDigits
        rfl
      rw [hfault] at h
      cases h
    · exact h
  · exact h

theorem numberValue_realText {x : Float} (hfinite : x.isFinite = true) {rest : List Char}
    (hrest : Ends rest) :
    numberValue (realText x ++ rest) = (.number (.real x), some rest) := by
  obtain ⟨n, hn, hsign, hreal, hvalue⟩ := writes_size hfinite (signed x) rest hrest
  have hnumeral : numeral (realText x ++ rest) = .ok (n, rest) := by
    rw [← numeral_eq_ok hn]
    unfold realText
    rw [if_pos hfinite]
    simp only
    cases signed x <;> rfl
  unfold numberValue
  simp only [hnumeral, number?_of_value hfinite hsign hreal hvalue]

/-! ## Integers -/

/-- The text of an integer of 64 bits is read as the integer. -/
theorem numberValue_intText {n : ℤ} (hlow : -2 ^ 63 ≤ n) (hhigh : n < 2 ^ 64) {rest : List Char}
    (hrest : Ends rest) :
    numberValue (intText n ++ rest) = (.number (.whole n), some rest) := by
  have hunsigned : unsigned (decide (n < 0)) (digitList n.natAbs ++ rest) =
      .ok (⟨decide (n < 0), digitList n.natAbs, [], none⟩, rest) := by
    refine unsigned_append _ (fun c hc => isDigit_of_mem_digitList hc) (digitList_ne_nil _) ?_
      (fun c hc => (hrest c hc).1) (fractionPart_none fun c hc => (hrest c hc).2.1)
      (powerPart_none fun c hc => (hrest c hc).2.2)
    intro hzero
    rw [eq_zero_of_head?_digitList hzero]
    rfl
  have hnumeral : numeral (intText n ++ rest) =
      .ok (⟨decide (n < 0), digitList n.natAbs, [], none⟩, rest) := by
    rw [← numeral_eq_ok hunsigned]
    unfold intText
    by_cases hneg : n < 0 <;> simp [hneg]
  have hnumber : Numeral.number? ⟨decide (n < 0), digitList n.natAbs, [], none⟩ =
      some (.whole n) := by
    unfold Numeral.number?
    simp only [ofDigits_digitList, List.isEmpty_nil, Option.isNone_none, Bool.true_and]
    by_cases hneg : n < 0
    · have hsmall : 0 < n.natAbs ∧ n.natAbs ≤ 0x8000000000000000 := by omega
      have hvalue : -((n.natAbs : ℕ) : ℤ) = n := by omega
      rw [decide_eq_true hneg, decide_eq_true hsmall.1, decide_eq_true hsmall.2, hvalue]
      rfl
    · have hsmall : n.natAbs < 0x10000000000000000 := by omega
      have hvalue : ((n.natAbs : ℕ) : ℤ) = n := by omega
      rw [decide_eq_false hneg, decide_eq_true hsmall, hvalue]
      rfl
  unfold numberValue
  simp only [hnumeral, hnumber]

end BenchHistory.Json
