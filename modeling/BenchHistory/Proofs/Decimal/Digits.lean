import BenchHistory.Decimal.Basic
import Mathlib.Algebra.Ring.Nat
import Mathlib.Data.List.Basic
import Mathlib.Tactic.IntervalCases

/-!
# Decimal digits

The digits of a number give the number back, and zeros at either end do what they should.
-/

namespace BenchHistory.Decimal

theorem ofDigits_digitList (n : ℕ) : ofDigits (digitList n) = n :=
  Nat.ofDigitChars_ten_toDigits

theorem ofDigits_append (as bs : List Char) :
    ofDigits (as ++ bs) = 10 ^ bs.length * ofDigits as + ofDigits bs := by
  have hsplit : ofDigits (as ++ bs) = Nat.ofDigitChars 10 bs (ofDigits as) :=
    Nat.ofDigitChars_append 0
  rw [hsplit, Nat.ofDigitChars_eq_ofDigitChars_zero]
  rfl

theorem ofDigits_zeros_append (k : ℕ) (cs : List Char) :
    ofDigits (List.replicate k '0' ++ cs) = ofDigits cs := by
  have hzeros : ofDigits (List.replicate k '0') = 10 ^ k * 0 := Nat.ofDigitChars_replicate_zero
  rw [ofDigits_append, hzeros, mul_zero, mul_zero, zero_add]

theorem ofDigits_append_zeros (cs : List Char) (k : ℕ) :
    ofDigits (cs ++ List.replicate k '0') = 10 ^ k * ofDigits cs := by
  have hzeros := ofDigits_zeros_append k []
  rw [List.append_nil] at hzeros
  rw [ofDigits_append, hzeros, List.length_replicate]
  rfl

theorem isDigit_of_mem_digitList {n : ℕ} {c : Char} (hc : c ∈ digitList n) : c.isDigit = true :=
  Nat.isDigit_of_mem_toDigits (by decide) (by decide) hc

theorem isDigit_of_mem_zeros (k : ℕ) : ∀ c ∈ List.replicate k '0', c.isDigit = true := by
  intro c hc
  rw [List.eq_of_mem_replicate hc]
  rfl

theorem digitList_ne_nil (n : ℕ) : digitList n ≠ [] := Nat.toDigits_ne_nil

theorem digitChar_ne_zero {n : ℕ} (hn : 0 < n) (hsmall : n < 10) : n.digitChar ≠ '0' := by
  interval_cases n <;> decide

theorem head?_digitList {n : ℕ} (hn : 0 < n) : (digitList n).head? ≠ some '0' := by
  induction n using Nat.strong_induction_on with
  | _ n ih =>
    by_cases hsmall : n < 10
    · unfold digitList
      rw [Nat.toDigits_of_lt_base hsmall]
      intro h
      exact digitChar_ne_zero hn hsmall (Option.some.inj h)
    · have hlast : digitList n = digitList (n / 10) ++ [(n % 10).digitChar] :=
        Nat.toDigits_of_base_le (by decide) (by omega)
      rw [hlast, List.head?_append_of_ne_nil _ (digitList_ne_nil _)]
      exact ih (n / 10) (by omega) (by omega)

theorem eq_zero_of_head?_digitList {n : ℕ} (h : (digitList n).head? = some '0') : n = 0 := by
  by_contra hne
  exact head?_digitList (Nat.pos_of_ne_zero hne) h

end BenchHistory.Decimal
