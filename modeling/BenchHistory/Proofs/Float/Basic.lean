/-!
# Floats as unpacked numbers

Comparisons and tests of floats look at the unpacked form: a sign, a mantissa and an exponent.
-/

namespace BenchHistory.Binary64

open Float.Model Float.Model.UnpackedFloat

/-- The unpacked form of a float. -/
def unpacked (x : Float) : UnpackedFloat := x.toModel.unpack

theorem unpacked_zero : unpacked 0 = .zero .positive := rfl

theorem finite_congr {s : Sign} {m n : Nat} {e f : Int} {hm : 0 < m} {hn : 0 < n}
    (hdigits : m = n) (hplace : e = f) : finite s m e hm = .finite s n f hn := by
  cases hdigits
  cases hplace
  rfl

theorem isFinite_eq (x : Float) : x.isFinite = (unpacked x).isFinite := rfl

theorem unpacked_cases {x : Float} (hfinite : x.isFinite = true) :
    (∃ s, unpacked x = .zero s) ∨ ∃ s m e hm, unpacked x = .finite s m e hm := by
  rw [isFinite_eq] at hfinite
  match hx : unpacked x with
  | .notANumber => rw [hx] at hfinite; cases hfinite
  | .infinity _ => rw [hx] at hfinite; cases hfinite
  | .zero s => exact .inl ⟨s, rfl⟩
  | .finite s m e hm => exact .inr ⟨s, m, e, hm, rfl⟩

theorem lt_iff {x y : Float} : x < y ↔ (unpacked x).lt (unpacked y) = true := by
  show decide ((unpacked x).lt (unpacked y) = true) = true ↔ _
  rw [decide_eq_true_iff]

theorem le_iff {x y : Float} : x ≤ y ↔ (unpacked x).le (unpacked y) = true := by
  show decide ((unpacked x).le (unpacked y) = true) = true ↔ _
  rw [decide_eq_true_iff]

theorem zero_le_iff_not_neg {x : Float} (hfinite : x.isFinite = true) : 0 ≤ x ↔ ¬ x < 0 := by
  rw [isFinite_eq] at hfinite
  rw [lt_iff, le_iff, unpacked_zero]
  match hu : unpacked x with
  | .notANumber => rw [hu] at hfinite; cases hfinite
  | .infinity _ => rw [hu] at hfinite; cases hfinite
  | .zero _ => exact iff_of_true rfl Bool.false_ne_true
  | .finite .positive _ _ _ => exact iff_of_true rfl Bool.false_ne_true
  | .finite .negative _ _ _ => exact iff_of_false Bool.false_ne_true (not_not_intro rfl)

end BenchHistory.Binary64
