import BenchHistory.Decimal.Shortest

/-!
# Floats in reports

Reports write a value with its shortest digits and never with an exponent, and a
ratio with two places.
-/

namespace BenchHistory.Decimal

/-- A value in a report: shortest digits, positional, whole numbers without a point. -/
def plainText (x : Float) : String :=
  if x.isNaN then "NaN"
  else
    let size := if x.isInf then "inf".toList else positional false (shortest .up x)
    String.ofList (if signed x then '-' :: size else size)

/-- A quotient rounded to the nearest whole number, ties to the even one. -/
def roundDiv (n d : Nat) : Nat :=
  let q := n / d
  let r := n % d
  if 2 * r < d then q
  else if d < 2 * r then q + 1
  else if q % 2 = 0 then q else q + 1

/-- The exact value of a finite float rounded to two places. -/
def twoPlaces (x : Float) : String :=
  let (n, d) := (Dyadic.ofFloat x).scaled 2
  let ds := digitList (roundDiv n d)
  let ds := List.replicate (3 - ds.length) '0' ++ ds
  let size := ds.take (ds.length - 2) ++ '.' :: ds.drop (ds.length - 2)
  String.ofList (if signed x then '-' :: size else size)

end BenchHistory.Decimal
