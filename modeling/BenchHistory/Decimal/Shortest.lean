import BenchHistory.Decimal.Basic

/-!
# The fewest digits that read back

A finite float is written with as few digits as tell it from every other float.
The search goes from one digit to seventeen; on each grid only the two
neighbours of the value can be nearest to it, and the first grid on which one of
them reads back as the float wins.
-/

namespace BenchHistory.Decimal

/-- Which of two equally close neighbours is taken. -/
inductive Tie where
  | toEven
  | up
deriving DecidableEq, Repr

/-- Whether the decimal reads as the float whose size is given. -/
def readsAs (d : Decimal) (size : Float) : Bool :=
  d.toFloat == size

/-- The least `k` with the value below `10 ^ k`. -/
def scale (v : Dyadic) : Int :=
  let guess := ((v.units.log2 : Int) + v.exponent) * 30103 / 100000
  let below (k : Int) : Bool := let (n, d) := v.scaled (-k); n < d
  if below (guess - 1) then guess - 1
  else if below guess then guess
  else if below (guess + 1) then guess + 1
  else guess + 2

/-- The neighbour of the value on the grid of `10 ^ exponent` that reads back, if one does. -/
def onGrid (tie : Tie) (size : Float) (v : Dyadic) (exponent : Int) : Option Decimal :=
  let (n, d) := v.scaled (-exponent)
  let low : Decimal := ⟨n / d, exponent⟩
  let high : Decimal := ⟨n / d + 1, exponent⟩
  let rest := n % d
  let takeLow : Bool :=
    if 2 * rest = d then (match tie with | .toEven => n / d % 2 == 0 | .up => false)
    else decide (2 * rest < d)
  match readsAs low size, readsAs high size with
  | true, true => if takeLow then some low else some high
  | true, false => some low
  | false, true => some high
  | false, false => none

/-- The same number without zeros at the end of its digits, at most `fuel` of them. -/
def stripZeros : Nat → Decimal → Decimal
  | 0, d => d
  | fuel + 1, d =>
    if d.digits % 10 = 0 ∧ d.digits ≠ 0 then stripZeros fuel ⟨d.digits / 10, d.exponent + 1⟩ else d

/-- The shortest decimal of the size of a finite float; zero is `0`. -/
def shortest (tie : Tie) (x : Float) : Decimal :=
  let v := Dyadic.ofFloat x
  if v.units = 0 then ⟨0, 0⟩
  else
    let size := if signed x then -x else x
    let k := scale v
    match (List.range 17).findSome? fun n => onGrid tie size v (k - (n + 1 : Nat)) with
    | some d => stripZeros 17 d
    | none => v.toDecimal

end BenchHistory.Decimal
