/-!
# Decimals and binary floats

A decimal is a natural number of units of a power of ten. This module reads one
as the nearest float and takes the size of a finite float apart into a natural
number of units of a power of two.
-/

namespace BenchHistory

/-- The number `digits * 10 ^ exponent`. -/
structure Decimal where
  digits : Nat
  exponent : Int
deriving DecidableEq, Repr

namespace Decimal

/--
The nearest float. An exponent far outside the range of floats is decided without
writing the number out.
-/
def toFloat (d : Decimal) : Float :=
  if d.digits = 0 then Float.ofNat 0
  else if 400 < d.exponent then Float.ofBits 0x7FF0000000000000
  else if d.exponent < -(400 + (d.digits.log2 : Int)) then Float.ofNat 0
  else Float.ofScientific d.digits (d.exponent < 0) d.exponent.natAbs

/-- The decimal digits of a number, most significant first. -/
def digitList (n : Nat) : List Char :=
  Nat.toDigits 10 n

/-- The number that a list of decimal digits writes. -/
def ofDigits (cs : List Char) : Nat :=
  cs.foldl (fun n c => 10 * n + (c.toNat - 48)) 0

/-- The exponent of the leading digit. -/
def leading (d : Decimal) : Int :=
  d.exponent + (digitList d.digits).length - 1

/--
The digits written out around a point that follows the units. A whole number
gets `.0` when `mark` asks for it.
-/
def positional (mark : Bool) (d : Decimal) : List Char :=
  let ds := digitList d.digits
  let point := d.exponent + ds.length
  if point ≤ 0 then '0' :: '.' :: (List.replicate (-point).toNat '0' ++ ds)
  else if ds.length ≤ point.toNat then
    ds ++ List.replicate (point.toNat - ds.length) '0' ++ (if mark then ['.', '0'] else [])
  else ds.take point.toNat ++ '.' :: ds.drop point.toNat

/-- The leading digit, a point before the others, and the exponent with its sign. -/
def scientific (d : Decimal) : List Char :=
  let e := d.leading
  let power := 'e' :: (if 0 ≤ e then '+' else '-') :: digitList e.natAbs
  match digitList d.digits with
  | [] => power
  | [c] => c :: power
  | c :: cs => c :: '.' :: cs ++ power

end Decimal

/-- The non-negative number `units * 2 ^ exponent`. -/
structure Dyadic where
  units : Nat
  exponent : Int
deriving DecidableEq, Repr

namespace Dyadic

/-- The size of a finite float, its sign left out. -/
def ofFloat (x : Float) : Dyadic :=
  let b := x.toBits
  let e := ((b >>> 52) &&& 0x7FF).toNat
  let f := (b &&& 0xFFFFFFFFFFFFF).toNat
  if e = 0 then ⟨f, -1074⟩ else ⟨0x10000000000000 + f, (e : Int) - 1075⟩

/-- The number as a fraction of naturals, times `10 ^ places`. -/
def scaled (v : Dyadic) (places : Int) : Nat × Nat :=
  (v.units * Nat.pow 2 v.exponent.toNat * Nat.pow 10 places.toNat,
    Nat.pow 2 (-v.exponent).toNat * Nat.pow 10 (-places).toNat)

/-- The whole number that equals it, if there is one. -/
def toNat? (v : Dyadic) : Option Nat :=
  let (n, d) := v.scaled 0
  if n % d = 0 then some (n / d) else none

/-- The decimal that equals it. -/
def toDecimal (v : Dyadic) : Decimal :=
  if 0 ≤ v.exponent then ⟨v.units * Nat.pow 2 v.exponent.toNat, 0⟩
  else ⟨v.units * Nat.pow 5 (-v.exponent).toNat, v.exponent⟩

end Dyadic

/-- The sign bit of a float. It is set for `-0.0` too. -/
def signed (x : Float) : Bool :=
  x.toBits >>> 63 == 1

/-- The integer that equals a float, if there is one; both zeros give 0. -/
def wholeValue? (x : Float) : Option Int :=
  if x.isFinite then
    (Dyadic.ofFloat x).toNat?.map fun (n : Nat) => if signed x then -(n : Int) else (n : Int)
  else none

end BenchHistory
