import BenchHistory.Decimal.Text
import BenchHistory.Keyed
import BenchHistory.Text.Lower

/-!
# Values of settings

Settings come from files and from environment variables, where one and the same
value may be written as a number, as a word or as a text. So a value is taken for
what is asked for: `1`, `"on"` and `true` are one truth value.
-/

namespace BenchHistory.Settings

/-- A value as its source gives it. -/
inductive Value where
  | null
  | bool (b : Bool)
  | int (n : Int)
  | float (x : Float)
  | text (s : String)
  | array (items : List Value)
  | table (members : List (String × Value))
deriving Repr

instance : Inhabited Value := ⟨.null⟩

/-! ## Numbers in texts -/

/-- The value of decimal digits, of which there must be one at least. -/
def digits? (cs : List Char) : Option Nat :=
  if cs ≠ [] ∧ cs.all Char.isDigit then some (Decimal.ofDigits cs) else none

/-- A sign taken off a text. -/
def splitSign : List Char → Bool × List Char
  | '-' :: cs => (true, cs)
  | '+' :: cs => (false, cs)
  | cs => (false, cs)

/-- The integer of 64 bits that a text writes: a sign and digits. -/
def int64? (cs : List Char) : Option Int := do
  let (negative, ds) := splitSign cs
  let n ← digits? ds
  let n : Int := if negative then -(n : Int) else n
  if -0x8000000000000000 ≤ n ∧ n < 0x8000000000000000 then some n else none

/-- The natural number of 64 bits that a text writes. -/
def nat64? (cs : List Char) : Option Nat := do
  let ds := match cs with
    | '+' :: ds => ds
    | ds => ds
  let n ← digits? ds
  if n < 0x10000000000000000 then some n else none

/-- The parts of a written float: digits before and after the point, and the exponent. -/
def floatParts? (cs : List Char) : Option (List Char × List Char × Int) := do
  let (whole, rest) := cs.span Char.isDigit
  let (fraction, rest) := match rest with
    | '.' :: r => r.span Char.isDigit
    | r => ([], r)
  if whole = [] ∧ fraction = [] then none
  match rest with
  | [] => some (whole, fraction, 0)
  | c :: r =>
    if c = 'e' ∨ c = 'E' then
      let (negative, ds) := splitSign r
      let e ← digits? ds
      some (whole, fraction, if negative then -(e : Int) else e)
    else none

/-- The float that a text writes; digits may be missing on one side of the point. -/
def float? (cs : List Char) : Option Float := do
  let (negative, size) := splitSign cs
  let word := (String.ofList size).toLower
  let x : Float ←
    if word = "inf" ∨ word = "infinity" then some (Float.ofBits 0x7FF0000000000000)
    else if word = "nan" then some (Float.ofBits 0x7FF8000000000000)
    else do
      let (whole, fraction, e) ← floatParts? size
      some (Decimal.toFloat ⟨Decimal.ofDigits (whole ++ fraction), e - fraction.length⟩)
  return if negative then -x else x

/-! ## What a value is taken for -/

/-- The truth value of a word, its letters made small. -/
def wordBool? (s : String) : Option Bool :=
  if s = "true" ∨ s = "on" ∨ s = "yes" then some true
  else if s = "false" ∨ s = "off" ∨ s = "no" then some false
  else none

/-- The nearest integer, halves away from zero, kept between two bounds; 0 if there is none. -/
def rounded (least most : Int) (x : Float) : Int :=
  if x.isNaN then 0
  else if x.isInf then (if x < 0 then least else most)
  else
    let (n, d) := (Dyadic.ofFloat x).scaled 0
    let size : Int := ((2 * n + d) / (2 * d) : Nat)
    max least (min most (if signed x then -size else size))

namespace Value

/-- A truth value. -/
def toBool? : Value → Option Bool
  | .bool b => some b
  | .int n => some (n ≠ 0)
  | .float x => some (x != 0)
  | .text s =>
    let w := Text.lower s
    if w = "1" then some true else if w = "0" then some false else wordBool? w
  | _ => none

/-- A count of 64 bits. -/
def toNat? : Value → Option Nat
  | .bool b => some b.toNat
  | .int n => if 0 ≤ n then some n.toNat else none
  | .float x => some (rounded 0 0xFFFFFFFFFFFFFFFF x).toNat
  | .text s =>
    match wordBool? (Text.lower s) with
    | some b => some b.toNat
    | none => nat64? s.toList
  | _ => none

/-- A float. -/
def toFloat? : Value → Option Float
  | .bool b => some (if b then 1 else 0)
  | .int n => some (Float.ofInt n)
  | .float x => some x
  | .text s =>
    match wordBool? (Text.lower s) with
    | some b => some (if b then 1 else 0)
    | none => float? s.toList
  | _ => none

/-- A text. -/
def toText? : Value → Option String
  | .bool b => some (if b then "true" else "false")
  | .int n => some (toString n)
  | .float x => some (Decimal.plainText x)
  | .text s => some s
  | _ => none

/-- The name of a case: a text, or a table with that name alone. -/
def toName? : Value → Option String
  | .text s => some (Text.lower s)
  | .table [(k, _)] => some (Text.lower k)
  | _ => none

def optional? {α : Type} (take : Value → Option α) : Value → Option (Option α)
  | .null => some none
  | v => (take v).map some

/-- The field of a record: a member of a table, or the item at its place in an array. -/
def field? (name : String) (place : Nat) : Value → Option Value
  | .table ms => Keyed.get? name ms
  | .array vs => vs[place]?
  | _ => none

/-- Whether a value can be a record. -/
def isRecord : Value → Bool
  | .table _ => true
  | .array _ => true
  | _ => false

def members : Value → List (String × Value)
  | .table ms => ms
  | _ => []

def items : Value → List Value
  | .array vs => vs
  | _ => []

end Value

end BenchHistory.Settings
