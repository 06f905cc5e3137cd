import BenchHistory.Settings.Toml.Text
import BenchHistory.Settings.Value

/-!
# Numbers and dates in TOML

Numbers may have underscores between their digits. Integers may be written in four
bases and have to fit in 64 bits. Dates and times are kept as texts in their usual
form.
-/

namespace BenchHistory.Settings.Toml

/-! ## Numbers -/

/-- Digits without the underscores between them. -/
def plainDigits (isDigit : Char → Bool) : List Char → Option (List Char)
  | [] => none
  | [c] => if isDigit c then some [c] else none
  | c :: '_' :: cs => if isDigit c then (plainDigits isDigit cs).map (c :: ·) else none
  | c :: cs => if isDigit c then (plainDigits isDigit cs).map (c :: ·) else none

/-- Decimal digits that have no zero in front of others. -/
def decimalDigits (cs : List Char) : Option (List Char) := do
  let ds ← plainDigits Char.isDigit cs
  if ds.head? = some '0' ∧ 1 < ds.length then none else some ds

/-- Digits of a base that is a power of two. -/
def basedInt (base : Nat) (cs : List Char) : Option Int := do
  let ds ← plainDigits (fun c => (Text.basedNumber? base [c]).isSome) cs
  let n ← Text.basedNumber? base ds
  if n < 0x8000000000000000 then some n else none

/-- An integer. -/
def int? : List Char → Option Int
  | '0' :: 'x' :: ds => basedInt 16 ds
  | '0' :: 'o' :: ds => basedInt 8 ds
  | '0' :: 'b' :: ds => basedInt 2 ds
  | cs => do
    let (negative, ds) := splitSign cs
    let ds ← decimalDigits ds
    let n : Int := Decimal.ofDigits ds
    let n := if negative then -n else n
    if -0x8000000000000000 ≤ n ∧ n < 0x8000000000000000 then some n else none

/-- The exponent of a float, zero if there is none. -/
def exponent? : List Char → Option Int
  | [] => some 0
  | c :: cs =>
    if c = 'e' ∨ c = 'E' then do
      let (negative, ds) := splitSign cs
      let n : Int := Decimal.ofDigits (← plainDigits Char.isDigit ds)
      some (if negative then -n else n)
    else none

def fraction? : List Char → Option (List Char)
  | [] => some []
  | '.' :: ds => plainDigits Char.isDigit ds
  | _ => none

/--
A float: a point, an exponent or both stand behind the digits. One that is too large
is refused.
-/
def float? (cs : List Char) : Option Float := do
  let (negative, size) := splitSign cs
  let x : Float ←
    if size = "inf".toList then some (Float.ofBits 0x7FF0000000000000)
    else if size = "nan".toList then some (Float.ofBits 0x7FF8000000000000)
    else do
      let (whole, rest) := size.span fun c => c.isDigit || c = '_'
      let (point, power) := rest.span fun c => c.isDigit || c = '_' || c = '.'
      if point = [] ∧ power = [] then none
      let whole ← decimalDigits whole
      let fraction ← fraction? point
      let e ← exponent? power
      let x := Decimal.toFloat ⟨Decimal.ofDigits (whole ++ fraction), e - fraction.length⟩
      if x.isInf ∧ negative = false then none else some x
  return if negative then -x else x

/-! ## Dates and times -/

/-- So many digits at the start of a text, as a number. -/
def fixed (width : Nat) (cs : List Char) : Option (Nat × List Char) :=
  let ds := cs.take width
  if ds.length = width ∧ ds.all Char.isDigit then some (Decimal.ofDigits ds, cs.drop width)
  else none

def mark (c : Char) : List Char → Option (List Char)
  | d :: cs => if d = c then some cs else none
  | [] => none

def daysIn (year month : Nat) : Nat :=
  if month = 2 then
    if year % 4 = 0 ∧ (year % 100 ≠ 0 ∨ year % 400 = 0) then 29 else 28
  else if month ∈ [4, 6, 9, 11] then 30
  else 31

/-- A date. -/
def date (cs : List Char) : Option (List Char × List Char) := do
  let (year, r) ← fixed 4 cs
  let r ← mark '-' r
  let (month, r) ← fixed 2 r
  let r ← mark '-' r
  let (day, r) ← fixed 2 r
  if 1 ≤ month ∧ month ≤ 12 ∧ 1 ≤ day ∧ day ≤ daysIn year month then some (cs.take 10, r)
  else none

/-- The digits of a second's fraction, nine of them at most and without zeros at the end. -/
def secondFraction (cs : List Char) : Option (List Char × List Char) :=
  match cs with
  | '.' :: r =>
    let (ds, r) := r.span Char.isDigit
    if ds = [] then none
    else
      let ds := ((ds.take 9).reverse.dropWhile (· = '0')).reverse
      some (if ds = [] then [] else '.' :: ds, r)
  | r => some ([], r)

/-- A time of day. -/
def time (cs : List Char) : Option (List Char × List Char) := do
  let (hour, r) ← fixed 2 cs
  let r ← mark ':' r
  let (minute, r) ← fixed 2 r
  let r ← mark ':' r
  let (second, r) ← fixed 2 r
  let (fraction, r) ← secondFraction r
  if hour ≤ 23 ∧ minute ≤ 59 ∧ second ≤ 60 then some (cs.take 8 ++ fraction, r) else none

/-- The zone behind a time, if there is one. No difference is written with a plus sign. -/
def zone? : List Char → Option (List Char)
  | [] => some []
  | ['Z'] => some ['Z']
  | ['z'] => some ['Z']
  | c :: cs =>
    if c = '+' ∨ c = '-' then do
      let (hour, r) ← fixed 2 cs
      let r ← mark ':' r
      let (minute, r) ← fixed 2 r
      if hour ≤ 23 ∧ minute ≤ 59 ∧ r = [] then
        some ((if hour = 0 ∧ minute = 0 then '+' else c) :: cs)
      else none
    else none

/-- A date, a time, or both with or without a zone. -/
def moment? (cs : List Char) : Option String := do
  match date cs with
  | none =>
    let (t, r) ← time cs
    if r = [] then some (String.ofList t) else none
  | some (d, []) => some (String.ofList d)
  | some (d, c :: r) =>
    if c = 'T' ∨ c = 't' ∨ c = ' ' then
      let (t, r) ← time r
      some (String.ofList (d ++ 'T' :: t ++ (← zone? r)))
    else none

/-! ## Words -/

/-- The characters that a word ends before. -/
def endsWord (c : Char) : Bool :=
  isBlank c || c = '\n' || c = '\r' || c = ',' || c = ']' || c = '}' || c = '#'

/-- A word; a blank between a date and a time is part of it. -/
def word (cs : List Char) : List Char × List Char :=
  let (w, r) := cs.span fun c => !endsWord c
  match r with
  | ' ' :: a :: b :: ':' :: r' =>
    if (date w).isSome ∧ a.isDigit ∧ b.isDigit then
      let (t, rest) := r'.span fun c => !endsWord c
      (w ++ ' ' :: a :: b :: ':' :: t, rest)
    else (w, r)
  | r => (w, r)

/-- The value of a word. -/
def scalar? (w : List Char) : Option Value :=
  if w = "true".toList then some (.bool true)
  else if w = "false".toList then some (.bool false)
  else
    match int? w with
    | some n => some (.int n)
    | none =>
      match float? w with
      | some x => some (.float x)
      | none => (moment? w).map .text

end BenchHistory.Settings.Toml
