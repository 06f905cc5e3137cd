import BenchHistory.Keyed
import BenchHistory.Settings.Value
import BenchHistory.Text.Hex
import BenchHistory.Text.Letter

/-!
# Reading JSON5

JSON with comments, bare names, single quotes, more numbers and a comma behind the
last item. What is read off the front of a text comes with the text behind it, and
nothing comes of a text that is wrong.
-/

namespace BenchHistory.Settings.Json5

/-! ## Between tokens -/

def isLineEnd (c : Char) : Bool :=
  c = '\n' || c = '\r' || c = '\u2028' || c = '\u2029'

def isSpace (c : Char) : Bool :=
  let n := c.toNat
  isLineEnd c || c = '\t' || n = 0x0B || n = 0x0C || c = ' ' || n = 0xA0 || n = 0xFEFF ||
    n = 0x1680 || (0x2000 ≤ n && n ≤ 0x200A) || n = 0x202F || n = 0x205F || n = 0x3000

/-- What is being passed over: blanks, or a comment of one of two kinds. -/
inductive Filler where
  | blank
  | line
  | block
deriving DecidableEq

/-- A text without blanks and comments at its start. -/
def skip : Filler → List Char → Option (List Char)
  | .block, [] => none
  | _, [] => some []
  | .block, '*' :: '/' :: cs => skip .blank cs
  | .block, _ :: cs => skip .block cs
  | .line, c :: cs => if isLineEnd c then skip .blank cs else skip .line cs
  | .blank, '/' :: '/' :: cs => skip .line cs
  | .blank, '/' :: '*' :: cs => skip .block cs
  | .blank, c :: cs => if isSpace c then skip .blank cs else some (c :: cs)

/-! ## Numbers -/

/-- A sign, perhaps of length zero. -/
def sign : List Char → List Char × List Char
  | '+' :: cs => (['+'], cs)
  | '-' :: cs => (['-'], cs)
  | cs => ([], cs)

/-- The exponent of a number, of length zero if there is none. -/
def exponent (cs : List Char) : List Char × List Char :=
  match cs with
  | c :: r =>
    let (s, r) := sign r
    let (ds, r) := r.span Char.isDigit
    if (c = 'e' ∨ c = 'E') ∧ ds ≠ [] then (c :: s ++ ds, r) else ([], cs)
  | [] => ([], [])

/-- The digits of a decimal number, its point among them; a zero stands alone before the point. -/
def mantissa (cs : List Char) : Option (List Char × List Char) :=
  let (whole, r) := match cs with
    | '0' :: r => (['0'], r)
    | cs => cs.span Char.isDigit
  match r with
  | '.' :: r =>
    let (fraction, r) := r.span Char.isDigit
    if whole = [] ∧ fraction = [] then none else some (whole ++ '.' :: fraction, r)
  | r => if whole = [] then none else some (whole, r)

/-- A decimal number. It is an integer of 64 bits unless it has a point or an exponent. -/
def decimal (s cs : List Char) : Option (Value × List Char) := do
  let (m, r) ← mantissa cs
  let (e, r) := exponent r
  let text := s ++ m ++ e
  if '.' ∈ m ∨ e ≠ [] then
    let x ← float? text
    if x.isFinite then some (.float x, r) else none
  else
    let n ← int64? text
    some (.int n, r)

/-- Whether the letter of a hexadecimal number stands at the front, with a digit behind it. -/
def startsHex : List Char → Bool
  | x :: d :: _ => (x = 'x' || x = 'X') && (Text.hexDigit? d).isSome
  | _ => false

/-- A number; a hexadecimal one has 32 bits and no sign. -/
def number (cs : List Char) : Option (Value × List Char) :=
  let (s, r) := sign cs
  match r with
  | 'I' :: 'n' :: 'f' :: 'i' :: 'n' :: 'i' :: 't' :: 'y' :: r =>
    let x := Float.ofBits 0x7FF0000000000000
    if s = ['+'] then none else some (.float (if s = [] then x else -x), r)
  | 'N' :: 'a' :: 'N' :: r =>
    if s = ['+'] then none else some (.float (Float.ofBits 0x7FF8000000000000), r)
  | '0' :: r' =>
    if startsHex r' then do
      let (ds, r) := (r'.drop 1).span fun c => (Text.hexDigit? c).isSome
      let n ← Text.hexNumber? ds
      if s = [] ∧ n < 0x100000000 then some (.int n, r) else none
    else decimal s r
  | r => decimal s r

/-! ## Strings -/

def before (c : Char) (r : Option (List Char × List Char)) : Option (List Char × List Char) :=
  r.map fun p => (c :: p.1, p.2)

/-- The character that an escape of one character stands for; digits stand for none but zero. -/
def escaped? (c : Char) : Option Char :=
  if c = 'b' then some '\x08'
  else if c = 'f' then some '\x0C'
  else if c = 'n' then some '\n'
  else if c = 'r' then some '\r'
  else if c = 't' then some '\t'
  else if c = 'v' then some '\x0B'
  else if c = '0' then some '\x00'
  else if c = 'x' ∨ c = 'u' ∨ c.isDigit ∨ isLineEnd c then none
  else some c

/-- The character that two halves of a pair stand for. -/
def paired? (high low : Nat) : Option Char :=
  if 0xD800 ≤ high ∧ high ≤ 0xDBFF ∧ 0xDC00 ≤ low ∧ low ≤ 0xDFFF then
    some (Char.ofNat (0x10000 + (high - 0xD800) * 0x400 + (low - 0xDC00)))
  else none

/-- The rest of a string up to its quote. -/
def string (quote : Char) : List Char → Option (String × List Char) :=
  fun cs => (go cs).map fun p => (String.ofList p.1, p.2)
where
  /-- The characters of the string. -/
  go : List Char → Option (List Char × List Char)
    | [] => none
    | '\\' :: '\r' :: '\n' :: r => go r
    | '\\' :: 'x' :: a :: b :: r => do before (← Text.ofHex? [a, b]) (go r)
    | '\\' :: 'u' :: a :: b :: c :: d :: r => do
      let n ← Text.hexNumber? [a, b, c, d]
      match Text.ofCode? n with
      | some u => before u (go r)
      | none =>
        match r with
        | '\\' :: 'u' :: e :: f :: g :: h :: r => do
          before (← paired? n (← Text.hexNumber? [e, f, g, h])) (go r)
        | _ => none
    | '\\' :: c :: r =>
      match escaped? c with
      | some e => before e (go r)
      | none => if isLineEnd c then go r else none
    | c :: r =>
      if c = quote then some ([], r)
      else if c = '\\' ∨ isLineEnd c then none
      else before c (go r)

/-! ## Names -/

def startsName (c : Char) : Bool :=
  Text.isLetter c || c = '$' || c = '_'

def continuesName (c : Char) : Bool :=
  startsName c || Text.isWithinName c || c = '\u200C' || c = '\u200D'

/-- The characters of a bare name; any of them may be written by its code. -/
def bareName : List Char → Option (List Char × List Char)
  | '\\' :: 'u' :: a :: b :: c :: d :: r => do before (← Text.ofHex? [a, b, c, d]) (bareName r)
  | [] => some ([], [])
  | c :: r => if continuesName c then before c (bareName r) else some ([], c :: r)

/-- The name of a member. -/
def name : List Char → Option (String × List Char)
  | '"' :: r => string '"' r
  | '\'' :: r => string '\'' r
  | c :: r =>
    if startsName c ∨ c = '\\' then do
      let (w, r) ← bareName (c :: r)
      if w = [] then none else some (String.ofList w, r)
    else none
  | [] => none

/-! ## Values -/

def afterWord? (w cs : List Char) : Option (List Char) :=
  if w.isPrefixOf cs then some (cs.drop w.length) else none

def word (cs : List Char) : Option (Value × List Char) :=
  match afterWord? "null".toList cs, afterWord? "true".toList cs, afterWord? "false".toList cs with
  | some r, _, _ => some (.null, r)
  | _, some r, _ => some (.bool true, r)
  | _, _, some r => some (.bool false, r)
  | _, _, _ => none

mutual

/-- A value, no blanks in front of it. -/
def value : Nat → List Char → Option (Value × List Char)
  | 0, _ => none
  | fuel + 1, cs =>
    match cs with
    | '"' :: r => (string '"' r).map fun p => (.text p.1, p.2)
    | '\'' :: r => (string '\'' r).map fun p => (.text p.1, p.2)
    | '[' :: r => do
      let (vs, r) ← items fuel r
      some (.array vs, r)
    | '{' :: r => do
      let (ms, r) ← members fuel r
      some (.table (Keyed.putAll [] ms), r)
    | cs => (word cs).or (number cs)

/-- The items of an array up to its bracket. -/
def items : Nat → List Char → Option (List Value × List Char)
  | 0, _ => none
  | fuel + 1, cs => do
    match ← skip .blank cs with
    | ']' :: r => some ([], r)
    | r => do
      let (v, r) ← value fuel r
      match ← skip .blank r with
      | ']' :: r => some ([v], r)
      | ',' :: r => do
        let (vs, r) ← items fuel r
        some (v :: vs, r)
      | _ => none

/-- The members of an object up to its brace. -/
def members : Nat → List Char → Option (List (String × Value) × List Char)
  | 0, _ => none
  | fuel + 1, cs => do
    match ← skip .blank cs with
    | '}' :: r => some ([], r)
    | r => do
      let (k, r) ← name r
      match ← skip .blank r with
      | ':' :: r => do
        let (v, r) ← value fuel (← skip .blank r)
        match ← skip .blank r with
        | '}' :: r => some ([(k, v)], r)
        | ',' :: r => do
          let (ms, r) ← members fuel r
          some ((k, v) :: ms, r)
        | _ => none
      | _ => none

end

def parse? (text : String) : Option Value := do
  let cs := text.toList
  let (v, r) ← value (cs.length + 1) (← skip .blank cs)
  match ← skip .blank r with
  | [] => some v
  | _ => none

end BenchHistory.Settings.Json5
