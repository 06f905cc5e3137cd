import BenchHistory.Decimal.Basic
import BenchHistory.Json.Draft
import BenchHistory.Text.Hex

/-!
# Reading JSON

Tokens are read off the front of a text and give back the rest of it. A number
has to be in the range of floats, a string must not hold half a surrogate pair,
and containers may be nested 127 deep; where a text breaks one of these rules the
draft has a gap that can be skipped, and reading goes on behind it.

A decimal is assumed to be read as the float nearest to it, of two the one with
the even significand (`Numeral.number?`, `Decimal.toFloat`). The grammar does not
ask for this, and a faster reader may be off in the last place. That a printed
float is read back as itself, and so every round trip of a text with floats, rests
on this assumption.
-/

namespace BenchHistory.Json

def isSpace (c : Char) : Bool :=
  c = ' ' || c = '\n' || c = '\t' || c = '\r'

/-- The text behind the blanks at its start. -/
def skipSpace (cs : List Char) : List Char :=
  cs.dropWhile isSpace

def afterWord : List Char → List Char → Except Fault (List Char)
  | [], cs => .ok cs
  | _ :: _, [] => .error .cutOff
  | w :: ws, c :: cs => if w = c then afterWord ws cs else .error .malformed

/-! ## Numbers -/

/-- The parts of a written number. -/
structure Numeral where
  negative : Bool
  whole : List Char
  fraction : List Char
  power : Option Int

/-- The gap where digits are missing. Skipping does not tell the end of the text apart there. -/
def digitsMissing (rest : List Char) : Gap :=
  .token (if rest.isEmpty then .cutOff else .malformed) (some .malformed)

/-- At least one digit. -/
def someDigits (cs : List Char) : Except Gap (List Char × List Char) :=
  let (ds, r) := cs.span Char.isDigit
  if ds.isEmpty then .error (digitsMissing r) else .ok (ds, r)

/-- The digits behind a point, none without a point. -/
def fractionPart : List Char → Except Gap (List Char × List Char)
  | '.' :: r => someDigits r
  | cs => .ok ([], cs)

/-- The sign in front of an exponent, and what follows it. -/
def powerSign : List Char → Bool × List Char
  | '-' :: r => (true, r)
  | '+' :: r => (false, r)
  | cs => (false, cs)

/-- The exponent, if there is one. -/
def powerPart (cs : List Char) : Except Gap (Option Int × List Char) :=
  match cs with
  | c :: r =>
    if c = 'e' || c = 'E' then do
      let (negative, r) := powerSign r
      let (ds, r) ← someDigits r
      let n : Int := Decimal.ofDigits ds
      return (some (if negative then -n else n), r)
    else .ok (none, cs)
  | [] => .ok (none, cs)

/-- A number, its sign already taken off; a zero in front of other digits is refused. -/
def unsigned (negative : Bool) (cs : List Char) : Except Gap (Numeral × List Char) := do
  let (ds, r) ← someDigits cs
  if ds.head? = some '0' && 1 < ds.length then
    throw (.token .malformed (some .malformed))
  let (fraction, r) ← fractionPart r
  let (power, r) ← powerPart r
  return (⟨negative, ds, fraction, power⟩, r)

def numeral : List Char → Except Gap (Numeral × List Char)
  | '-' :: r => unsigned true r
  | cs => unsigned false cs

/--
The number written, if it is in range. Digits alone give an integer while 64 bits
hold it; minus zero is a float. Any other number is taken as the nearest float.
-/
def Numeral.number? (n : Numeral) : Option Number :=
  let size := Decimal.ofDigits n.whole
  if n.fraction.isEmpty && n.power.isNone && !n.negative && size < 0x10000000000000000 then
    some (.whole size)
  else if n.fraction.isEmpty && n.power.isNone && n.negative && 0 < size &&
      size ≤ 0x8000000000000000 then
    some (.whole (-(size : Int)))
  else
    let x := Decimal.toFloat
      ⟨Decimal.ofDigits (n.whole ++ n.fraction), n.power.getD 0 - n.fraction.length⟩
    if x.isFinite then some (.real (if n.negative then -x else x)) else none

/-! ## Strings -/

def hex4 (a b c d : Char) : Option Nat :=
  Text.hexNumber? [a, b, c, d]

/-- The fault of a code that has no four characters: the end counts in bytes. -/
def shortCode (cs : List Char) : Fault :=
  if (String.ofList cs).utf8ByteSize < 4 then .cutOff else .malformed

/-- The character that a one-letter escape stands for. -/
def escaped? (c : Char) : Option Char :=
  if c = '"' then some '"'
  else if c = '\\' then some '\\'
  else if c = '/' then some '/'
  else if c = 'b' then some '\x08'
  else if c = 'f' then some '\x0C'
  else if c = 'n' then some '\n'
  else if c = 'r' then some '\r'
  else if c = 't' then some '\t'
  else none

/-- The fault of a high surrogate that no low one follows. -/
def loneSurrogate : List Char → Fault
  | [] => .cutOff
  | ['\\'] => .cutOff
  | '\\' :: 'u' :: cs => if cs.length < 4 then shortCode cs else .malformed
  | _ => .malformed

/-- Puts a character in front of what was read. -/
def consChar (c : Char) (r : Except Fault (List Char × List Char)) :
    Except Fault (List Char × List Char) :=
  r.map fun p => (c :: p.1, p.2)

/-- The characters of a string up to its closing quote, and what follows it. -/
def readString : List Char → Except Fault (List Char × List Char)
  | [] => .error .cutOff
  | '"' :: r => .ok ([], r)
  | '\\' :: 'u' :: a :: b :: c :: d :: r =>
    match hex4 a b c d with
    | none => .error .malformed
    | some n =>
      if 0xDC00 ≤ n ∧ n ≤ 0xDFFF then .error .malformed
      else if 0xD800 ≤ n ∧ n ≤ 0xDBFF then
        match r with
        | '\\' :: 'u' :: e :: f :: g :: h :: r' =>
          match hex4 e f g h with
          | none => .error .malformed
          | some m =>
            if 0xDC00 ≤ m ∧ m ≤ 0xDFFF then
              consChar (Char.ofNat (0x10000 + (n - 0xD800) * 0x400 + (m - 0xDC00))) (readString r')
            else .error .malformed
        | r => .error (loneSurrogate r)
      else consChar (Char.ofNat n) (readString r)
  | '\\' :: 'u' :: r => .error (shortCode r)
  | '\\' :: c :: r =>
    match escaped? c with
    | some e => consChar e (readString r)
    | none => .error .malformed
  | ['\\'] => .error .cutOff
  | c :: r => if c.toNat < 0x20 then .error .malformed else consChar c (readString r)

/-- What follows the closing quote of a string whose characters do not matter. -/
def skipString : List Char → Except Fault (List Char)
  | [] => .error .cutOff
  | '"' :: r => .ok r
  | '\\' :: 'u' :: a :: b :: c :: d :: r =>
    if (hex4 a b c d).isSome then skipString r else .error .malformed
  | '\\' :: 'u' :: r => .error (shortCode r)
  | '\\' :: c :: r => if (escaped? c).isSome then skipString r else .error .malformed
  | ['\\'] => .error .cutOff
  | c :: r => if c.toNat < 0x20 then .error .malformed else skipString r

/-! ## Values -/

/-- What could be read, and the text behind it unless the text stops there. -/
abbrev Step (α : Type) := α × Option (List Char)

/-- A token at which a text stops. -/
def halt (f : Fault) : Step Draft :=
  (.gap (.token f (some f)), none)

def wordValue (v : Draft) (word cs : List Char) : Step Draft :=
  match afterWord word cs with
  | .ok r => (v, some r)
  | .error f => halt f

/-- A string, its opening quote taken off. -/
def stringValue (cs : List Char) : Step Draft :=
  match readString cs with
  | .ok (s, r) => (.string (String.ofList s), some r)
  | .error f =>
    match skipString cs with
    | .ok r => (.gap (.string f none), some r)
    | .error g => (.gap (.string f (some g)), none)

/-- A number. -/
def numberValue (cs : List Char) : Step Draft :=
  match numeral cs with
  | .error g => (.gap g, none)
  | .ok (n, r) =>
    match n.number? with
    | some n => (.number n, some r)
    | none => (.gap (.token .malformed none), some r)

/-- A container, which is a gap if no more nesting is allowed. -/
def nested (depth : Nat) (v : Draft) (rest : Option (List Char)) : Step Draft :=
  if depth = 0 then (.gap (.token .malformed v.skipFault), rest) else (v, rest)

/-- What is left of a container that goes on with neither a comma nor its end. -/
def unclosed : List Char → Draft
  | [] => .gap (.unclosed .cutOff)
  | _ => .gap (.unclosed .malformed)

/-- A member whose name is a string that cannot be read. -/
def unnamed (read : Fault) (skip : Option Fault) : String × Draft :=
  ("", .gap (.name read skip (.error read)))

/-- A member without a string for its name, given what stands there instead. -/
def misnamed (d : Draft) : String × Draft :=
  ("", .gap (.name .malformed (some .malformed) d.found))

mutual

/-- A value; `depth` more containers may be nested, and `fuel` bounds the calls. -/
def value : Nat → Nat → List Char → Step Draft
  | 0, _, _ => halt .malformed
  | fuel + 1, depth, cs =>
    match skipSpace cs with
    | [] => (.gap .ended, none)
    | '"' :: r => stringValue r
    | '[' :: r =>
      match skipSpace r with
      | ']' :: r => nested depth (.array []) (some r)
      | _ =>
        let (xs, rest) := items fuel (depth - 1) r
        nested depth (.array xs) rest
    | '{' :: r =>
      match skipSpace r with
      | '}' :: r => nested depth (.object []) (some r)
      | _ =>
        let (ms, rest) := members fuel (depth - 1) r
        nested depth (.object ms) rest
    | 'n' :: r => wordValue .null "ull".toList r
    | 't' :: r => wordValue (.bool true) "rue".toList r
    | 'f' :: r => wordValue (.bool false) "alse".toList r
    | c :: r => if c = '-' || c.isDigit then numberValue (c :: r) else halt .malformed
termination_by structural fuel => fuel

/-- The items from one on to the closing bracket. -/
def items : Nat → Nat → List Char → Step (List Draft)
  | 0, _, _ => ([(halt .malformed).1], none)
  | fuel + 1, depth, cs =>
    let (x, rest) := value fuel depth cs
    match rest with
    | none => ([x], none)
    | some r =>
      match skipSpace r with
      | ']' :: r => ([x], some r)
      | ',' :: r =>
        let (xs, rest) := items fuel depth r
        (x :: xs, rest)
      | r => ([x, unclosed r], none)
termination_by structural fuel => fuel

/-- The members from one on to the closing brace. -/
def members : Nat → Nat → List Char → Step (List (String × Draft))
  | 0, _, _ => ([unnamed .malformed (some .malformed)], none)
  | fuel + 1, depth, cs =>
    match skipSpace cs with
    | [] => ([unnamed .cutOff (some .cutOff)], none)
    | '"' :: r =>
      match readString r with
      | .ok (k, r) => member fuel depth (String.ofList k) r
      | .error f =>
        match skipString r with
        | .error g => ([unnamed f (some g)], none)
        | .ok r =>
          let (ms, rest) := member fuel depth "" r
          (unnamed f none :: ms, rest)
    | r => ([misnamed (value fuel depth r).1], none)
termination_by structural fuel => fuel

/-- The members from one on whose name has been read. -/
def member : Nat → Nat → String → List Char → Step (List (String × Draft))
  | 0, _, k, _ => ([(k, (halt .malformed).1)], none)
  | fuel + 1, depth, k, cs =>
    match skipSpace cs with
    | [] => ([(k, .gap .ended)], none)
    | ':' :: r =>
      let (v, rest) := value fuel depth r
      match rest with
      | none => ([(k, v)], none)
      | some r =>
        match skipSpace r with
        | '}' :: r => ([(k, v)], some r)
        | ',' :: r =>
          let (ms, rest) := members fuel depth r
          ((k, v) :: ms, rest)
        | r => ([(k, v), ("", unclosed r)], none)
    | _ => ([(k, (halt .malformed).1)], none)
termination_by structural fuel => fuel

end

/-- The containers that may be nested. -/
def maxDepth : Nat := 127

/-- The draft of a text, and what follows the value in it. Proofs open it where they mean to. -/
@[irreducible] def draft (cs : List Char) : Step Draft :=
  value (2 * cs.length + 2) maxDepth cs

end BenchHistory.Json
