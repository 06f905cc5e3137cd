import BenchHistory.Decimal.Shortest
import BenchHistory.Json.Basic

/-!
# Writing JSON

A value has two forms that differ in their blanks only: none at all, or one item or
member a line, two blanks deeper than what holds it. Text is escaped only where it has to be.
A float is written with its shortest digits, positionally while its leading digit
stands between the fifth place after the point and the sixteenth before it, else
with a signed exponent; a value that is not finite is written as `null`.
-/

namespace BenchHistory.Json

/-- One character of a JSON string. -/
def escapeChar (c : Char) : List Char :=
  if c = '"' then ['\\', '"']
  else if c = '\\' then ['\\', '\\']
  else if c = '\x08' then ['\\', 'b']
  else if c = '\x0C' then ['\\', 'f']
  else if c = '\n' then ['\\', 'n']
  else if c = '\r' then ['\\', 'r']
  else if c = '\t' then ['\\', 't']
  else if c.toNat < 0x20 then
    ['\\', 'u', '0', '0', Nat.digitChar (c.toNat / 16), Nat.digitChar (c.toNat % 16)]
  else [c]

def stringText (s : String) : List Char :=
  '"' :: (s.toList.flatMap escapeChar ++ ['"'])

/-- A float. -/
def realText (x : Float) : List Char :=
  if x.isFinite then
    let d := Decimal.shortest .toEven x
    let size :=
      if d.digits = 0 ∨ (-5 ≤ d.leading ∧ d.leading ≤ 15) then Decimal.positional true d
      else Decimal.scientific d
    if signed x then '-' :: size else size
  else "null".toList

def intText (n : Int) : List Char :=
  if n < 0 then '-' :: Decimal.digitList n.natAbs else Decimal.digitList n.natAbs

def numberText : Number → List Char
  | .whole n => intText n
  | .real x => realText x

def boolText (b : Bool) : List Char :=
  if b then "true".toList else "false".toList

/-- The blanks of a form: those that start a line at a depth, and those behind a name. -/
structure Layout where
  line : Nat → List Char
  gap : List Char

/-- No blanks. -/
def Layout.compact : Layout :=
  ⟨fun _ => [], []⟩

/-- A line for each item or member, two blanks deeper than what holds it. -/
def Layout.pretty : Layout :=
  ⟨fun depth => '\n' :: List.replicate (2 * depth) ' ', [' ']⟩

mutual

/-- A value that stands at the given depth. -/
def text (l : Layout) (depth : Nat) : Json → List Char
  | .null => "null".toList
  | .bool b => boolText b
  | .number n => numberText n
  | .string s => stringText s
  | .array [] => ['[', ']']
  | .array (x :: xs) =>
    '[' :: l.line (depth + 1) ++ text l (depth + 1) x ++ itemsText l depth xs
  | .object [] => ['{', '}']
  | .object ((k, v) :: ms) =>
    '{' :: l.line (depth + 1) ++ stringText k ++ ':' :: l.gap ++ text l (depth + 1) v ++
      membersText l depth ms

/-- The items after the first, each behind a comma, and the closing bracket. -/
def itemsText (l : Layout) (depth : Nat) : List Json → List Char
  | [] => l.line depth ++ [']']
  | x :: xs => ',' :: l.line (depth + 1) ++ text l (depth + 1) x ++ itemsText l depth xs

/-- The members after the first, each behind a comma, and the closing brace. -/
def membersText (l : Layout) (depth : Nat) : List (String × Json) → List Char
  | [] => l.line depth ++ ['}']
  | (k, v) :: ms =>
    ',' :: l.line (depth + 1) ++ stringText k ++ ':' :: l.gap ++ text l (depth + 1) v ++
      membersText l depth ms

end

def compact (j : Json) : String :=
  String.ofList (text .compact 0 j)

def pretty (j : Json) : String :=
  String.ofList (text .pretty 0 j)

end BenchHistory.Json
