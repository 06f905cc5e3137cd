import BenchHistory.Settings.Value
import BenchHistory.Settings.Yaml.Source
import BenchHistory.Text.Hex

/-!
# Scalars in YAML

A scalar is written plainly, between quotes, or as a block of lines. A plain one
stands for what its text looks like, unless a tag says otherwise; all others are texts.
-/

namespace BenchHistory.Settings.Yaml

/-! ## What a scalar stands for -/

/-- A scalar. The text of a real number is kept. -/
inductive Scalar where
  | null
  | bool (b : Bool)
  | int (n : Int)
  | real (text : String)
  | text (s : String)
deriving DecidableEq, Repr

/-- A tag: one of the common ones, by its name, or any other. -/
inductive Tag where
  | common (name : String)
  | other
deriving DecidableEq, Repr

/-- Whether a text is a real number. -/
def isReal (cs : List Char) : Bool :=
  [".inf", ".Inf", ".INF", "+.inf", "+.Inf", "+.INF", "-.inf", "-.Inf", "-.INF", ".nan", ".NaN",
    ".NAN"].contains (String.ofList cs) ||
    (cs.any Char.isDigit && (float? cs).isSome)

/-- An integer of 64 bits in digits of a base, with a sign or without. -/
def based? (base : Nat) (cs : List Char) : Option Int := do
  let (negative, ds) := splitSign cs
  if ds = [] then none
  let n : Int ← Text.basedNumber? base ds
  let n := if negative then -n else n
  if -0x8000000000000000 ≤ n ∧ n < 0x8000000000000000 then some n else none

def int? : List Char → Option Int
  | '0' :: 'x' :: ds => based? 16 ds
  | '0' :: 'o' :: ds => based? 8 ds
  | '+' :: cs => int64? cs
  | cs => int64? cs

/-- What a plain scalar without a tag looks like. -/
def Scalar.ofPlain (cs : List Char) : Scalar :=
  let s := String.ofList cs
  match int? cs with
  | some n => .int n
  | none =>
    if s = "" ∨ s = "~" ∨ s = "null" then .null
    else if s = "true" then .bool true
    else if s = "false" then .bool false
    else if isReal cs then .real s
    else .text s

/-- What a plain scalar with a tag stands for; it is null if it does not look like that. -/
def Scalar.ofTagged (tag : Tag) (cs : List Char) : Scalar :=
  let s := String.ofList cs
  match tag with
  | .common "bool" => if s = "true" then .bool true else if s = "false" then .bool false else .null
  | .common "int" => (int64? cs).elim .null .int
  | .common "float" => if isReal cs then .real s else .null
  | .common "null" => .null
  | _ => .text s

/-- The setting that a scalar is; some real numbers are none. -/
def Scalar.toValue? : Scalar → Option Value
  | .null => some .null
  | .bool b => some (.bool b)
  | .int n => some (.int n)
  | .real s => (float? s.toList).map .float
  | .text s => some (.text s)

/-- The key that a scalar is. -/
def Scalar.key? : Scalar → Option String
  | .null => none
  | .bool b => some (if b then "true" else "false")
  | .int n => some (toString n)
  | .real s => some s
  | .text s => some s

/-! ## Plain text -/

/-- Whether a plain scalar can start here. -/
def startsPlain (flow : Bool) : List Char → Bool
  | [] => false
  | '-' :: r => !startsGap r && !(flow && r.head?.any isFlowMark)
  | '?' :: r => !startsGap r
  | ':' :: r => !startsGap r
  | c :: _ =>
    !(isBlank c || c = '\n' || isFlowMark c || c = '#' || c = '&' || c = '*' || c = '!' ||
      (!flow && (c = '|' || c = '>')) || c = '\'' || c = '"' || c = '%' || c = '@' || c = '\u0060')

/-- The plain text on a line, blanks behind it too; `gap` tells of a blank before it. -/
def plainLine (flow gap : Bool) : List Char → List Char
  | [] => []
  | c :: cs =>
    if c = '\n' ∨ (c = '#' ∧ gap) ∨ (flow ∧ isFlowMark c) ∨
        (c = ':' ∧ (startsGap cs ∨ (flow ∧ cs.head?.any isFlowMark))) then []
    else c :: plainLine flow (isBlank c) cs

def trimEnd (cs : List Char) : List Char :=
  (cs.reverse.dropWhile isBlank).reverse

/-- The plain text on a line, and the place behind it. -/
def plainPiece (flow : Bool) (s : Source) : List Char × Source :=
  let w := trimEnd (plainLine flow false s.rest)
  (w, s.skip w.length)

/-- The lines on which a plain scalar goes on; in a block they are indented more than it. -/
def plainMore (flow : Bool) (indent : Int) : Nat → Source → Option (List Char × Source)
  | 0, _ => none
  | fuel + 1, s => do
    let (n, t) ← s.breaks indent
    let (w, r) := plainPiece flow t
    if n = 0 ∨ t.atEnd ∨ t.rest.head? = some '#' ∨ (!flow ∧ (t.column : Int) ≤ indent) ∨
        w = [] then some ([], s)
    else
      let (more, r) ← plainMore flow indent fuel r
      some (folded n ++ w ++ more, r)

def plain (flow : Bool) (indent : Int) (s : Source) : Option (List Char × Source) :=
  if startsPlain flow s.rest then do
    let (w, r) := plainPiece flow s
    let (more, r) ← plainMore flow indent (r.rest.length + 1) r
    some (w ++ more, r)
  else none

/-! ## Quoted text -/

/-- The character that an escape of one character stands for. -/
def escaped? (c : Char) : Option Char :=
  if c = '0' then some '\x00'
  else if c = 'a' then some '\x07'
  else if c = 'b' then some '\x08'
  else if c = 't' ∨ c = '\t' then some '\t'
  else if c = 'n' then some '\n'
  else if c = 'v' then some '\x0B'
  else if c = 'f' then some '\x0C'
  else if c = 'r' then some '\r'
  else if c = 'e' then some '\x1B'
  else if c = ' ' ∨ c = '"' ∨ c = '/' ∨ c = '\\' then some c
  else if c = 'N' then some '\u0085'
  else if c = '_' then some '\u00A0'
  else if c = 'L' then some '\u2028'
  else if c = 'P' then some '\u2029'
  else none

/-- The digits of the code that follows a letter. -/
def codeLength? (c : Char) : Option Nat :=
  if c = 'x' then some 2 else if c = 'u' then some 4 else if c = 'U' then some 8 else none

/-- What an escape stands for, and its length without the backslash. -/
def escape? (cs : List Char) : Option (Char × Nat) :=
  match cs with
  | [] => none
  | c :: r =>
    match codeLength? c with
    | some n =>
      if n ≤ r.length then (Text.ofHex? (r.take n)).map fun e => (e, n + 1) else none
    | none => (escaped? c).map fun e => (e, 1)

/-- Whether text may go on here on another line of a scalar between quotes. -/
def mayGoOn (indent : Int) (s : Source) : Bool :=
  !s.atEnd && decide (indent < s.column)

/--
Text between quotes up to the end quote; `blanks` have been read but count only if the
line goes on.
-/
def quotedText (single : Bool) (indent : Int) : Nat → List Char → Source →
    Option (List Char × Source)
  | 0, _, _ => none
  | fuel + 1, blanks, s =>
    let more (w : List Char) (s : Source) : Option (List Char × Source) :=
      (quotedText single indent fuel [] s).map fun p => (blanks ++ w ++ p.1, p.2)
    match s.rest with
    | [] => none
    | '\n' :: _ => do
      let (n, t) ← s.breaks indent
      if mayGoOn indent t then
        let (w, r) ← quotedText single indent fuel [] t
        some (folded n ++ w, r)
      else none
    | c :: r =>
      if isBlank c then quotedText single indent fuel (blanks ++ [c]) (s.skip 1)
      else if single then
        if c = '\'' then
          if r.head? = some '\'' then more ['\''] (s.skip 2) else some (blanks, s.skip 1)
        else more [c] (s.skip 1)
      else if c = '"' then some (blanks, s.skip 1)
      else if c = '\\' then
        if r.head? = some '\n' then do
          let (n, t) ← (s.skip 1).breaks indent
          if mayGoOn indent t then more (List.replicate (n - 1) '\n') t else none
        else do
          let (e, n) ← escape? r
          more [e] (s.skip (n + 1))
      else more [c] (s.skip 1)

def quoted (indent : Int) (s : Source) : Option (List Char × Source) :=
  match s.rest with
  | '\'' :: r => quotedText true indent (r.length + 1) [] (s.skip 1)
  | '"' :: r => quotedText false indent (r.length + 1) [] (s.skip 1)
  | _ => none

end BenchHistory.Settings.Yaml
