import BenchHistory.Keyed
import BenchHistory.Settings.Value
import BenchHistory.Text.Hex

/-!
# Reading RON

A notation with records in round brackets, lists, maps, options and unit values, each
perhaps behind a name that does not matter. Records and maps with texts for their keys
are tables. What is read off the front of a text comes with the text behind it, and
nothing comes of a text that is wrong.
-/

namespace BenchHistory.Settings.Ron

/-! ## Between tokens -/

def isSpace (c : Char) : Bool :=
  c = ' ' || c = '\n' || c = '\t' || c = '\r'

/--
What is being passed over: blanks, a comment to the end of the line, or so many
comments in each other.
-/
inductive Filler where
  | blank
  | line
  | block (depth : Nat)
deriving DecidableEq

/-- A text without blanks and comments at its start. -/
def skip : Filler → List Char → Option (List Char)
  | .block _, [] => none
  | _, [] => some []
  | .block n, '/' :: '*' :: cs => skip (.block (n + 1)) cs
  | .block n, '*' :: '/' :: cs => skip (if n = 0 then .blank else .block (n - 1)) cs
  | .block n, _ :: cs => skip (.block n) cs
  | .line, c :: cs => if c = '\n' then skip .blank cs else skip .line cs
  | .blank, '/' :: '/' :: cs => skip .line cs
  | .blank, '/' :: '*' :: cs => skip (.block 0) cs
  | .blank, c :: cs =>
    if isSpace c then skip .blank cs else if c = '/' then none else some (c :: cs)

def comma (cs : List Char) : Option (Bool × List Char) := do
  match ← skip .blank cs with
  | ',' :: r => some (true, ← skip .blank r)
  | r => some (false, r)

/-! ## Names -/

def startsName (c : Char) : Bool :=
  c.isAlpha || c = '_'

def continuesName (c : Char) : Bool :=
  c.isAlphanum || c = '_'

/-- A character of names behind a mark that allows more of them. -/
def isRawName (c : Char) : Bool :=
  continuesName c || c = '.' || c = '+' || c = '-'

/-- A name. It must not go on with a character that needs the mark. -/
def name? (cs : List Char) : Option (String × List Char) :=
  match cs with
  | 'r' :: '"' :: _ => none
  | 'r' :: '#' :: r =>
    let (w, r) := r.span isRawName
    if w = [] then none else some (String.ofList w, r)
  | c :: _ =>
    let (w, r) := cs.span continuesName
    if startsName c ∧ (r.head?.all fun d => !isRawName d) then some (String.ofList w, r) else none
  | [] => none

/-- What follows a given word that does not go on. -/
def afterWord? (w cs : List Char) : Option (List Char) :=
  let r := cs.drop w.length
  if w.isPrefixOf cs ∧ (r.head?.all fun c => !continuesName c) then some r else none

/-! ## Numbers -/

/-- The digits of a number of a base, underscores between them. -/
def based? (base : Nat) (cs : List Char) : Option (Nat × List Char) := do
  let (ds, r) := cs.span fun c => (Text.hexDigit? c).isSome || c = '_'
  if ds = [] ∨ ds.head? = some '_' then none
  let n ← Text.basedNumber? base (ds.filter (· ≠ '_'))
  some (n, r)

def natural? : List Char → Option (Nat × List Char)
  | '0' :: 'x' :: r => based? 16 r
  | '0' :: 'b' :: r => based? 2 r
  | '0' :: 'o' :: r => based? 8 r
  | cs => based? 10 cs

/-- An integer: of 64 bits with a sign if one is written, and without a sign otherwise. -/
def integer? (cs : List Char) : Option (Int × List Char) :=
  match cs with
  | '-' :: r => do
    let (n, r) ← natural? r
    if n ≤ 0x8000000000000000 then some (-(n : Int), r) else none
  | '+' :: r => do
    let (n, r) ← natural? r
    if n < 0x8000000000000000 then some (n, r) else none
  | cs => do
    let (n, r) ← natural? cs
    if n < 0x10000000000000000 then some (n, r) else none

/-- A character of a float. -/
def isFloatChar (c : Char) : Bool :=
  c.isDigit || c = 'e' || c = 'E' || c = '.' || c = '+' || c = '-' || c = '_'

def real? (cs : List Char) : Option (Value × List Char) :=
  let (w, r) := cs.span isFloatChar
  (float? w).map fun x => (.float x, r)

/-- Whether a number goes on behind what can be an integer. -/
def isReal (cs : List Char) : Bool :=
  let size := (splitSign cs).2
  (size.takeWhile fun c => (Text.hexDigit? c).isSome || c = '_').length <
    (size.takeWhile isFloatChar).length

/-- A number. What is no integer of 64 bits is a float. -/
def number (cs : List Char) : Option (Value × List Char) :=
  if isReal cs then real? cs
  else
    match integer? cs with
    | some (n, r) => some (if n < 0x8000000000000000 then .int n else .float (Float.ofInt n), r)
    | none => real? cs

/-! ## Strings -/

def before (c : Char) (r : Option (List Char × List Char)) : Option (List Char × List Char) :=
  r.map fun p => (c :: p.1, p.2)

/-- The character that an escape of one character stands for. -/
def escaped? (c : Char) : Option Char :=
  if c = '\'' ∨ c = '"' ∨ c = '\\' then some c
  else if c = 'n' then some '\n'
  else if c = 'r' then some '\r'
  else if c = 't' then some '\t'
  else if c = '0' then some '\x00'
  else none

/-- The character of a code in braces, the opening brace taken off. -/
def braced? (cs : List Char) : Option (Char × List Char) := do
  let (ds, r) := cs.span (· ≠ '}')
  if ds = [] ∨ 6 < ds.length then none
  let c ← Text.ofHex? ds
  some (c, r.drop 1)

/-- What an escape stands for, its backslash taken off. -/
def escape? : List Char → Option (Char × List Char)
  | 'x' :: a :: b :: r => (Text.ofHex? [a, b]).map fun c => (c, r)
  | 'u' :: '{' :: r => if '}' ∈ r then braced? r else none
  | c :: r => (escaped? c).map fun e => (e, r)
  | [] => none

/-- The rest of a string between quotes. -/
def string : Nat → List Char → Option (List Char × List Char)
  | 0, _ => none
  | _, [] => none
  | _, '"' :: r => some ([], r)
  | fuel + 1, '\\' :: r => do
    let (c, r) ← escape? r
    before c (string fuel r)
  | fuel + 1, c :: r => before c (string fuel r)

/-- The rest of a string without escapes, which ends in a given way. -/
def rawString (ending : List Char) : List Char → Option (List Char × List Char)
  | [] => none
  | c :: r =>
    if ending.isPrefixOf (c :: r) then some ([], (c :: r).drop ending.length)
    else before c (rawString ending r)

/-- A string without escapes, the letter in front of it taken off. -/
def raw (cs : List Char) : Option (List Char × List Char) :=
  let (hashes, r) := cs.span (· = '#')
  match r with
  | '"' :: r => rawString ('"' :: hashes) r
  | _ => none

/-- A character between single quotes, the first one taken off. -/
def char : List Char → Option (Char × List Char)
  | '\\' :: r => do
    let (c, r) ← escape? r
    match r with
    | '\'' :: r => some (c, r)
    | _ => none
  | c :: '\'' :: r => if c = '\'' then none else some (c, r)
  | _ => none

/-! ## Values -/

def key? : Value × List Char → Option (String × List Char)
  | (.text s, r) => some (s, r)
  | _ => none

/-- Whether what stands behind an opening bracket is a record: a name and a colon. -/
def startsRecord (cs : List Char) : Option Bool :=
  match name? cs with
  | none => some false
  | some (_, r) => do
    match ← skip .blank r with
    | [] => none
    | c :: _ => some (c = ':')

/-- A word that stands for a value, or the unit value. -/
def word (cs : List Char) : Option (Value × List Char) :=
  let inf := Float.ofBits 0x7FF0000000000000
  let words : List (String × Value) :=
    [("true", .bool true), ("false", .bool false), ("None", .null), ("inf", .float inf),
      ("-inf", .float (-inf)), ("NaN", .float (Float.ofBits 0x7FF8000000000000))]
  match cs with
  | '(' :: ')' :: r => some (.null, r)
  | cs => words.findSome? fun w => (afterWord? w.1.toList cs).map fun r => (w.2, r)

mutual

/--
A value, no blanks in front of it; `depth` bounds the containers and items around each
other.
-/
def value : Nat → Nat → List Char → Option (Value × List Char)
  | 0, _, _ => none
  | fuel + 1, depth, cs =>
    match word cs with
    | some v => some v
    | none =>
      match afterWord? "Some".toList cs with
      | some r => option fuel depth r
      | none =>
        match name? cs with
        | some (_, r) => do
          match ← skip .blank r with
          | '(' :: r => group fuel depth r
          | _ => some (.null, r)
        | none =>
          match cs with
          | '(' :: r => group fuel depth r
          | '[' :: r => list fuel depth ']' r
          | '{' :: r => do
            if depth = 0 then none
            let (ms, r) ← members fuel (depth - 1) false true r
            some (.table (Keyed.putAll [] ms), r)
          | '"' :: r => (string (r.length + 1) r).map fun p => (.text (String.ofList p.1), p.2)
          | 'r' :: r => (raw r).map fun p => (.text (String.ofList p.1), p.2)
          | '\'' :: r => (char r).map fun p => (.text (String.singleton p.1), p.2)
          | c :: _ =>
            if c.isDigit ∨ c = '+' ∨ c = '-' ∨ c = '.' then number cs else none
          | [] => none

/-- What an option holds, its word taken off. -/
def option : Nat → Nat → List Char → Option (Value × List Char)
  | 0, _, _ => none
  | fuel + 1, depth, cs => do
    match ← skip .blank cs with
    | '(' :: r => do
      if depth = 0 then none
      let (v, r) ← value fuel (depth - 1) (← skip .blank r)
      let (_, r) ← comma r
      match r with
      | ')' :: r => some (v, r)
      | _ => none
    | _ => none

/-- A record or a list in round brackets, the first one taken off. -/
def group : Nat → Nat → List Char → Option (Value × List Char)
  | 0, _, _ => none
  | fuel + 1, depth, cs => do
    let r ← skip .blank cs
    if ← startsRecord r then
      if depth = 0 then none
      let (ms, r) ← members fuel (depth - 1) true true r
      some (.table (Keyed.putAll [] ms), r)
    else list fuel depth ')' r

def list : Nat → Nat → Char → List Char → Option (Value × List Char)
  | 0, _, _, _ => none
  | fuel + 1, depth, close, cs => do
    if depth = 0 then none
    let (vs, r) ← items fuel (depth - 1) close true cs
    some (.array vs, r)

/-- The items up to a bracket; another one needs a comma before it. -/
def items : Nat → Nat → Char → Bool → List Char → Option (List Value × List Char)
  | 0, _, _, _, _ => none
  | fuel + 1, depth, close, more, cs => do
    match ← skip .blank cs with
    | [] => none
    | c :: r =>
      if c = close then some ([], r)
      else if more = false ∨ depth = 0 then none
      else
        let (v, r) ← value fuel (depth - 1) (c :: r)
        let (more, r) ← comma r
        let (vs, r) ← items fuel depth close more r
        some (v :: vs, r)

/-- The members of a record or of a map up to the bracket; another one needs a comma before it. -/
def members : Nat → Nat → Bool → Bool → List Char → Option (List (String × Value) × List Char)
  | 0, _, _, _, _ => none
  | fuel + 1, depth, isRecord, more, cs => do
    match ← skip .blank cs with
    | [] => none
    | c :: r =>
      if c = (if isRecord then ')' else '}') then some ([], r)
      else if more = false ∨ depth = 0 then none
      else
        let (k, r) ←
          if isRecord then name? (c :: r)
          else (value fuel (depth - 1) (c :: r)).bind key?
        match ← skip .blank r with
        | ':' :: r => do
          let (v, r) ← value fuel (depth - 1) (← skip .blank r)
          let (more, r) ← comma r
          let (ms, r) ← members fuel depth isRecord more r
          some ((k, v) :: ms, r)
        | _ => none

end

/-! ## Texts -/

/-- The containers and items that may stand around each other. -/
def maxDepth : Nat := 128

/-- The extensions of the notation, none of which matters here. -/
def extensions : List String :=
  ["unwrap_newtypes", "implicit_some", "unwrap_variant_newtypes"]

/-- What follows some marks, with blanks behind each. -/
def afterMarks? : List Char → List Char → Option (List Char)
  | [], cs => some cs
  | m :: ms, c :: cs => if c = m then do afterMarks? ms (← skip .blank cs) else none
  | _ :: _, [] => none

/-- The names of extensions up to the bracket. -/
def extensionNames : Nat → List Char → Option (List Char)
  | 0, _ => none
  | fuel + 1, cs => do
    let (w, r) ← name? cs
    if w ∉ extensions then none
    let (more, r) ← comma r
    if more ∧ r.head?.any continuesName then extensionNames fuel r else afterMarks? [')', ']'] r

/-- What follows the lines at the start of a text that ask for extensions. -/
def skipExtensions : Nat → List Char → Option (List Char)
  | 0, _ => none
  | fuel + 1, cs => do
    match ← skip .blank cs with
    | '#' :: r => do
      let r ← afterMarks? ['!', '['] (← skip .blank r)
      if "enable".toList.isPrefixOf r then
        let r ← afterMarks? ['('] (← skip .blank (r.drop 6))
        skipExtensions fuel (← extensionNames r.length r)
      else none
    | r => some r

def parse? (text : String) : Option Value := do
  let cs ← skipExtensions (text.length + 1) text.toList
  let (v, r) ← value (4 * cs.length + 4) maxDepth cs
  match ← skip .blank r with
  | [] => some v
  | _ => none

end BenchHistory.Settings.Ron
