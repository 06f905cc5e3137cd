import BenchHistory.Text.Hex

/-!
# Texts and keys in TOML

TOML has four kinds of strings: between double quotes with escapes or between single
quotes without, and either on one line or, behind three quotes, over several. Keys
are bare words or one-line strings, joined by points. What is read off the front of a
text comes with the text behind it, and nothing comes of a text that is wrong.
-/

namespace BenchHistory.Settings.Toml

/-- The blanks within a line. -/
def isBlank (c : Char) : Bool :=
  c = ' ' || c = '\t'

/-- The characters of comments and strings: no controls but the tab. -/
def isText (c : Char) : Bool :=
  c = '\t' || (0x20 ≤ c.toNat && c.toNat ≠ 0x7F)

def skipBlanks (cs : List Char) : List Char :=
  cs.dropWhile isBlank

/-- A text without blanks, line ends and comments at its start. -/
def skipFiller : Bool → List Char → Option (List Char)
  | _, [] => some []
  | _, '\n' :: cs => skipFiller false cs
  | _, '\r' :: '\n' :: cs => skipFiller false cs
  | false, c :: cs =>
    if isBlank c then skipFiller false cs
    else if c = '#' then skipFiller true cs
    else some (c :: cs)
  | true, c :: cs => if isText c then skipFiller true cs else none

/-- What follows the end of a line, before which there may be a comment. -/
def lineEnd : Bool → List Char → Option (List Char)
  | _, [] => some []
  | _, '\n' :: cs => some cs
  | _, '\r' :: '\n' :: cs => some cs
  | false, c :: cs =>
    if isBlank c then lineEnd false cs else if c = '#' then lineEnd true cs else none
  | true, c :: cs => if isText c then lineEnd true cs else none

/-! ## Escapes -/

/-- The character of a one-letter escape. -/
def escaped? (c : Char) : Option Char :=
  if c = 'b' then some '\x08'
  else if c = 't' then some '\t'
  else if c = 'n' then some '\n'
  else if c = 'f' then some '\x0C'
  else if c = 'r' then some '\r'
  else if c = '"' then some '"'
  else if c = '\\' then some '\\'
  else none

def before (c : Char) (r : Option (List Char × List Char)) : Option (List Char × List Char) :=
  r.map fun p => (c :: p.1, p.2)

/-! ## Strings -/

/-- The rest of a string between double quotes. -/
def basic : List Char → Option (List Char × List Char)
  | [] => none
  | '"' :: r => some ([], r)
  | '\\' :: 'u' :: a :: b :: c :: d :: r => do before (← Text.ofHex? [a, b, c, d]) (basic r)
  | '\\' :: 'U' :: a :: b :: c :: d :: e :: f :: g :: h :: r => do
    before (← Text.ofHex? [a, b, c, d, e, f, g, h]) (basic r)
  | '\\' :: c :: r => do before (← escaped? c) (basic r)
  | c :: r => if c ≠ '\\' ∧ isText c then before c (basic r) else none

/-- The rest of a string between single quotes. -/
def literal : List Char → Option (List Char × List Char)
  | [] => none
  | '\'' :: r => some ([], r)
  | c :: r => if isText c then before c (literal r) else none

/--
Whether a backslash at the end of a line is being followed up: to the line end, or
behind it.
-/
inductive Fold where
  | off
  | line
  | rest
deriving DecidableEq

/-- The rest of a string between three double quotes. -/
def longBasic : Fold → List Char → Option (List Char × List Char)
  | _, [] => none
  | .line, c :: r =>
    if c = '\n' then longBasic .rest r
    else if isBlank c ∨ (c = '\r' ∧ r.head? = some '\n') then longBasic .line r
    else none
  | .off, '"' :: '"' :: '"' :: '"' :: '"' :: r => some (['"', '"'], r)
  | .off, '"' :: '"' :: '"' :: '"' :: r => some (['"'], r)
  | .off, '"' :: '"' :: '"' :: r => some ([], r)
  | .rest, '"' :: '"' :: '"' :: '"' :: '"' :: r => some (['"', '"'], r)
  | .rest, '"' :: '"' :: '"' :: '"' :: r => some (['"'], r)
  | .rest, '"' :: '"' :: '"' :: r => some ([], r)
  | _, '\\' :: 'u' :: a :: b :: c :: d :: r => do
    before (← Text.ofHex? [a, b, c, d]) (longBasic .off r)
  | _, '\\' :: 'U' :: a :: b :: c :: d :: e :: f :: g :: h :: r => do
    before (← Text.ofHex? [a, b, c, d, e, f, g, h]) (longBasic .off r)
  | _, '\\' :: c :: r =>
    match escaped? c with
    | some e => before e (longBasic .off r)
    | none =>
      if c = '\n' then longBasic .rest r
      else if isBlank c ∨ (c = '\r' ∧ r.head? = some '\n') then longBasic .line r
      else none
  | .rest, c :: r =>
    if isBlank c ∨ c = '\n' ∨ (c = '\r' ∧ r.head? = some '\n') then longBasic .rest r
    else if c ≠ '\\' ∧ isText c then before c (longBasic .off r)
    else none
  | .off, c :: r =>
    if c = '\r' ∧ r.head? = some '\n' then longBasic .off r
    else if c = '\n' ∨ (c ≠ '\\' ∧ isText c) then before c (longBasic .off r)
    else none

/-- The rest of a string between three single quotes. -/
def longLiteral : List Char → Option (List Char × List Char)
  | [] => none
  | '\'' :: '\'' :: '\'' :: '\'' :: '\'' :: r => some (['\'', '\''], r)
  | '\'' :: '\'' :: '\'' :: '\'' :: r => some (['\''], r)
  | '\'' :: '\'' :: '\'' :: r => some ([], r)
  | c :: r =>
    if c = '\r' ∧ r.head? = some '\n' then longLiteral r
    else if c = '\n' ∨ isText c then before c (longLiteral r)
    else none

/-- A text without one line end at its start. -/
def skipNewline : List Char → List Char
  | '\n' :: cs => cs
  | '\r' :: '\n' :: cs => cs
  | cs => cs

def string : List Char → Option (String × List Char)
  | '"' :: '"' :: '"' :: r => (longBasic .off (skipNewline r)).map fun p => (String.ofList p.1, p.2)
  | '\'' :: '\'' :: '\'' :: r => (longLiteral (skipNewline r)).map fun p => (String.ofList p.1, p.2)
  | '"' :: r => (basic r).map fun p => (String.ofList p.1, p.2)
  | '\'' :: r => (literal r).map fun p => (String.ofList p.1, p.2)
  | _ => none

/-! ## Keys -/

/-- The characters of bare keys. -/
def isKeyChar (c : Char) : Bool :=
  c.isAlphanum || c = '_' || c = '-'

def simpleKey : List Char → Option (String × List Char)
  | '"' :: r => (basic r).map fun p => (String.ofList p.1, p.2)
  | '\'' :: r => (literal r).map fun p => (String.ofList p.1, p.2)
  | cs =>
    let (name, rest) := cs.span isKeyChar
    if name = [] then none else some (String.ofList name, rest)

/-- Keys have fewer parts than this, and values are nested less deep. -/
def depthLimit : Nat := 80

/-- A key of at most so many parts, and the blanks behind it. -/
def parts : Nat → List Char → Option (List String × List Char)
  | 0, _ => none
  | most + 1, cs => do
    let (k, r) ← simpleKey cs
    match skipBlanks r with
    | '.' :: r => do
      let (ks, r) ← parts most (skipBlanks r)
      some (k :: ks, r)
    | r => some ([k], r)

/-- A key, and the blanks behind it. -/
def key (cs : List Char) : Option (List String × List Char) :=
  parts (depthLimit - 1) cs

end BenchHistory.Settings.Toml
