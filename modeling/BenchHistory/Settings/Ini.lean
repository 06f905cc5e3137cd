import BenchHistory.Keyed
import BenchHistory.Settings.Value
import BenchHistory.Text.Blank
import BenchHistory.Text.Hex

/-!
# Reading INI

A text of keys with values, one a line, in sections. All values are texts. A
backslash stands for a character that is hard to write, also in keys and in the names
of sections, and comments have lines of their own. A section that comes again stands
in for the earlier one.
-/

namespace BenchHistory.Settings.Ini

/-! ## Characters -/

/-- What an escape of one character stands for; a line end stands for nothing. -/
def escaped (c : Char) : List Char :=
  if c = '0' then ['\x00']
  else if c = 'a' then ['\x07']
  else if c = 'b' then ['\x08']
  else if c = 't' then ['\t']
  else if c = 'r' then ['\r']
  else if c = 'n' then ['\n']
  else if c = '\n' then []
  else [c]

/-- Characters put before what was read. -/
def before (w : List Char) (r : Option (List Char × List Char)) : Option (List Char × List Char) :=
  r.map fun p => (w ++ p.1, p.2)

/-- The characters up to a mark, which is left; the text may end instead if `mayEnd` says so. -/
def upTo (isMark : Char → Bool) (mayEnd : Bool) : List Char → Option (List Char × List Char)
  | [] => if mayEnd then some ([], []) else none
  | c :: cs =>
    if isMark c then some ([], c :: cs)
    else if c = '\\' then
      match cs with
      | 'x' :: a :: b :: d :: e :: r => do
        before [← Text.ofHex? [a, b, d, e]] (upTo isMark mayEnd r)
      | 'x' :: _ => none
      | e :: r => before (escaped e) (upTo isMark mayEnd r)
      | [] => none
    else before [c] (upTo isMark mayEnd cs)

def isLineEnd (c : Char) : Bool :=
  c = '\n' || c = '\r'

/-- A text without the blanks at its start, and whether it starts a line. -/
def skipBlanks (fresh : Bool) : List Char → Bool × List Char
  | [] => (fresh, [])
  | c :: cs => if Text.isBlank c then skipBlanks (c = '\n') cs else (fresh, c :: cs)

/-- What follows a comment. -/
def skipComment (cs : List Char) : List Char :=
  (cs.dropWhile (· ≠ '\n')).drop 1

/-! ## Values -/

/-- A quoted text and the rest of its line, the opening quote taken off. -/
def quoted (quote : Char) (cs : List Char) : Option (List Char × List Char) := do
  let (inner, r) ← upTo (· = quote) false cs
  before inner (upTo isLineEnd true (r.drop 1))

/-- The value behind an equals sign. -/
def value (cs : List Char) : Option (List Char × List Char) := do
  let (v, r) ←
    match cs.dropWhile fun c => Text.isBlank c && !isLineEnd c with
    | '"' :: r => quoted '"' r
    | '\'' :: r => quoted '\'' r
    | r => upTo isLineEnd true r
  some (Text.trim v, r)

/-! ## Sections -/

/-- The keys and values that stand in a section, or in none. -/
structure Section where
  name : Option String
  entries : Keyed String

/-- What was read: the sections, the last one first, and the key that has no value yet. -/
structure State where
  sections : List Section
  key : List Char

/-- Gives the key a value in the section that was begun last. -/
def State.assign (s : State) (v : List Char) : Option State :=
  match s.key, s.sections with
  | [], _ => none
  | key, last :: earlier =>
    let entries := last.entries.put (String.ofList key) (String.ofList v)
    some ⟨{ last with entries := entries } :: earlier, []⟩
  | key, [] => some ⟨[⟨none, [(String.ofList key, String.ofList v)]⟩], []⟩

/-- One more part of a text: a comment, a section, a value or a key. -/
def part (fresh : Bool) (s : State) (cs : List Char) : Option (State × List Char) :=
  match cs with
  | [] => none
  | c :: r =>
    if c = ';' ∨ c = '#' then if fresh then some (s, skipComment r) else none
    else if c = '[' then do
      let (name, r) ← upTo (· = ']') false r
      let opened := ⟨some (String.ofList (Text.trim name)), []⟩
      some ({ s with sections := opened :: s.sections }, r.drop 1)
    else if c = '=' ∨ c = ':' then do
      let (v, r) ← value r
      some (← s.assign v, r)
    else do
      let (key, r) ← upTo (fun c => c = '=' || c = ':') false (c :: r)
      some ({ s with key := Text.trim key }, r)

/-- All parts of a text; a comment leads to the start of a line. -/
def parts : Nat → Bool → State → List Char → Option State
  | 0, _, _, _ => none
  | fuel + 1, fresh, s, cs =>
    match skipBlanks fresh cs with
    | (_, []) => some s
    | (fresh, c :: cs) => do
      let (s, r) ← part fresh s (c :: cs)
      parts fuel (c = ';' ∨ c = '#') s r

/-- The settings in a section: a table under its name, or, without a name, as they are. -/
def Section.settings (s : Section) : List (String × Value) :=
  let entries := s.entries.map fun e => (e.1, Value.text e.2)
  match s.name with
  | some name => [(name, .table entries)]
  | none => entries

def parse? (text : String) : Option (List (String × Value)) := do
  let cs := text.toList
  let s ← parts (cs.length + 1) true ⟨[], []⟩ cs
  some (Keyed.putAll [] (s.sections.reverse.flatMap Section.settings))

end BenchHistory.Settings.Ini
