/-!
# Places in a YAML text

In YAML it matters on which line and in which column something stands. A source is a
place in a text: what follows it, and its line and column. Between two tokens there
may be blanks, line ends and comments; a comment is set off by a blank, and a line's
indentation has no tabs.
-/

namespace BenchHistory.Settings.Yaml

/-- A place in a text. -/
structure Source where
  rest : List Char
  line : Nat
  column : Nat
deriving Repr

/-- A blank within a line. -/
def isBlank (c : Char) : Bool :=
  c = ' ' || c = '\t'

/-- A mark of lists and maps in brackets. -/
def isFlowMark (c : Char) : Bool :=
  c = ',' || c = '[' || c = ']' || c = '{' || c = '}'

/-- Whether a text ends, or has a blank or a line end at its start. -/
def startsGap : List Char → Bool
  | [] => true
  | c :: _ => isBlank c || c = '\n'

/-- A text whose lines all end in one way, cut off before a null character. -/
def normalize : List Char → List Char
  | [] => []
  | '\r' :: '\n' :: cs => '\n' :: normalize cs
  | '\r' :: cs => '\n' :: normalize cs
  | c :: cs => if c = '\x00' then [] else c :: normalize cs

namespace Source

def ofText (text : String) : Source :=
  ⟨normalize text.toList, 0, 0⟩

/-- The place so many characters further on the same line. -/
def skip (n : Nat) (s : Source) : Source :=
  { s with rest := s.rest.drop n, column := s.column + n }

def skipBlanks (s : Source) : Source :=
  s.skip (s.rest.takeWhile isBlank).length

/-- Whether a mark that stands alone comes next. -/
def startsMark (c : Char) (s : Source) : Bool :=
  match s.rest with
  | d :: r => d = c && startsGap r
  | [] => false

/-- Whether a line comes next that ends a document or starts another one. -/
def atMarker (s : Source) : Bool :=
  s.column = 0 &&
    match s.rest with
    | '-' :: '-' :: '-' :: r => startsGap r
    | '.' :: '.' :: '.' :: r => startsGap r
    | _ => false

def atEnd (s : Source) : Bool :=
  s.rest.isEmpty || s.atMarker

/--
What was passed over of a line: nothing but its indentation, whether a comment may
follow, or a comment.
-/
inductive Passed where
  | indentation
  | gap
  | token
  | comment
deriving DecidableEq

/--
The next token from a place on. `indent` is the column of the innermost block; if a
tab stands there or before (`tab`), nothing may follow on the line.
-/
def nextFrom (indent : Int) (tab : Bool) (p : Passed) (line column : Nat) :
    List Char → Option Source
  | [] => some ⟨[], line, column⟩
  | c :: cs =>
    if c = '\n' then nextFrom indent false .indentation (line + 1) 0 cs
    else if p = .comment then nextFrom indent tab .comment line (column + 1) cs
    else if c = '#' then
      if p = .token then none else nextFrom indent tab .comment line (column + 1) cs
    else if c = ' ' ∨ c = '\t' then
      let tab := tab || (c = '\t' && p = .indentation && (column : Int) ≤ indent)
      nextFrom indent tab (if p = .indentation then .indentation else .gap) line (column + 1) cs
    else if tab then none
    else some ⟨c :: cs, line, column⟩

def next (indent : Int) (s : Source) : Option Source :=
  nextFrom indent false (if s.column = 0 then .indentation else .token) s.line s.column s.rest

/--
The next token inside of brackets, which has to be indented more than the block around
them.
-/
def nextInside (indent : Int) (s : Source) : Option Source := do
  let t ← s.next indent
  if t.atEnd ∨ (s.line < t.line ∧ (t.column : Int) ≤ indent) then none else some t

/-- The next token behind a node of a block, which has to be on another line. -/
def nextLine (indent : Int) (s : Source) : Option Source := do
  let t ← s.next indent
  if t.rest.isEmpty ∨ s.line < t.line ∨ s.column = 0 then some t else none

/-- How many line ends follow with nothing but blanks around them, and what comes then. -/
def breaksFrom (indent : Int) (n line column : Nat) : List Char → Option (Nat × Source)
  | [] => some (n, ⟨[], line, column⟩)
  | c :: cs =>
    if c = '\n' then breaksFrom indent (n + 1) (line + 1) 0 cs
    else if c = ' ' then breaksFrom indent n line (column + 1) cs
    else if c = '\t' then
      if 0 < n ∧ (column : Int) ≤ indent then none else breaksFrom indent n line (column + 1) cs
    else some (n, ⟨c :: cs, line, column⟩)

/-- The line ends and blanks that follow. -/
def breaks (indent : Int) (s : Source) : Option (Nat × Source) :=
  breaksFrom indent 0 s.line s.column s.rest

end Source

/--
What line ends between two pieces of text stand for: one is a blank, of more all but
one count.
-/
def folded (n : Nat) : List Char :=
  if n = 1 then [' '] else List.replicate (n - 1) '\n'

end BenchHistory.Settings.Yaml
