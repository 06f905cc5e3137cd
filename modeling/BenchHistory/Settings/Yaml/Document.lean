import BenchHistory.Keyed
import BenchHistory.Settings.Yaml.Node

/-!
# Reading YAML

A text holds one document or none. Lines with directives may stand in front of it, and
markers in front of it and behind it. A text that is wrong anywhere is refused, and so
is one with a second document.
-/

namespace BenchHistory.Settings.Yaml

/-! ## Settings -/

mutual

def Node.toValue? : Node → Option Value
  | .scalar s => s.toValue?
  | .list items => (itemsToValues? items).map .array
  | .map entries => (entriesToMembers? entries).map fun ms => .table (Keyed.putAll [] ms)

def itemsToValues? : List Node → Option (List Value)
  | [] => some []
  | n :: ns => do return (← n.toValue?) :: (← itemsToValues? ns)

def entriesToMembers? : List (Scalar × Node) → Option (List (String × Value))
  | [] => some []
  | (k, n) :: es => do return (← k.key?, ← n.toValue?) :: (← entriesToMembers? es)

end

/-! ## Documents -/

/-- Whether a line ends after blanks and perhaps a comment. -/
def endsLine (cs : List Char) : Bool :=
  match cs.dropWhile isBlank with
  | [] => true
  | c :: _ => c = '\n' || (c = '#' && startsGap cs)

/-- The words of a line up to a comment. -/
def wordsOf (line : List Char) : List (List Char) :=
  (line.splitOnP isBlank).filter (· ≠ []) |>.takeWhile (·.head? ≠ some '#')

/-- Whether a text is a version: two numbers and a point. -/
def isVersion (w : List Char) : Bool :=
  match w.splitOnP (· = '.') with
  | [a, b] => a ≠ [] && b ≠ [] && a.all Char.isDigit && b.all Char.isDigit
  | _ => false

/-- Reads a directive: a version, the start of tags, or one that does not matter. -/
def directive (names : Names) (line : List Char) : Option Names :=
  match wordsOf line with
  | [w, version] =>
    if w = "%YAML".toList ∧ !isVersion version then none
    else if w = "%TAG".toList then none
    else some names
  | [w, handle, start] =>
    if w = "%YAML".toList then none
    else if w = "%TAG".toList then
      some { names with handles := (String.ofList handle, String.ofList start) :: names.handles }
    else some names
  | w :: _ => if w = "%YAML".toList ∨ w = "%TAG".toList then none else some names
  | [] => some names

/-- The place behind the directives, and whether there are any. -/
def directives : Nat → Bool → Names → Source → Option (Bool × Names × Source)
  | 0, _, _, _ => none
  | fuel + 1, found, names, s => do
    let s ← s.next (-1)
    if s.column = 0 ∧ s.rest.head? = some '%' then
      let line := s.rest.takeWhile (· ≠ '\n')
      directives fuel true (← directive names line) (s.skip line.length)
    else some (found, names, s)

/-- The place behind the lines that end a document. -/
def endings : Nat → Source → Option Source
  | 0, _ => none
  | fuel + 1, s => do
    let s ← s.next (-1)
    if s.atMarker ∧ "...".toList.isPrefixOf s.rest then
      let s := s.skip 3
      if endsLine s.rest then endings fuel s else none
    else some s

/-- The document of a text, if it has one. -/
def document? (text : String) : Option (Option Node) := do
  let s := Source.ofText text
  let fuel := 8 * s.rest.length + 16
  let s ← endings fuel s
  let (found, names, s) ← directives fuel false ⟨[], []⟩ s
  let marked := s.atMarker && "---".toList.isPrefixOf s.rest
  if found ∧ !marked then none
  if s.rest.isEmpty then some none
  else
    let start := if marked then s.skip 3 else s
    let (n, _, s) ← blockNode fuel (-1) false (!marked) names .bare start
    let s ← endings fuel s
    if s.rest.isEmpty then some (some n) else none

/-- The settings that a text writes: those of its map, or none without a document. -/
def parse? (text : String) : Option Value := do
  match ← document? text with
  | some n => n.toValue?
  | none => some (.table [])

end BenchHistory.Settings.Yaml
