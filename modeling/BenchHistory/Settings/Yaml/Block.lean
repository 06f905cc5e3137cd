import BenchHistory.Settings.Yaml.Source

/-!
# Blocks of lines in YAML

A scalar may be written as a block of lines, kept as they are or folded into longer
ones. Its indentation is that of its first line unless it is given, and signs in front
of it say how many line ends stay behind it.
-/

namespace BenchHistory.Settings.Yaml

/-- What becomes of the line ends behind a block: none stays, one stays, or all stay. -/
inductive Chomp where
  | strip
  | clip
  | keep
deriving DecidableEq, Repr

/--
What stands in front of a block: whether its lines are kept, what stays behind it, and
its indentation if given.
-/
structure BlockHeader where
  literal : Bool
  chomp : Chomp
  increment : Option Nat
deriving Repr

/-! ## The header -/

/-- A sign for the line ends behind a block. -/
def chomp? : List Char → Option (Chomp × List Char)
  | '+' :: r => some (.keep, r)
  | '-' :: r => some (.strip, r)
  | _ => none

/-- A digit for the indentation of a block, not zero. -/
def increment? : List Char → Option (Nat × List Char)
  | c :: r => if c.isDigit && c != '0' then some (c.toNat - 48, r) else none
  | [] => none

/-- The signs in front of a block, in any order. -/
def blockHeader (literal : Bool) (cs : List Char) : BlockHeader × List Char :=
  match chomp? cs with
  | some (c, r) =>
    match increment? r with
    | some (n, r) => (⟨literal, c, some n⟩, r)
    | none => (⟨literal, c, none⟩, r)
  | none =>
    match increment? cs with
    | some (n, r) =>
      match chomp? r with
      | some (c, r) => (⟨literal, c, some n⟩, r)
      | none => (⟨literal, .clip, some n⟩, r)
    | none => (⟨literal, .clip, none⟩, cs)

/-- The end of the line behind a header: the text from it on, a comment left out. -/
def headerEnd? (cs : List Char) : Option (List Char) :=
  let r := cs.dropWhile isBlank
  match r with
  | [] => some []
  | '\n' :: _ => some r
  | '#' :: _ => if startsGap cs then some (r.dropWhile (· ≠ '\n')) else none
  | _ => none

/-! ## Its lines -/

/-- A text cut into lines; the last one may be left without its end. -/
def cutLines (line : List Char) : List Char → List (List Char) × Option (List Char)
  | [] => ([], if line.isEmpty then none else some line.reverse)
  | c :: cs =>
    if c = '\n' then
      let (lines, last) := cutLines [] cs
      (line.reverse :: lines, last)
    else cutLines (c :: line) cs

/-- The blanks that indent a line. -/
def indentation (line : List Char) : Nat :=
  (line.takeWhile (· = ' ')).length

/-- Whether a line has nothing but indentation. -/
def isHollow (line : List Char) : Bool :=
  line.all (· = ' ')

/-- The largest indentation of the lines up to the first one with text. -/
def firstIndentation : List (List Char) → Nat
  | [] => 0
  | l :: ls => if isHollow l then max l.length (firstIndentation ls) else indentation l

/-- Whether a line is an empty one of a block that is indented so much. -/
def isEmptyIn (width : Nat) (line : List Char) : Bool :=
  isHollow line && decide (line.length ≤ width)

/-- Whether a line belongs to a block that is indented so much. -/
def isIn (width : Nat) (line : List Char) : Bool :=
  isEmptyIn width line ||
    (decide (width ≤ indentation line) && !(width == 0 && (⟨line, 0, 0⟩ : Source).atMarker))

/--
What was read of a block: its text, whether a line has ended, the empty lines since
then, and whether that line started with a blank.
-/
structure Folding where
  text : List Char
  ended : Bool
  empties : Nat
  indented : Bool

/-- What a block looks like before its first line. -/
def Folding.start : Folding :=
  ⟨[], false, 0, false⟩

/-- One more line. Folded lines are joined by blanks unless one of them starts with a blank. -/
def Folding.line (literal : Bool) (width : Nat) (f : Folding) (line : List Char) : Folding :=
  if isEmptyIn width line then { f with empties := f.empties + 1 }
  else
    let line := line.drop width
    let indented := line.head?.any isBlank
    let between :=
      if !literal && f.ended && !f.indented && !indented then folded (f.empties + 1)
      else List.replicate (f.empties + f.ended.toNat) '\n'
    ⟨f.text ++ between ++ line, true, 0, indented⟩

/--
The line ends that stay behind a block with text; blanks as wide as the block count at
the end of the text.
-/
def tail (chomp : Chomp) (empties : Nat) (wide : Bool) : List Char :=
  match chomp with
  | .strip => []
  | .clip => List.replicate (1 + wide.toNat) '\n'
  | .keep => List.replicate (1 + wide.toNat + empties) '\n'

/-- The line ends that stay of a block without text; one stays if the text ends there. -/
def hollowTail (chomp : Chomp) (empties : Nat) (atEnd : Bool) : List Char :=
  match chomp with
  | .strip => []
  | .clip => List.replicate atEnd.toNat '\n'
  | .keep => List.replicate (max atEnd.toNat empties) '\n'

/--
A block in a given number of lines, and what stands in the last line of the text if
that has no end.
-/
def blockText (h : BlockHeader) (width : Nat) (lines : List (List Char)) (last : Option (List Char))
    (atEnd : Bool) : List Char :=
  let f := lines.foldl (Folding.line h.literal width) .start
  let rest := last.getD []
  if isEmptyIn width rest then
    if f.ended then f.text ++ tail h.chomp f.empties (decide (0 < width) && rest.length == width)
    else hollowTail h.chomp f.empties atEnd
  else
    let f := f.line h.literal width rest
    f.text ++ tail h.chomp 0 false

/-- A block of lines inside of a block that is indented so much. -/
def blockScalar (indent : Int) (s : Source) : Option (List Char × Source) := do
  let literal ←
    match s.rest with
    | '|' :: _ => some true
    | '>' :: _ => some false
    | _ => none
  let (h, r) := blockHeader literal (s.rest.drop 1)
  match ← headerEnd? r with
  | [] => some ([], ⟨[], s.line, s.column + 1⟩)
  | _ :: body =>
    if body.head? = some '\t' then none
    let (lines, last) := cutLines [] body
    let all := lines ++ last.toList
    let width := h.increment.elim (max (firstIndentation all) (indent + 1).toNat)
      fun n => (max indent 0).toNat + n
    let own := lines.takeWhile (isIn width)
    let following := all.drop own.length
    let ownLast := if own.length = lines.length then last.filter (isIn width) else none
    let other := following.head?.filter fun l => !isIn width l
    if own.all (isEmptyIn width) ∧ (other.any fun l => decide (indent < indentation l)) then none
    let size := (own.flatMap fun l => l ++ ['\n']).length + (ownLast.getD []).length
    some (blockText h width own ownLast other.isNone,
      ⟨body.drop size, s.line + 1 + own.length, 0⟩)

end BenchHistory.Settings.Yaml
