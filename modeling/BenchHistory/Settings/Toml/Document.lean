import BenchHistory.Settings.Toml.Scalar
import BenchHistory.Settings.Toml.Table

/-!
# Reading TOML

A text is a list of lines: a key with a value, the header of a table, or the header
of one more of tables in a row. A text that is wrong anywhere is refused.
-/

namespace BenchHistory.Settings.Toml

mutual

/-- A value, in which fewer than `depth` more arrays and tables may be nested. -/
def value : Nat → Nat → List Char → Option (Value × List Char)
  | 0, _, _ => none
  | fuel + 1, depth, cs =>
    match cs with
    | '"' :: _ => (string cs).map fun p => (.text p.1, p.2)
    | '\'' :: _ => (string cs).map fun p => (.text p.1, p.2)
    | '[' :: r =>
      if depth ≤ 1 then none
      else do
        let (vs, r) ← items fuel (depth - 1) r
        some (.array vs, r)
    | '{' :: r =>
      if depth ≤ 1 then none
      else
        match skipBlanks r with
        | '}' :: r => some (.table [], r)
        | r => do
          let (ms, r) ← members fuel (depth - 1) [] r
          some (.table (membersToValue ms), r)
    | cs =>
      let (w, r) := word cs
      (scalar? w).map fun v => (v, r)

/-- The items of an array up to its bracket; a comma may stand behind the last one. -/
def items : Nat → Nat → List Char → Option (List Value × List Char)
  | 0, _, _ => none
  | fuel + 1, depth, cs => do
    match ← skipFiller false cs with
    | ']' :: r => some ([], r)
    | r => do
      let (v, r) ← value fuel depth r
      match ← skipFiller false r with
      | ']' :: r => some ([v], r)
      | ',' :: r => do
        let (vs, r) ← items fuel depth r
        some (v :: vs, r)
      | _ => none

/-- The members of a table on one line, from one on up to its brace. -/
def members : Nat → Nat → Members → List Char → Option (Members × List Char)
  | 0, _, _, _ => none
  | fuel + 1, depth, ms, cs => do
    let (path, r) ← key (skipBlanks cs)
    let r ← mark '=' r
    let (v, r) ← value fuel depth (skipBlanks r)
    let ms ← insert v path ms
    match skipBlanks r with
    | '}' :: r => some (ms, r)
    | ',' :: r => members fuel depth ms r
    | _ => none

end

/-- What has been read: the outermost table, and the path of the table that is being written. -/
structure State where
  root : Members
  path : List String

/-- The table that a path leads to, begun in the given way. -/
def State.start (s : State) (path : List String) (begin : String → Members → Option Members) :
    Option State := do
  let name ← path.getLast?
  let root ← update (begin name) path.dropLast s.root
  some ⟨root, path⟩

/-- One more line. -/
def line (fuel : Nat) (s : State) (cs : List Char) : Option (State × List Char) :=
  match cs with
  | '[' :: '[' :: r => do
    let (path, r) ← key (skipBlanks r)
    let r ← mark ']' r
    let r ← mark ']' r
    some (← s.start path openNext, ← lineEnd false r)
  | '[' :: r => do
    let (path, r) ← key (skipBlanks r)
    let r ← mark ']' r
    some (← s.start path openTable, ← lineEnd false r)
  | cs => do
    let (path, r) ← key cs
    let r ← mark '=' r
    let (v, r) ← value fuel depthLimit (skipBlanks r)
    let root ← update (insert v path) s.path s.root
    some ({ s with root := root }, ← lineEnd false r)

/-- All lines. -/
def lines : Nat → State → List Char → Option State
  | 0, _, _ => none
  | fuel + 1, s, cs => do
    match ← skipFiller false cs with
    | [] => some s
    | c :: r => do
      let (s, r) ← line (fuel + 1) s (c :: r)
      lines fuel s r

def parse? (text : String) : Option (List (String × Value)) := do
  let cs := match text.toList with
    | '\uFEFF' :: cs => cs
    | cs => cs
  let s ← lines (cs.length + 2) ⟨[], []⟩ cs
  some (membersToValue s.root)

end BenchHistory.Settings.Toml
