import BenchHistory.Settings.Yaml.Block
import BenchHistory.Settings.Yaml.Scalar

/-!
# Nodes in YAML

A node is a scalar, a list or a map. Lists and maps are written in brackets or as
blocks, whose entries stand in one column. A node may have a name, its anchor, under
which it can be used again, and a tag. Whatever is read gives the place behind it; for
a node of a block that is the next token, which stands on another line.
-/

namespace BenchHistory.Settings.Yaml

/-- What a text says. -/
inductive Node where
  | scalar (s : Scalar)
  | list (items : List Node)
  | map (entries : List (Scalar × Node))

instance : Inhabited Node := ⟨.scalar .null⟩

/-- The nodes with anchors so far, and the starts of tags that stand for longer ones. -/
structure Names where
  anchors : List (String × Node)
  handles : List (String × String)

/-- The anchor and the tag in front of a node. -/
structure Properties where
  anchor : Option String
  tag : Option Tag

/-- Neither anchor nor tag. -/
def Properties.bare : Properties :=
  ⟨none, none⟩

/-! ## Properties -/

/-- The name of an anchor. -/
def anchorName? (cs : List Char) : Option (List Char) :=
  let w := cs.takeWhile fun c => !(isBlank c || c = '\n' || isFlowMark c)
  if w = [] then none else some w

/-- The start of tags that are common to all texts. -/
def commonTags : String :=
  "tag:yaml.org,2002:"

/-- A tag of a given start and rest, the start being looked up. -/
def Names.tag? (names : Names) (handle rest : String) : Option Tag :=
  match names.handles.lookup handle with
  | some p => some (if p = commonTags then .common rest else .other)
  | none =>
    if handle = "!!" then some (.common rest)
    else if handle = "!" then some .other
    else none

/-- A tag, with its length. -/
def tag? (flow : Bool) (names : Names) (cs : List Char) : Option (Tag × Nat) :=
  match cs with
  | '!' :: '<' :: r =>
    let w := r.takeWhile fun c => c ≠ '>' && !isBlank c && c ≠ '\n'
    match r.drop w.length with
    | '>' :: r' =>
      if startsGap r' ∨ (flow ∧ r'.head?.any isFlowMark) then some (.other, w.length + 3)
      else none
    | _ => none
  | '!' :: r =>
    let w := r.takeWhile fun c => !(isBlank c || c = '\n' || isFlowMark c)
    let after := r.drop w.length
    if startsGap after ∨ (flow ∧ after.head?.any isFlowMark) then do
      let handle := w.takeWhile fun c => c.isAlphanum || c = '-' || c = '_'
      let tag ←
        match w.drop handle.length with
        | '!' :: rest => names.tag? (String.ofList ('!' :: handle ++ ['!'])) (String.ofList rest)
        | _ => names.tag? "!" (String.ofList w)
      some (tag, w.length + 1)
    else none
  | _ => none

/-- One more property in front of a node. There may be one of each kind. -/
def property? (flow : Bool) (names : Names) (p : Properties) (s : Source) :
    Option (Properties × Source) :=
  match s.rest with
  | '&' :: r => do
    if p.anchor.isSome then none
    let w ← anchorName? r
    some ({ p with anchor := some (String.ofList w) }, s.skip (w.length + 1))
  | '!' :: _ => do
    if p.tag.isSome then none
    let (t, n) ← tag? flow names s.rest
    some ({ p with tag := some t }, s.skip n)
  | _ => none

/-- Whether a property comes next. -/
def startsProperty (s : Source) : Bool :=
  s.rest.head? = some '&' || s.rest.head? = some '!'

/-- The names when a node with properties has been read. -/
def Names.note (names : Names) (p : Properties) (n : Node) : Names :=
  match p.anchor with
  | some a => { names with anchors := (a, n) :: names.anchors }
  | none => names

/-- A plain scalar with its properties. -/
def Properties.plain (p : Properties) (cs : List Char) : Node :=
  .scalar (match p.tag with
    | some t => .ofTagged t cs
    | none => .ofPlain cs)

/-- A node that stands for another one. -/
def alias? (names : Names) (p : Properties) (s : Source) : Option (Node × Source) :=
  match s.rest with
  | '*' :: r => do
    if p.anchor.isSome ∨ p.tag.isSome then none
    let w ← anchorName? r
    let n ← names.anchors.lookup (String.ofList w)
    some (n, s.skip (w.length + 1))
  | _ => none

/-- Whether a scalar between quotes comes next. -/
def startsQuoted (s : Source) : Bool :=
  s.rest.head? = some '"' || s.rest.head? = some '\''

/-- A scalar or an alias; `flow` tells that it stands in brackets. -/
def atom (flow : Bool) (indent : Int) (names : Names) (p : Properties) (s : Source) :
    Option (Node × Source) :=
  if s.rest.head? = some '*' then alias? names p s
  else if startsQuoted s then
    (quoted indent s).map fun q => (.scalar (.text (String.ofList q.1)), q.2)
  else (plain flow indent s).map fun q => (p.plain q.1, q.2)

/-- The entries of a map with one more, whose key is a scalar that is not there yet. -/
def addEntry (entries : List (Scalar × Node)) (key value : Node) :
    Option (List (Scalar × Node)) :=
  match key with
  | .scalar k =>
    if k = .null ∨ entries.any (fun e => e.1 = k) then none else some (entries ++ [(k, value)])
  | _ => none

/-! ## Nodes in brackets -/

/--
Whether a colon comes next that a value follows; behind quotes and brackets it needs
no blank.
-/
def startsValue (close : Bool) (s : Source) : Bool :=
  match s.rest with
  | ':' :: r => close || startsGap r || r.head?.any isFlowMark
  | _ => false

/-- Whether a node ends with a quote or a bracket. -/
def isClose (s : Source) : Bool :=
  startsQuoted s || s.rest.head? = some '[' || s.rest.head? = some '{'

/-- Whether a node is left out: a comma, the end or a colon comes next. -/
def isLeftOut (s : Source) : Bool :=
  s.rest.head? = some ',' || s.rest.head? = some ']' || s.rest.head? = some '}' ||
    startsValue false s

mutual

/-- A node in brackets; `indent` is that of the block around them. -/
def flowNode : Nat → Int → Names → Properties → Source → Option (Node × Names × Source)
  | 0, _, _, _, _ => none
  | fuel + 1, indent, names, p, s =>
    if startsProperty s then do
      let (p, s) ← property? true names p s
      let s ← s.nextInside indent
      if isLeftOut s then
        let n := p.plain []
        some (n, names.note p n, s)
      else flowNode fuel indent names p s
    else do
      let (n, names, s) ←
        match s.rest with
        | '[' :: _ => do
          let (items, names, s) ← flowItems fuel indent names (s.skip 1)
          some (Node.list items, names, s)
        | '{' :: _ => do
          let (entries, names, s) ← flowEntries fuel indent names [] (s.skip 1)
          some (Node.map entries, names, s)
        | _ => (atom true indent names p s).map fun q => (q.1, names, q.2)
      some (n, names.note p n, s)

/-- The value behind a colon, which may be left out. -/
def flowValue : Nat → Int → Names → Source → Option (Node × Names × Source)
  | 0, _, _, _ => none
  | fuel + 1, indent, names, s => do
    let t ← s.nextInside indent
    if isLeftOut t then some (.scalar .null, names, t)
    else
      let (n, names, s) ← flowNode fuel indent names .bare t
      some (n, names, ← s.nextInside indent)

/--
A key and its value, which may be left out, and whether there was a colon on the line
of the key.
-/
def flowPair : Nat → Int → Names → Source → Option ((Node × Option Node × Bool) × Names × Source)
  | 0, _, _, _ => none
  | fuel + 1, indent, names, s => do
    let (k, names, r) ← flowNode fuel indent names .bare s
    let t ← r.nextInside indent
    if startsValue (isClose s) t then
      let (v, names, r) ← flowValue fuel indent names (t.skip 1)
      some ((k, some v, t.line = s.line), names, r)
    else some ((k, none, true), names, t)

/-- The items of a list up to its bracket. An item may be a map of one entry without brackets. -/
def flowItems : Nat → Int → Names → Source → Option (List Node × Names × Source)
  | 0, _, _, _ => none
  | fuel + 1, indent, names, s => do
    let s ← s.nextInside indent
    match s.rest with
    | ']' :: _ => some ([], names, s.skip 1)
    | _ => do
      let marked := s.startsMark '?'
      let start ← if marked then (s.skip 1).nextInside indent else some s
      let ((k, v, onLine), names, r) ← flowPair fuel indent names start
      let item ←
        match v with
        | some v => if marked ∨ onLine then (addEntry [] k v).map Node.map else none
        | none => if marked then (addEntry [] k (.scalar .null)).map Node.map else some k
      match r.rest with
      | ']' :: _ => some ([item], names, r.skip 1)
      | ',' :: _ => do
        let (items, names, r) ← flowItems fuel indent names (r.skip 1)
        some (item :: items, names, r)
      | _ => none

/-- The entries of a map up to its brace. -/
def flowEntries : Nat → Int → Names → List (Scalar × Node) → Source →
    Option (List (Scalar × Node) × Names × Source)
  | 0, _, _, _, _ => none
  | fuel + 1, indent, names, entries, s => do
    let s ← s.nextInside indent
    match s.rest with
    | '}' :: _ => some (entries, names, s.skip 1)
    | _ => do
      let start ← if s.startsMark '?' then (s.skip 1).nextInside indent else some s
      let ((k, v, _), names, r) ← flowPair fuel indent names start
      let entries ← addEntry entries k (v.getD (.scalar .null))
      match r.rest with
      | '}' :: _ => some (entries, names, r.skip 1)
      | ',' :: _ => flowEntries fuel indent names entries (r.skip 1)
      | _ => none

end

/-! ## Nodes of blocks -/

/-- The properties of a key, all on one line. -/
def keyProperties : Nat → Names → Properties → Source → Option (Properties × Source)
  | 0, _, _, _ => none
  | fuel + 1, names, p, s =>
    if startsProperty s then do
      let (p, s) ← property? false names p s
      keyProperties fuel names p s.skipBlanks
    else some (p, s)

/-- The longest key that may be left unmarked. -/
def maxKey : Nat := 1024

/-- A key with its colon, all on one line, and the place behind the colon. -/
def key? (indent : Int) (names : Names) (s : Source) : Option (Node × Names × Source) := do
  let (p, t) ← keyProperties 3 names .bare s
  let (n, r) ← atom false indent names p t
  let r := r.skipBlanks
  if r.line = s.line ∧ r.startsMark ':' ∧ r.column ≤ s.column + maxKey then
    some (n, names.note p n, r.skip 1)
  else none

/-- Whether what stands behind the colon of a key is set off by more than a tab. -/
def isSetOff (s : Source) : Bool :=
  s.rest.head? != some '\t' || (s.rest.takeWhile isBlank).contains ' ' ||
    !(s.skipBlanks.rest.head?.any fun c => c.isAlphanum || c = '_' || c = '-')

/-- Whether another list entry behind the mark of one is set off by blanks alone. -/
def isEntrySetOff (s : Source) : Bool :=
  !(s.rest.takeWhile isBlank).contains '\t' || !s.skipBlanks.startsMark '-'

mutual

/--
A node in a block of a given indentation. A list may stand in the column of the block
itself if `level`, and a block may begin on the same line if `compact`.
-/
def blockNode : Nat → Int → Bool → Bool → Names → Properties → Source →
    Option (Node × Names × Source)
  | 0, _, _, _, _, _, _ => none
  | fuel + 1, indent, level, compact, names, p, s => do
    let t ← s.next indent
    let fresh := decide (s.line < t.line) || s.column = 0
    let inside := decide (indent < (t.column : Int)) ||
      (level && (t.column : Int) = indent && t.startsMark '-')
    if t.atEnd ∨ (fresh ∧ !inside) then
      let n := p.plain []
      some (n, names.note p n, t)
    else blockContent fuel indent level (fresh || compact) names p t

/--
A node that starts here; it may be a list or a map with its entries in this column if
`begins`.
-/
def blockContent : Nat → Int → Bool → Bool → Names → Properties → Source →
    Option (Node × Names × Source)
  | 0, _, _, _, _, _, _ => none
  | fuel + 1, indent, level, begins, names, p, s =>
    if s.startsMark '-' then
      if begins then do
        let (items, names, r) ← blockItems fuel s.column names s
        let n := Node.list items
        some (n, names.note p n, r)
      else none
    else if begins ∧ (s.startsMark '?' ∨ (key? indent names s).isSome) then do
      let (entries, names, r) ← blockEntries fuel s.column names [] s
      let n := Node.map entries
      some (n, names.note p n, r)
    else if startsProperty s then do
      let (p, r) ← property? false names p s
      if startsGap r.rest then blockNode fuel indent level false names p r else none
    else do
      let (n, names, r) ←
        match s.rest with
        | '|' :: _ | '>' :: _ =>
          (blockScalar indent s).map fun q =>
            (Node.scalar (.text (String.ofList q.1)), names, q.2)
        | '[' :: _ | '{' :: _ => flowNode fuel indent names .bare s
        | _ => (atom false indent names p s).map fun q => (q.1, names, q.2)
      some (n, names.note p n, ← r.nextLine indent)

/-- The items of a list with its marks in a column. -/
def blockItems : Nat → Nat → Names → Source → Option (List Node × Names × Source)
  | 0, _, _, _ => none
  | fuel + 1, column, names, s => do
    let s := s.skip 1
    if !isEntrySetOff s then none
    let (n, names, r) ← blockNode fuel column false true names .bare s
    if !r.atEnd ∧ r.column = column ∧ r.startsMark '-' then
      let (items, names, r) ← blockItems fuel column names r
      some (n :: items, names, r)
    else if r.atEnd ∨ r.column ≤ column then some ([n], names, r)
    else none

/-- The entries of a map with its keys in a column. -/
def blockEntries : Nat → Nat → Names → List (Scalar × Node) → Source →
    Option (List (Scalar × Node) × Names × Source)
  | 0, _, _, _, _ => none
  | fuel + 1, column, names, entries, s => do
    let (k, v, names, r) ← blockEntry fuel column names s
    let entries ← addEntry entries k v
    if r.atEnd ∨ r.column < column then some (entries, names, r)
    else if r.column = column then blockEntries fuel column names entries r
    else none

/-- A key and its value. The key may be marked, and then it may be any node. -/
def blockEntry : Nat → Nat → Names → Source → Option (Node × Node × Names × Source)
  | 0, _, _, _ => none
  | fuel + 1, column, names, s =>
    if s.startsMark '?' then do
      let (k, names, r) ← blockNode fuel column true true names .bare (s.skip 1)
      if !r.atEnd ∧ r.column = column ∧ r.startsMark ':' then
        let (v, names, r) ← blockNode fuel column true true names .bare (r.skip 1)
        some (k, v, names, r)
      else some (k, .scalar .null, names, r)
    else do
      let (k, names, r) ← key? column names s
      if !isSetOff r then none
      let (v, names, r) ← blockNode fuel column true false names .bare r
      some (k, v, names, r)

end

end BenchHistory.Settings.Yaml
