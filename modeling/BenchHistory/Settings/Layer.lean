import BenchHistory.Settings.Value
import BenchHistory.Text.Fold

/-!
# Laying settings over each other

Each source gives values under keys. A key may be a path through tables; if it
cannot be read as one it is a name as it stands. Tables are merged, everything else
is replaced, and names are kept in small letters.
-/

namespace BenchHistory.Settings

/-- The characters of a name in a path. -/
def isNameChar (c : Char) : Bool :=
  c.isAlphanum || c = ' ' || c = '_' || c = '-'

/--
A step of a path: to a member of a table, or to an item of an array, from its end if
negative.
-/
inductive Step where
  | member (name : String)
  | item (index : Int)
deriving DecidableEq, Repr

/-- A name at the start of a text. -/
def name? (cs : List Char) : Option (String × List Char) :=
  let (name, rest) := cs.span isNameChar
  if name = [] then none else some (String.ofList name, rest)

/-- An integer of 64 bits and its closing bracket, blanks around the integer. -/
def index? (cs : List Char) : Option (Int × List Char) := do
  let skip := List.dropWhile fun c => c = ' ' || c = '\t'
  let (sign, rest) := match skip cs with
    | '-' :: r => (['-'], r)
    | r => ([], r)
  let (digits, rest) := rest.span Char.isDigit
  let n ← int64? (sign ++ digits)
  match skip rest with
  | ']' :: r => some (n, r)
  | _ => none

/-- The steps that follow the first name of a path. -/
def steps? : Nat → List Char → Option (List Step)
  | _, [] => some []
  | 0, _ => none
  | fuel + 1, '.' :: cs => do
    let (name, rest) ← name? cs
    return .member name :: (← steps? fuel rest)
  | fuel + 1, '[' :: cs => do
    let (n, rest) ← index? cs
    return .item n :: (← steps? fuel rest)
  | _, _ => none

/--
The steps of a path, if a key is one: a name, then names behind points and numbers in
brackets.
-/
def path? (key : String) : Option (List Step) := do
  let (name, rest) ← name? key.toList
  return .member name :: (← steps? rest.length rest)

mutual

/-- The value with another one at a name; a value that is no table becomes one. -/
def merge (name : String) (root : Value) : Value → Value
  | .table incoming =>
    let ms := root.members
    let k := Text.lower name
    let target := (Keyed.get? k ms).getD (.table [])
    let target := match incoming with
      | [] => target
      | incoming => mergeAll target incoming
    .table (Keyed.put k target ms)
  | v => .table (Keyed.put (Text.lower name) v root.members)

/-- The value with the members of a table in it. -/
def mergeAll (root : Value) : List (String × Value) → Value
  | [] => root
  | (k, v) :: rest => mergeAll (merge k root v) rest

end

/-- The place that an index stands for in an array of some size. -/
def place? (index : Int) (size : Nat) : Option Nat :=
  if 0 ≤ index then some index.toNat
  else if index.natAbs ≤ size then some (size - index.natAbs)
  else none

/--
Items with one of them changed, null items being added up to it; there is none before
the first.
-/
def changeItem (index : Int) (change : Value → Value) (items : List Value) : List Value :=
  match place? index items.length with
  | none => items
  | some n => (items ++ List.replicate (n + 1 - items.length) Value.null).modify n change

/--
The value with another one at the end of a path; what is in the way becomes a table or
an array.
-/
def setPath (v : Value) (root : Value) : List Step → Value
  | [] => root
  | [.member name] => merge name root v
  | [.item n] => .array (changeItem n (fun _ => v) root.items)
  | .member name :: rest =>
    let ms := root.members
    let k := Text.lower name
    .table (Keyed.put k (setPath v ((Keyed.get? k ms).getD .null) rest) ms)
  | .item n :: rest => .array (changeItem n (fun w => setPath v w rest) root.items)

/-- The value with another one under a key of a source. -/
def setKey (root : Value) (entry : String × Value) : Value :=
  setPath entry.2 root ((path? entry.1).getD [.member entry.1])

/-- The values of a source laid over those that are there. -/
def lay (root : Value) (source : List (String × Value)) : Value :=
  source.foldl setKey root

/-! ## Environment variables -/

/-- The start of the names of variables that are settings, in small letters. -/
def variableStart : List Char :=
  "benchwatch__".toList

/-- A name with a point for each pair of underscores. -/
def pointed : List Char → List Char
  | '_' :: '_' :: cs => '.' :: pointed cs
  | c :: cs => c :: pointed cs
  | [] => []

/-- The value of a variable: a truth value, an integer, a float, or else its text. -/
def variableValue (s : String) : Value :=
  let w := Text.lower s
  if w = "true" then .bool true
  else if w = "false" then .bool false
  else
    match int64? s.toList with
    | some n => .int n
    | none =>
      match float? s.toList with
      | some x => .float x
      | none => .text s

/-- The setting that a variable stands for, if it stands for one. -/
def settingOf? (entry : String × String) : Option (String × Value) :=
  (Text.afterStart? variableStart (Text.lower entry.1).toList).map fun rest =>
    (String.ofList (pointed rest), variableValue entry.2)

/-- The settings in an environment. Of two names that differ in case only the last one counts. -/
def ofEnvironment (env : List (String × String)) : List (String × Value) :=
  Keyed.putAll [] (env.filterMap settingOf?)

end BenchHistory.Settings
