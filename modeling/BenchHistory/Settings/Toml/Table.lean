import BenchHistory.Settings.Value

/-!
# Tables while they are written

A TOML table may be written in pieces: by a header, by headers of tables inside it,
and by keys with points. Which pieces may follow each other depends on how the table
came into being, so this is remembered until the whole text has been read.
-/

namespace BenchHistory.Settings.Toml

/--
How a table came into being: by its own header, on the way of another header, or by a
key with points.
-/
inductive Origin where
  | header
  | implied
  | dotted
deriving DecidableEq, Repr

/-- What stands under a key. -/
inductive Node where
  | value (v : Value)
  | table (origin : Origin) (members : List (String × Node))
  | tables (each : List (List (String × Node)))

/-- The members of a table. -/
abbrev Members := Keyed Node

instance : Inhabited Node := ⟨.value .null⟩

mutual

def Node.toValue : Node → Value
  | .value v => v
  | .table _ ms => .table (membersToValue ms)
  | .tables each => .array (tablesToValue each)

def membersToValue : List (String × Node) → List (String × Value)
  | [] => []
  | (k, n) :: ms => (k, n.toValue) :: membersToValue ms

/-- The values of tables in a row. -/
def tablesToValue : List (List (String × Node)) → List Value
  | [] => []
  | ms :: each => .table (membersToValue ms) :: tablesToValue each

end

/-- Changes the last of tables in a row. -/
def updateLast (f : Members → Option Members) (each : List Members) : Option (List Members) :=
  match each.reverse with
  | [] => none
  | last :: earlier => (f last).map fun ms => (ms :: earlier).reverse

/--
Adds a value under a key with points. What the points lead through must have come from
such keys.
-/
def insert (v : Value) : List String → Members → Option Members
  | [], _ => none
  | [k], ms => if k ∈ Keyed.keys ms then none else some (ms ++ [(k, .value v)])
  | k :: path, ms =>
    match Keyed.get? k ms with
    | none => (insert v path []).map fun sub => ms ++ [(k, .table .dotted sub)]
    | some (.table origin sub) =>
      if origin = .dotted ∨ (origin = .implied ∧ 1 < path.length) then
        (insert v path sub).map fun sub => Keyed.put k (.table origin sub) ms
      else none
    | some (.tables each) =>
      if 1 < path.length then
        (updateLast (insert v path) each).map fun each => Keyed.put k (.tables each) ms
      else none
    | some (.value _) => none

/-- Changes the table that a header's path leads to; tables on the way come into being. -/
def update (f : Members → Option Members) : List String → Members → Option Members
  | [], ms => f ms
  | k :: path, ms =>
    match Keyed.get? k ms with
    | none => (update f path []).map fun sub => ms ++ [(k, .table .implied sub)]
    | some (.table origin sub) =>
      (update f path sub).map fun sub => Keyed.put k (.table origin sub) ms
    | some (.tables each) =>
      (updateLast (update f path) each).map fun each => Keyed.put k (.tables each) ms
    | some (.value _) => none

/-- Begins a table by its header. It may exist already if another header only led through it. -/
def openTable (k : String) (ms : Members) : Option Members :=
  match Keyed.get? k ms with
  | none => some (ms ++ [(k, .table .header [])])
  | some (.table .implied sub) => some (Keyed.put k (.table .header sub) ms)
  | some _ => none

/-- Begins one more of tables in a row. -/
def openNext (k : String) (ms : Members) : Option Members :=
  match Keyed.get? k ms with
  | none => some (ms ++ [(k, .tables [[]])])
  | some (.tables each) => some (Keyed.put k (.tables (each ++ [[]])) ms)
  | some _ => none

end BenchHistory.Settings.Toml
