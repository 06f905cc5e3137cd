import BenchHistory.Json.Decode
import BenchHistory.Run.Basic

/-!
# Runs as JSON

Each record is an object: its fields in order, optional ones only if they have a
value, then the members that it has no field for. Reading takes the fields in any
order and refuses one that comes twice.
-/

namespace BenchHistory

open Decode

/-- An optional text as a member. -/
def textField (name : String) (s : Option String) : List (String × Json) :=
  Json.field? name (s.map .string)

/-- The largest integer up to which every integer is a float. -/
def maxExact : Nat := 0x1FFFFFFFFFFFFF

/-- A measured value. One that is whole and small enough is written as an integer. -/
def measured (x : Float) : Json :=
  match wholeValue? x with
  | some n => if n.natAbs ≤ maxExact then .int n else .real x
  | none => .real x

namespace Identity

def toJson (i : Identity) : Json :=
  .object (textField "email" i.email ++ textField "name" i.name ++
    textField "username" i.username ++ i.other)

/-- What was read of an identity so far. -/
structure Slots where
  email : Option (Option String)
  name : Option (Option String)
  username : Option (Option String)
  other : Keyed Json

def Slots.take (s : Slots) : String × Draft → Except ReadError Slots
  | ("email", d) => do return { s with email := ← fill "email" s.email (optional string) d }
  | ("name", d) => do return { s with name := ← fill "name" s.name (optional string) d }
  | ("username", d) => do
    return { s with username := ← fill "username" s.username (optional string) d }
  | (k, d) => do return { s with other := ← keep s.other k d }

def Slots.finish (s : Slots) : Identity :=
  ⟨s.email.join, s.name.join, s.username.join, s.other⟩

def decode : Decoder Identity
  | .object ms => do return (← ms.foldlM Slots.take ⟨none, none, none, []⟩).finish
  | d => .error (mismatch "struct CommitIdentity" d)

end Identity

namespace Commit

/-- The object of a commit. -/
def toJson (c : Commit) : Json :=
  .object (Json.field? "author" (c.author.map Identity.toJson) ++
    Json.field? "committer" (c.committer.map Identity.toJson) ++
    Json.field? "distinct" (c.distinct.map .bool) ++
    [("id", .string c.id), ("message", .string c.message)] ++
    textField "timestamp" c.timestamp ++ textField "tree_id" c.treeId ++
    textField "url" c.url ++ c.other)

/-- What was read of a commit so far. -/
structure Slots where
  author : Option (Option Identity)
  committer : Option (Option Identity)
  distinct : Option (Option Bool)
  id : Option String
  message : Option String
  timestamp : Option (Option String)
  treeId : Option (Option String)
  url : Option (Option String)
  other : Keyed Json

/-- Reads one more member. -/
def Slots.take (s : Slots) : String × Draft → Except ReadError Slots
  | ("author", d) => do
    return { s with author := ← fill "author" s.author (optional Identity.decode) d }
  | ("committer", d) => do
    return { s with committer := ← fill "committer" s.committer (optional Identity.decode) d }
  | ("distinct", d) => do
    return { s with distinct := ← fill "distinct" s.distinct (optional bool) d }
  | ("id", d) => do return { s with id := ← fill "id" s.id string d }
  | ("message", d) => do return { s with message := ← fill "message" s.message string d }
  | ("timestamp", d) => do
    return { s with timestamp := ← fill "timestamp" s.timestamp (optional string) d }
  | ("tree_id", d) => do
    return { s with treeId := ← fill "tree_id" s.treeId (optional string) d }
  | ("url", d) => do return { s with url := ← fill "url" s.url (optional string) d }
  | (k, d) => do return { s with other := ← keep s.other k d }

/-- The commit; a missing id or message is empty. -/
def Slots.finish (s : Slots) : Commit :=
  ⟨s.author.join, s.committer.join, s.distinct.join, s.id.getD "", s.message.getD "",
    s.timestamp.join, s.treeId.join, s.url.join, s.other⟩

def Slots.empty : Slots :=
  ⟨none, none, none, none, none, none, none, none, []⟩

def decode : Decoder Commit
  | .object ms => do return (← ms.foldlM Slots.take Slots.empty).finish
  | d => .error (mismatch "struct Commit" d)

end Commit

namespace Sample

def toJson (s : Sample) : Json :=
  .object ([("name", .string s.name), ("value", measured s.value)] ++
    textField "range" s.range ++ [("unit", .string s.unit)] ++ textField "extra" s.extra ++
    s.other)

/-- What was read of a sample so far. -/
structure Slots where
  name : Option String
  value : Option Float
  range : Option (Option String)
  unit : Option String
  extra : Option (Option String)
  other : Keyed Json

/-- Reads one more member. -/
def Slots.take (s : Slots) : String × Draft → Except ReadError Slots
  | ("name", d) => do return { s with name := ← fill "name" s.name string d }
  | ("value", d) => do return { s with value := ← fill "value" s.value float d }
  | ("range", d) => do return { s with range := ← fill "range" s.range (optional string) d }
  | ("unit", d) => do return { s with unit := ← fill "unit" s.unit string d }
  | ("extra", d) => do return { s with extra := ← fill "extra" s.extra (optional string) d }
  | (k, d) => do return { s with other := ← keep s.other k d }

/-- The sample; name and value must be there, and a missing unit is empty. -/
def Slots.finish (s : Slots) : Except ReadError Sample := do
  let name ← required "name" s.name
  let value ← required "value" s.value
  return ⟨name, value, s.range.join, s.unit.getD "", s.extra.join, s.other⟩

def decode : Decoder Sample
  | .object ms => do (← ms.foldlM Slots.take ⟨none, none, none, none, none, []⟩).finish
  | d => .error (mismatch "struct Sample" d)

end Sample

namespace Run

def toJson (r : Run) : Json :=
  .object ([("commit", r.commit.toJson), ("date", .int r.date), ("tool", .string r.tool),
    ("benches", .array (r.benches.map Sample.toJson))] ++ r.other)

/-- What was read of a run so far. -/
structure Slots where
  commit : Option Commit
  date : Option Int
  tool : Option String
  benches : Option (List Sample)
  other : Keyed Json

/-- Reads one more member. -/
def Slots.take (s : Slots) : String × Draft → Except ReadError Slots
  | ("commit", d) => do return { s with commit := ← fill "commit" s.commit Commit.decode d }
  | ("date", d) => do return { s with date := ← fill "date" s.date int64 d }
  | ("tool", d) => do return { s with tool := ← fill "tool" s.tool string d }
  | ("benches", d) => do
    return { s with benches := ← fill "benches" s.benches (list Sample.decode) d }
  | (k, d) => do return { s with other := ← keep s.other k d }

def Slots.finish (s : Slots) : Except ReadError Run := do
  let commit ← required "commit" s.commit
  let date ← required "date" s.date
  let tool ← required "tool" s.tool
  let benches ← required "benches" s.benches
  return ⟨commit, date, tool, benches, s.other⟩

def decode : Decoder Run
  | .object ms => do (← ms.foldlM Slots.take ⟨none, none, none, none, []⟩).finish
  | d => .error (mismatch "struct Run" d)

def text (r : Run) : String :=
  r.toJson.compact

end Run

end BenchHistory
