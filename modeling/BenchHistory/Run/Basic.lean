import BenchHistory.Json.Basic
import BenchHistory.Series.Basic

/-!
# Runs

A run is what one benchmark job measured: the commit, the time of publication and
the samples in the order of the harness. Every record keeps the members that it
has no field for, so that they are written back.
-/

namespace BenchHistory

/-- The author or committer of a commit. -/
structure Identity where
  email : Option String
  name : Option String
  username : Option String
  other : Keyed Json
deriving Repr

/-- The commit that a run measured. -/
structure Commit where
  author : Option Identity
  committer : Option Identity
  distinct : Option Bool
  id : String
  message : String
  timestamp : Option String
  treeId : Option String
  url : Option String
  other : Keyed Json
deriving Repr

/-- One measured value. -/
structure Sample where
  name : String
  value : Float
  range : Option String
  unit : String
  extra : Option String
  other : Keyed Json
deriving Repr

/-- One execution of a benchmark suite; the date counts milliseconds since 1970. -/
structure Run where
  commit : Commit
  date : Int
  tool : String
  benches : List Sample
  other : Keyed Json
deriving Repr

/-- The part of a commit id that reports show. -/
def shortId (id : String) : String :=
  String.ofList (id.toList.take 7)

namespace Identity

/-- The same fields and the same other members, in whatever order. -/
def same (a b : Identity) : Bool :=
  a.email == b.email && a.name == b.name && a.username == b.username &&
    Json.sameObject a.other b.other

/-- The same of optional identities. -/
def sameOption : Option Identity → Option Identity → Bool
  | none, none => true
  | some a, some b => a.same b
  | _, _ => false

end Identity

namespace Commit

/-- A commit with an id and a message alone. -/
def ofId (id message : String) : Commit :=
  ⟨none, none, none, id, message, none, none, none, []⟩

/-- The same fields and the same other members, in whatever order. -/
def same (a b : Commit) : Bool :=
  Identity.sameOption a.author b.author && Identity.sameOption a.committer b.committer &&
    a.distinct == b.distinct && a.id == b.id && a.message == b.message &&
    a.timestamp == b.timestamp && a.treeId == b.treeId && a.url == b.url &&
    Json.sameObject a.other b.other

end Commit

namespace Sample

/-- What tells a sample from the others of its run. -/
def metric (s : Sample) : String × Option String :=
  (s.name, s.extra)

/-- The series that the sample belongs to. -/
def key (tool : String) (s : Sample) : SeriesKey :=
  ⟨tool, s.name, s.extra⟩

/-- The same fields, values as floats compare, and the same other members in whatever order. -/
def same (a b : Sample) : Bool :=
  a.name == b.name && a.value == b.value && a.range == b.range && a.unit == b.unit &&
    a.extra == b.extra && Json.sameObject a.other b.other

end Sample

namespace Run

/-- The first sample of a metric. -/
def sample? (r : Run) (name : String) (extra : Option String) : Option Sample :=
  r.benches.find? fun s => s.metric = (name, extra)

/-- The commit and the date, which identify a publication. -/
def publication (r : Run) : String × Int :=
  (r.commit.id, r.date)

/-- The same fields, samples in the same order, and the same other members in whatever order. -/
def same (a b : Run) : Bool :=
  a.commit.same b.commit && a.date == b.date && a.tool == b.tool &&
    a.benches.length == b.benches.length &&
    (a.benches.zip b.benches).all (fun p => p.1.same p.2) && Json.sameObject a.other b.other

end Run

end BenchHistory
