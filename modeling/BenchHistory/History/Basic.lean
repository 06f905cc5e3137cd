import BenchHistory.Run.Problem

/-!
# The history of a repository

One document holds the runs of every tool in the order in which they were
published. Runs are only ever added at the end of a tool's list. A run is known by
its commit and date: one that is published again is not stored again.
-/

namespace BenchHistory

/-- The runs of every tool, and the time of the latest one. -/
structure History where
  lastUpdate : Int
  repoUrl : String
  entries : Keyed (List Run)
  other : Keyed Json
deriving Repr

/-- What became of a run that was to be added. -/
inductive Appended where
  | added (index : Nat)
  | duplicate (index : Nat)
deriving DecidableEq, Repr

/-- Why a run is not added. -/
inductive AppendError where
  | malformed (problems : List Problem)
  | outOfOrder (tool commitId : String) (date lastDate : Int)
deriving DecidableEq, Repr

def Appended.index : Appended → Nat
  | .added i => i
  | .duplicate i => i

def Appended.isAdded : Appended → Bool
  | .added _ => true
  | .duplicate _ => false

def AppendError.message : AppendError → String
  | .malformed problems => Problem.summary problems
  | .outOfOrder tool commitId date lastDate =>
    "run for commit " ++ commitId ++ " dated " ++ toString date ++ " is older than the last " ++
      tool ++ " run (" ++ toString lastDate ++ ")"

namespace History

def empty (repoUrl : String) : History :=
  ⟨0, repoUrl, [], []⟩

/-- The runs of a tool, the oldest first. -/
def runs (h : History) (tool : String) : List Run :=
  (Keyed.get? tool h.entries).getD []

/-- The tools, in the order of their first runs. -/
def tools (h : History) : List String :=
  Keyed.keys h.entries

/-- The number of all runs. -/
def size (h : History) : Nat :=
  (h.entries.flatMap fun e => e.2).length

/-- Records where the repository is, unless that is known. -/
def setRepoUrl (h : History) (url : String) : History :=
  if h.repoUrl = "" then { h with repoUrl := url } else h

/-- The place of a publication in a tool's list. -/
def position? (h : History) (tool : String) (publication : String × Int) : Option Nat :=
  (h.runs tool).findIdx? fun r => r.publication = publication

/-- The tool's latest run, if it is younger than the given date. -/
def younger? (h : History) (tool : String) (date : Int) : Option Run :=
  (h.runs tool).getLast?.filter fun last => date < last.date

/-- The run as it is stored: it names its tool. -/
def stored (tool : String) (r : Run) : Run :=
  if r.tool = "" then { r with tool := tool } else r

/-- Adds a run at the end of a tool's list, without looking at it. -/
def push (h : History) (tool : String) (r : Run) : History :=
  { h with
    lastUpdate := max h.lastUpdate r.date
    entries := Keyed.put tool (h.runs tool ++ [r]) h.entries }

/--
Adds a run to a tool's list. It must be well formed; one that was published before
is found and left alone; any other must not be older than the latest.
-/
def append (h : History) (tool : String) (r : Run) : Except AppendError (Appended × History) :=
  match r.problems tool with
  | p :: ps => .error (.malformed (p :: ps))
  | [] =>
    match h.position? tool r.publication with
    | some i => .ok (.duplicate i, h)
    | none =>
      match h.younger? tool r.date with
      | some last => .error (.outOfOrder tool r.commit.id r.date last.date)
      | none => .ok (.added (h.runs tool).length, h.push tool (stored tool r))

/--
The latest run of a tool, if the given one repeats it: the same commit, the same
samples, and not more than so many milliseconds later.
-/
def retried? (h : History) (tool : String) (r : Run) (windowMs : Int) : Option Run :=
  (h.runs tool).getLast?.filter fun last =>
    let elapsed := r.date - last.date
    last.commit.id == r.commit.id && last.benches.length == r.benches.length &&
      (last.benches.zip r.benches).all (fun p => p.1.same p.2) &&
      decide (0 ≤ elapsed ∧ elapsed ≤ windowMs)

/-- The same history, whatever the order of the tools and of other members. -/
def same (a b : History) : Bool :=
  a.lastUpdate == b.lastUpdate && a.repoUrl == b.repoUrl &&
    a.entries.length == b.entries.length &&
    a.entries.all (fun e =>
      match Keyed.get? e.1 b.entries with
      | some rs => e.2.length == rs.length && (e.2.zip rs).all fun p => p.1.same p.2
      | none => false) &&
    Json.sameObject a.other b.other

end History

end BenchHistory
