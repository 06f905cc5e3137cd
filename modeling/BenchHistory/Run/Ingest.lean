import BenchHistory.Run.Json
import BenchHistory.Run.Problem
import BenchHistory.Text.Blank

/-!
# Taking runs in

A job hands over either a complete run or the output of a harness, a list of
samples, with the commit that it measured. Both are looked at as JSON values of
any shape, so that all problems are found. A sample with problems of its own is
left out of the run that is then checked as a whole.
-/

namespace BenchHistory.Ingest

/-- A part that was read, and the problems met on the way. -/
abbrev Found (α : Type) := α × List Problem

/-! ## Samples -/

/-- An optional text; `null` counts as absent. -/
def optionalText (members : List (String × Json)) (field path : String) (index : Nat) :
    Found (Option String) :=
  match Keyed.get? field members with
  | none => (none, [])
  | some .null => (none, [])
  | some (.string s) => (some s, [])
  | some j => (none, [.textInvalid path index field j.compact])

/-- The name of a sample, empty if it has none. -/
def nameOf (members : List (String × Json)) (path : String) (index : Nat) : Found String :=
  match Keyed.get? "name" members with
  | some (.string s) => if Text.allBlank s then ("", [.nameEmpty path index]) else (s, [])
  | _ => ("", [.nameMissing path index])

/-- The value of a sample, zero if it has none. -/
def valueOf (members : List (String × Json)) (path : String) (index : Nat) (name : String) :
    Found Float :=
  match Keyed.get? "value" members with
  | some (.number n) => (n.toFloat, [])
  | _ => (0, [.valueMissing path index name])

def sampleFields : List String :=
  ["name", "value", "unit", "range", "extra"]

/-- The members for which a record has no field. -/
def others (fields : List String) (members : List (String × Json)) : List (String × Json) :=
  members.filter fun e => e.1 ∉ fields

/-- One sample, unless it has problems. -/
def sample (path : String) (index : Nat) : Json → Found (Option Sample)
  | .object ms =>
    let (name, nameProblems) := nameOf ms path index
    let (value, valueProblems) := valueOf ms path index name
    let (unit, unitProblems) := optionalText ms "unit" path index
    let (range, rangeProblems) := optionalText ms "range" path index
    let (extra, extraProblems) := optionalText ms "extra" path index
    let problems := nameProblems ++ valueProblems ++ unitProblems ++ rangeProblems ++ extraProblems
    if problems = [] then
      (some ⟨name, value, range, unit.getD "", extra, others sampleFields ms⟩, [])
    else (none, problems)
  | _ => (none, [.sampleInvalid path index])

/-- The samples without problems of a list from a place on, and the problems of the others. -/
def samplesFrom (path : String) (index : Nat) : List Json → Found (List Sample)
  | [] => ([], [])
  | j :: js =>
    let (s, problems) := sample path index j
    let (rest, more) := samplesFrom path (index + 1) js
    (s.toList ++ rest, problems ++ more)

def samples (path : String) : Json → Found (List Sample)
  | .array js => samplesFrom path 0 js
  | _ => ([], [.samplesInvalid path])

/-! ## Runs -/

/-- Adds the problems of the run as a whole that were not met before. -/
def addProblems (found : List Problem) : List Problem → List Problem
  | [] => found
  | p :: ps => addProblems (if p ∈ found then found else found ++ [p]) ps

/-- The run, unless there is a problem with it or with its parts. -/
def finish (tool : String) (r : Run) (found : List Problem) : Except (List Problem) Run :=
  match addProblems found (r.problems tool) with
  | [] => .ok r
  | problems => .error problems

/-- A run that has been read, unless there is a problem with it. -/
def checked (tool : String) (r : Run) : Except (List Problem) Run :=
  match r.problems tool with
  | [] => .ok r
  | problems => .error problems

/-- A run from the output of a harness. -/
def ofHarness (tool : String) (date : Int) (commit : Commit) (output : Json) :
    Except (List Problem) Run :=
  let (benches, problems) := samples "output" output
  finish tool ⟨commit, date, tool, benches, []⟩
    (listIf (Text.allBlank commit.id) .commitIdEmpty ++ problems)

/-- The commit of a run, with nothing in it if it cannot be read. -/
def commitOf (members : List (String × Json)) : Found Commit :=
  match Keyed.get? "commit" members with
  | none => (Commit.ofId "" "", [.commitMissing])
  | some j =>
    match Commit.decode j.toDraft with
    | .ok c => (c, [])
    | .error e => (Commit.ofId "" "", [.commitInvalid e])

/-- The date of a run: its own one if it has one, which must be positive. -/
def dateOf (default : Int) (members : List (String × Json)) : Found Int :=
  match Keyed.get? "date" members with
  | none => (default, [])
  | some (.number (.whole n)) =>
    if 0 < n ∧ n < 0x8000000000000000 then (n, []) else (0, [.dateInvalid (Json.int n).compact])
  | some j => (0, [.dateInvalid j.compact])

/-- The tool of a run: its own one if it names one. -/
def toolOf (default : String) (members : List (String × Json)) : Found String :=
  match Keyed.get? "tool" members with
  | none => (default, [])
  | some (.string s) => (s, [])
  | some j => ("", [.toolInvalid j.compact])

def benchesOf (members : List (String × Json)) : Found (List Sample) :=
  match Keyed.get? "benches" members with
  | none => ([], [.benchesMissing])
  | some j => samples "benches" j

def runFields : List String :=
  ["commit", "date", "tool", "benches"]

/-- A complete run; the date is used if the run has none. -/
def ofRun (tool : String) (date : Int) : Json → Except (List Problem) Run
  | .object ms =>
    let (commit, commitProblems) := commitOf ms
    let (date, dateProblems) := dateOf date ms
    let (runTool, toolProblems) := toolOf tool ms
    let (benches, benchProblems) := benchesOf ms
    finish tool ⟨commit, date, runTool, benches, others runFields ms⟩
      (commitProblems ++ dateProblems ++ toolProblems ++ benchProblems)
  | _ => .error [.notAnObject]

end BenchHistory.Ingest
