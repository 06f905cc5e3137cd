import BenchHistory.Path
import BenchHistory.Storage

/-!
# A snapshot of files

What was found at some paths before a command, and the writes that the command makes
since. Writing to real files can fail. Then the command is run again on the same
snapshot, which now refuses that write; the writes before it come out the same.
-/

namespace BenchHistory

/-- A text for a path. -/
structure Write where
  path : String
  text : String
deriving DecidableEq, Repr

/--
What was found at paths, the writes that failed with the path they failed at, and the
writes made.
-/
structure Snapshot where
  found : List (String × FileText)
  failures : List (Write × String)
  writes : List Write
deriving Repr

namespace Snapshot

/-- What was found at paths, with no writes yet. -/
def ofFound (found : List (String × FileText)) : Snapshot :=
  ⟨found, [], []⟩

/-- Whether two paths have the same names. -/
def samePath (p q : String) : Bool :=
  Path.names p.toList = Path.names q.toList

/-- The text that was written last to a path, or else what was found there. -/
def read (s : Snapshot) (path : String) : FileText :=
  match s.writes.reverse.find? fun w => samePath w.path path with
  | some w => .text w.text
  | none =>
    match s.found.find? fun f => f.1 = path with
    | some f => f.2
    | none => .absent

/-- Makes a write unless it is known to fail. -/
def write (s : Snapshot) (path text : String) : Except String Snapshot :=
  match s.failures.find? fun f => f.1 = ⟨path, text⟩ with
  | some f => .error f.2
  | none => .ok { s with writes := s.writes ++ [⟨path, text⟩] }

/-- The snapshot with one more write that is known to fail. -/
def fail (s : Snapshot) (w : Write) (place : String) : Snapshot :=
  { s with failures := s.failures ++ [(w, place)] }

instance : Storage Snapshot where
  read := read
  write := write

variable {s s' : Snapshot} {path text : String}

theorem read_write (h : s.write path text = .ok s') : s'.read path = .text text := by
  unfold write at h
  split at h
  · cases h
  · cases h
    simp [read, samePath]

theorem read_write_of_ne {other : String} (hne : samePath path other = false)
    (h : s.write path text = .ok s') : s'.read other = s.read other := by
  unfold write at h
  split at h
  · cases h
  · cases h
    simp [read, hne]

theorem failures_write (h : s.write path text = .ok s') : s'.failures = s.failures := by
  unfold write at h
  split at h
  · cases h
  · cases h
    rfl

theorem exists_write (hnone : s.failures = []) (path text : String) :
    ∃ s', s.write path text = .ok s' := by
  unfold write
  rw [hnone]
  exact ⟨_, rfl⟩

end Snapshot

end BenchHistory
