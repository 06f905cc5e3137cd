import BenchHistory.History.Basic
import BenchHistory.Run.Json

/-!
# A history as JSON

The object of a history has the members `lastUpdate`, `repoUrl` and `entries`, and
then those that it has no field for. All of them may be missing.
-/

namespace BenchHistory.History

open Decode

def toJson (h : History) : Json :=
  .object ([("lastUpdate", .int h.lastUpdate), ("repoUrl", .string h.repoUrl),
    ("entries", .object (h.entries.map fun e => (e.1, .array (e.2.map Run.toJson))))] ++ h.other)

/-- What was read of a history so far. -/
structure Slots where
  lastUpdate : Option Int
  repoUrl : Option String
  entries : Option (Keyed (List Run))
  other : Keyed Json

/-- Reads one more member. -/
def Slots.take (s : Slots) : String × Draft → Except ReadError Slots
  | ("lastUpdate", d) => do
    return { s with lastUpdate := ← fill "lastUpdate" s.lastUpdate int64 d }
  | ("repoUrl", d) => do return { s with repoUrl := ← fill "repoUrl" s.repoUrl string d }
  | ("entries", d) => do
    return { s with entries := ← fill "entries" s.entries (keyed (list Run.decode)) d }
  | (k, d) => do return { s with other := ← keep s.other k d }

/-- The history, with nothing in place of what is missing. -/
def Slots.finish (s : Slots) : History :=
  ⟨s.lastUpdate.getD 0, s.repoUrl.getD "", s.entries.getD [], s.other⟩

def decode : Decoder History
  | .object ms => do return (← ms.foldlM Slots.take ⟨none, none, none, []⟩).finish
  | d => .error (mismatch "struct BenchmarkData" d)

end BenchHistory.History
