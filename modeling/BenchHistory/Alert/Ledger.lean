import BenchHistory.Json.Decode
import BenchHistory.Storage

/-!
# The ledger of delivered alerts

The keys of all alerts that were delivered, in ascending order. With a path the
ledger is kept in a file as well, which is written whole after each new key. If
that fails the key is forgotten, so that file and memory always agree.
-/

namespace BenchHistory

/-- Why a ledger cannot be read or written. -/
inductive LedgerError where
  | file (path : String)
  | text (e : ReadError)
deriving DecidableEq, Repr

/-- The keys, and the path of the file that they are kept in. -/
structure Ledger where
  path : Option String
  keys : List String
deriving DecidableEq, Repr

namespace Ledger

/-- A ledger that is kept in no file. -/
def inMemory : Ledger :=
  ⟨none, []⟩

/-- A key put where it belongs in ascending order; one that is there stays alone. -/
def insert (key : String) : List String → List String
  | [] => [key]
  | k :: ks =>
    if key = k then k :: ks else if key < k then key :: k :: ks else k :: insert key ks

def toJson (keys : List String) : Json :=
  .object [("emitted", .array (keys.map .string))]

def render (keys : List String) : String :=
  (toJson keys).pretty

open Decode

/-- A set of keys, whatever their order. -/
def keySet : Decoder (List String) :=
  fun d => (list string d).map fun ks => ks.foldl (fun s k => insert k s) []

/-- Reads one more member. -/
def takeMember (s : Option (List String)) : String × Draft → Except ReadError (Option (List String))
  | ("emitted", d) => fill "emitted" s keySet d
  | (_, d) => do pass d; return s

/-- Reads the keys of a ledger; without a member for them there are none. -/
def decode : Decoder (List String)
  | .object ms => do return (← ms.foldlM takeMember none).getD []
  | .array items => do
    let keys ← itemOr [] keySet items 0
    noMore items 1
    return keys
  | d => .error (mismatch "struct LedgerDocument" d)

variable {σ : Type} [Storage σ]

/-- Loads the ledger of a path. An absent file is a ledger without keys. -/
def load (disk : σ) (path : String) : Except LedgerError Ledger :=
  match Storage.read disk path with
  | .absent => .ok ⟨some path, []⟩
  | .refused => .error (.file path)
  | .text s =>
    match Decode.read decode s.toList with
    | .ok keys => .ok ⟨some path, keys⟩
    | .error e => .error (.text e)

/-- Whether an alert was delivered. -/
def contains (l : Ledger) (key : String) : Bool :=
  key ∈ l.keys

/--
Records a key, in the file first if there is one. Tells whether it is new; if the
file cannot be written nothing is recorded.
-/
def record (l : Ledger) (key : String) (disk : σ) : Except LedgerError Bool × Ledger × σ :=
  if key ∈ l.keys then (.ok false, l, disk)
  else
    let keys := insert key l.keys
    match l.path with
    | none => (.ok true, { l with keys := keys }, disk)
    | some path =>
      match Storage.write disk path (render keys) with
      | .ok disk => (.ok true, { l with keys := keys }, disk)
      | .error place => (.error (.file place), l, disk)

end Ledger

end BenchHistory
