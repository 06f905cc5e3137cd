import BenchHistory.Json.Decode
import BenchHistory.Storage

/-!
# JSON in files

A file is of no use if it cannot be read, or if its text is not a value of the type
that is wanted.
-/

namespace BenchHistory

/-- Why a file is of no use. -/
inductive FileError where
  | unreadable (path : String)
  | invalid (path : String) (e : ReadError)
deriving DecidableEq, Repr

namespace FileError

def path : FileError → String
  | .unreadable path => path
  | .invalid path _ => path

def message : FileError → String
  | .unreadable path => "I/O error on " ++ path
  | .invalid path _ => "Invalid benchmark document " ++ path

end FileError

/-- Reads a value from a file, which must be there. -/
def Decode.file {α σ : Type} [Storage σ] (decode : Decode.Decoder α) (disk : σ) (path : String) :
    Except FileError α :=
  match Storage.read disk path with
  | .text s => (Decode.read decode s.toList).mapError (.invalid path)
  | _ => .error (.unreadable path)

end BenchHistory
