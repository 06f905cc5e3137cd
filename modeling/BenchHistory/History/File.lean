import BenchHistory.History.Document
import BenchHistory.Json.File

/-!
# A history in a file

An absent file is a history without runs: the first publication of a repository
finds none. The name of the file decides the format in which a history is saved.
-/

namespace BenchHistory.History

variable {σ : Type} [Storage σ]

/-- Loads the history in a file. -/
def load (disk : σ) (path : String) : Except FileError History :=
  match Storage.read disk path with
  | .absent => .ok (empty "")
  | .refused => .error (.unreadable path)
  | .text s => (ofText s).mapError (.invalid path)

/-- Saves a history in a file. A refused write names the path that it failed at. -/
def save (h : History) (disk : σ) (path : String) : Except String σ :=
  Storage.write disk path (h.render (Format.ofPath path))

end BenchHistory.History
