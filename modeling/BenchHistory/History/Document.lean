import BenchHistory.History.Json
import BenchHistory.Path
import BenchHistory.Text.Blank
import BenchHistory.Text.Fold

/-!
# The file that holds a history

The file holds plain JSON, or a script that assigns the JSON to
`window.BENCHMARK_DATA`, which a page can load. Both are accepted on reading,
whatever the name of the file; the name decides what is written.
-/

namespace BenchHistory

/-- How a history is written. -/
inductive Format where
  | json
  | script
deriving DecidableEq, Repr

namespace Format

/-- The format of a path: a script if the extension is `js`. -/
def ofPath (path : String) : Format :=
  if Path.extension? path.toList = some ['j', 's'] then .script else .json

def name : Format → String
  | .json => "json"
  | .script => "javascript"

end Format

namespace History

def scriptStart : List Char :=
  "window.BENCHMARK_DATA =".toList

/-- A text without the semicolons at its end. -/
def dropSemicolons (cs : List Char) : List Char :=
  (cs.reverse.dropWhile (· = ';')).reverse

/-- The JSON in a file. -/
def body (cs : List Char) : List Char :=
  match Text.afterStart? scriptStart (Text.trim cs) with
  | some rest => dropSemicolons (Text.trim rest)
  | none => Text.trim cs

/-- Reads the text of a file. -/
def ofText (text : String) : Except ReadError History :=
  Decode.read decode (body text.toList)

def render (format : Format) (h : History) : String :=
  match format with
  | .json => h.toJson.pretty
  | .script => String.ofList scriptStart ++ " " ++ h.toJson.pretty

end History

end BenchHistory
