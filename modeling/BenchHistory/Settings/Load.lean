import BenchHistory.Json.Decode
import BenchHistory.Settings.Basic
import BenchHistory.Settings.DotEnv
import BenchHistory.Settings.Ini
import BenchHistory.Settings.Json5
import BenchHistory.Settings.Layer
import BenchHistory.Settings.Ron
import BenchHistory.Settings.Toml.Document
import BenchHistory.Settings.Yaml.Document
import BenchHistory.Storage

/-!
# Loading settings

Defaults come first, then a file, then variables. The file is the one that is asked
for, which must be there, or else `benchwatch.toml` in the working directory. The
variables are those of the environment and, for names that it lacks, of `.env`.
-/

namespace BenchHistory.Settings

/-- The name of the file that is looked for if none is asked for. -/
def defaultFile : String :=
  "benchwatch.toml"

/-- The forms of files. -/
inductive FileForm where
  | toml
  | json
  | yaml
  | ini
  | ron
  | json5
deriving DecidableEq, Repr

def extensions : List (String × FileForm) :=
  [("toml", .toml), ("json", .json), ("yaml", .yaml), ("yml", .yaml), ("ini", .ini), ("ron", .ron),
    ("json5", .json5)]

def formOf? (extension : List Char) : Option FileForm :=
  Keyed.get? (String.ofList extension) extensions

mutual

/-- A JSON value as a setting; integers beyond 64 bits with a sign are floats. -/
def ofJson : Json → Value
  | .null => .null
  | .bool b => .bool b
  | .number (.whole n) => if n < 0x8000000000000000 then .int n else .float (Float.ofInt n)
  | .number (.real x) => .float x
  | .string s => .text s
  | .array xs => .array (ofJsonItems xs)
  | .object ms => .table (ofJsonMembers ms)

def ofJsonItems : List Json → List Value
  | [] => []
  | x :: xs => ofJson x :: ofJsonItems xs

def ofJsonMembers : List (String × Json) → List (String × Value)
  | [] => []
  | (k, v) :: ms => (k, ofJson v) :: ofJsonMembers ms

end

/-- The members of a table; nothing else can be a file of settings. -/
def table? : Value → Option (List (String × Value))
  | .table ms => some ms
  | _ => none

/-- The settings in a text, without a mark of its byte order. -/
def ofFile? (form : FileForm) (text : String) : Option (List (String × Value)) :=
  let text := match text.toList with
    | '\uFEFF' :: cs => String.ofList cs
    | _ => text
  match form with
  | .toml => Toml.parse? text
  | .json => (Decode.read Decode.json text.toList).toOption.bind fun j => table? (ofJson j)
  | .yaml => (Yaml.parse? text).bind table?
  | .ini => Ini.parse? text
  | .ron => (Ron.parse? text).bind table?
  | .json5 => (Json5.parse? text).bind table?

/-- What comes of looking for a file of settings. -/
inductive Lookup where
  | missing
  | useless
  | found (form : FileForm) (text : String)
deriving DecidableEq, Repr

/--
The names with an extension behind a name, and their forms. There are none without a
last name.
-/
def candidates (name : String) : List (String × FileForm) :=
  let path := name.toList
  if (Path.fileName? path).isNone then []
  else extensions.map fun e => (String.ofList (Path.trimEnd path ++ '.' :: e.1.toList), e.2)

variable {σ : Type} [Storage σ]

/-- A file with its form, if it is there. -/
def foundAt? (disk : σ) (c : String × FileForm) : Option Lookup :=
  match Storage.read disk c.1 with
  | .text s => some (.found c.2 s)
  | _ => none

/-- Looks for a file by its name as it stands, and then with an extension behind it. -/
def lookup (disk : σ) (name : String) : Lookup :=
  match Storage.read disk name with
  | .text s =>
    match (Path.extension? name.toList).bind formOf? with
    | some form => .found form s
    | none => .useless
  | _ => ((candidates name).findSome? (foundAt? disk)).getD .missing

/-- The settings in the file, none if it may be missing and is. -/
def fileLayer? (disk : σ) (file : Option String) : Option (List (String × Value)) :=
  match lookup disk (file.getD defaultFile) with
  | .found form text => ofFile? form text
  | .useless => if file.isSome then none else some []
  | .missing => if file.isSome then none else some []

/-- The environment with the variables of `.env` that it lacks. -/
def environment (disk : σ) (env : List (String × String)) : List (String × String) :=
  match Storage.read disk ".env" with
  | .text s => DotEnv.extend env s
  | _ => env

/-- Loads settings, given the environment with the variables of `.env` in it. -/
def load? (disk : σ) (env : List (String × String)) (file : Option String) : Option Settings := do
  let layer ← fileLayer? disk file
  ofValue? (lay (lay (.table []) layer) (ofEnvironment env))

end BenchHistory.Settings
