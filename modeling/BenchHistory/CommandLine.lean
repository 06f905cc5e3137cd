import BenchHistory.Command.Basic
import BenchHistory.Settings.Value

/-!
# The command line

A command is a word with options behind it. An option is written with its long name
or its letter; its value is the next word, or is attached to it. A value that starts
with a hyphen has to be attached. No option may be given twice, and after a bare
pair of hyphens nothing may follow. The file of settings can be given before the
word of the command or among its options, and failing that by a variable.
-/

namespace BenchHistory.CommandLine

/-! ## Options -/

/--
What an option takes: any text, a path, which is not empty, an integer of 64 bits, or
nothing.
-/
inductive Kind where
  | text
  | path
  | integer
  | switch
deriving DecidableEq, Repr

/-- An option: its long name, its letter if it has one, and what it takes. -/
structure Flag where
  name : String
  letter : Option Char
  kind : Kind
deriving DecidableEq, Repr

/-- Whether a value is one that an option takes. -/
def Flag.admits (f : Flag) (value : String) : Bool :=
  match f.kind with
  | .text => true
  | .path => value ≠ ""
  | .integer => (Settings.int64? value.toList).isSome
  | .switch => value = ""

def configFlag : Flag :=
  ⟨"config", some 'c', .path⟩

def dataFlag : Flag :=
  ⟨"data", some 'd', .path⟩

def toolFlag : Flag :=
  ⟨"tool", some 't', .text⟩

/-- The options that say which run is meant. -/
def runFlags : List Flag :=
  [dataFlag, toolFlag, ⟨"output", some 'o', .path⟩, ⟨"commit", none, .path⟩, ⟨"run", none, .path⟩,
    ⟨"date", none, .integer⟩]

/-- The words of commands, each with its options. -/
def verbs : Keyed (List Flag) :=
  [("publish", ⟨"repo-url", none, .text⟩ :: runFlags),
    ("check", runFlags),
    ("query", [dataFlag, toolFlag, ⟨"name", some 'n', .text⟩, ⟨"extra", some 'e', .text⟩,
      ⟨"json", none, .switch⟩]),
    ("schema", [dataFlag, toolFlag]),
    ("status", [dataFlag])]

/-! ## Reading options -/

/-- How an argument looks. -/
inductive Token where
  | ending
  | long (name : List Char) (value : Option (List Char))
  | short (letter : Char) (rest : List Char)
  | word
deriving DecidableEq, Repr

/-- A text cut at its first equals sign. -/
def cutAtEquals (cs : List Char) : List Char × Option (List Char) :=
  match cs.span (· ≠ '=') with
  | (name, _ :: value) => (name, some value)
  | (name, []) => (name, none)

/-- The look of an argument. A single hyphen is a word. -/
def Token.of (arg : String) : Token :=
  match arg.toList with
  | ['-', '-'] => .ending
  | '-' :: '-' :: cs => .long (cutAtEquals cs).1 (cutAtEquals cs).2
  | '-' :: c :: cs => .short c cs
  | _ => .word

/-- The value attached to a letter; an equals sign between them does not count. -/
def attached? : List Char → Option String
  | [] => none
  | '=' :: cs => some (String.ofList cs)
  | cs => some (String.ofList cs)

/-- Notes a value under an option, unless the option has one or does not take it. -/
def note (f : Flag) (value : String) (given : Keyed String) : Option (Keyed String) :=
  if f.name ∈ Keyed.keys given ∨ f.admits value = false then none
  else some (Keyed.put f.name value given)

/--
Where the reading of options ended: at the end, at a word with more behind it, or at
the version.
-/
inductive Ended where
  | atEnd
  | atWord (word : String) (rest : List String)
  | atVersion
deriving DecidableEq, Repr

/-- The option that a token names, with the value attached to it. -/
def flag? (known : List Flag) : Token → Option (Flag × Option String)
  | .long name value =>
    (known.find? fun f => f.name.toList = name).map fun f => (f, value.map String.ofList)
  | .short letter rest =>
    (known.find? fun f => f.letter = some letter).map fun f => (f, attached? rest)
  | _ => none

def asksVersion : Token → Bool
  | .long name value => name = "version".toList && value.isNone
  | .short letter _ => letter = 'V'
  | _ => false

/-- Reads options as far as they go. -/
def readFlags (known : List Flag) (version : Bool) (given : Keyed String) :
    List String → Option (Keyed String × Ended)
  | [] => some (given, .atEnd)
  | arg :: rest =>
    match Token.of arg with
    | .word => some (given, .atWord arg rest)
    | .ending => if rest = [] then some (given, .atEnd) else none
    | token =>
      if version && asksVersion token then some (given, .atVersion)
      else
        match flag? known token, rest with
        | none, _ => none
        | some (f, some value), rest =>
          if f.kind = .switch then none
          else (note f value given).bind fun given => readFlags known version given rest
        | some (f, none), rest =>
          if f.kind = .switch then
            (note f "" given).bind fun given => readFlags known version given rest
          else
            match rest with
            | [] => none
            | value :: rest =>
              if Token.of value = .word then
                (note f value given).bind fun given => readFlags known version given rest
              else none

/-! ## Commands -/

/-- The source of a run: a document, or an output together with a commit. -/
def source? (given : Keyed String) : Option RunSource :=
  match Keyed.get? "run" given, Keyed.get? "output" given, Keyed.get? "commit" given with
  | some path, none, none => some (.document path)
  | none, some output, some commit => some (.harness output commit)
  | _, _, _ => none

/-- The run that options mean. -/
def runInput? (given : Keyed String) : Option RunInput := do
  let data ← Keyed.get? "data" given
  let tool ← Keyed.get? "tool" given
  let source ← source? given
  return ⟨data, tool, source, (Keyed.get? "date" given).bind fun s => Settings.int64? s.toList⟩

/-- The command that a word and options mean. -/
def command? (verb : String) (given : Keyed String) : Option Command :=
  match verb with
  | "publish" => do return .publish (← runInput? given) (Keyed.get? "repo-url" given)
  | "check" => do return .check (← runInput? given)
  | "query" => do
    let data ← Keyed.get? "data" given
    let tool ← Keyed.get? "tool" given
    let name ← Keyed.get? "name" given
    return .query data ⟨tool, name, Keyed.get? "extra" given⟩ (Keyed.get? "json" given).isSome
  | "schema" => do return .schema (← Keyed.get? "data" given) (← Keyed.get? "tool" given)
  | "status" => do return .status (← Keyed.get? "data" given)
  | _ => none

/--
The file of settings, given before and among the options of the command. The latter
counts first. The variable stands in where either is missing, and must not be empty then.
-/
def config? (env : Option String) (before among : Option String) : Option (Option String) :=
  if env = some "" ∧ (before = none ∨ among = none) then none
  else some (among <|> before <|> env)

/-- What a command line asks for. -/
inductive Request where
  | version
  | command (config : Option String) (c : Command)
deriving DecidableEq, Repr

/-- Reads a command line; the variable names the file of settings if the line does not. -/
def read? (env : Option String) (args : List String) : Option Request := do
  match ← readFlags [configFlag] true [] args with
  | (_, .atVersion) => return .version
  | (_, .atEnd) => none
  | (before, .atWord verb rest) =>
    let flags ← Keyed.get? verb verbs
    match ← readFlags (configFlag :: flags) false [] rest with
    | (given, .atEnd) =>
      let c ← command? verb given
      let config ← config? env (Keyed.get? "config" before) (Keyed.get? "config" given)
      return .command config c
    | _ => none

end BenchHistory.CommandLine
