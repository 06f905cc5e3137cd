import BenchHistory.Keyed
import BenchHistory.Text.Blank
import BenchHistory.Text.Letter

/-!
# Files of variables

A file with one assignment a line. Values may be quoted, quoted values may go over
several lines, and outside single quotes a dollar sign stands for the value of a
variable. Reading stops at the first line that is wrong; what was read up to there
counts.
-/

namespace BenchHistory.Settings.DotEnv

/-! ## Lines -/

/-- Where a line stands while the end of an assignment is looked for. -/
inductive Scan where
  | plain
  | escape
  | single
  | singleEscape
  | double
  | doubleEscape
  | space
deriving DecidableEq, Repr

/-- What an unquoted character leads to. -/
def Scan.unquoted (c : Char) : Scan :=
  if c = '\\' then .escape else if c = '"' then .double else if c = '\'' then .single else .plain

/-- One character further. -/
def Scan.next (c : Char) : Scan → Scan
  | .space => .unquoted c
  | .escape => .plain
  | .plain => if Text.isBlank c && c ≠ '\n' && c ≠ '\r' then .space else .unquoted c
  | .double => if c = '\\' then .doubleEscape else if c = '"' then .plain else .double
  | .doubleEscape => .double
  | .single => if c = '\\' then .singleEscape else if c = '\'' then .plain else .single
  | .singleEscape => .single

/-- Follows a line; a comment behind a blank ends it, and what is before the comment is given. -/
def scan (s : Scan) : List Char → List Char → Scan × Option (List Char)
  | _, [] => (s, none)
  | before, c :: cs =>
    if s = .space ∧ c = '#' then (s, some before.reverse)
    else scan (s.next c) (c :: before) cs

/-- A text cut behind each line end; `line` is what was read of a line, last character first. -/
def physicalLines (line : List Char) : List Char → List (List Char)
  | [] => if line = [] then [] else [line.reverse]
  | '\n' :: cs => ('\n' :: line).reverse :: physicalLines [] cs
  | c :: cs => physicalLines (c :: line) cs

/-- A line without its end. -/
def chomp (cs : List Char) : List Char :=
  match cs.reverse with
  | '\n' :: '\r' :: rest => rest.reverse
  | '\n' :: rest => rest.reverse
  | _ => cs

/--
The assignments of a file, each one or more lines long, nothing for one that never
ends. `held` are the lines read of one that goes on.
-/
def assignments (s : Scan) (held : List Char) : List (List Char) → List (Option (List Char))
  | [] => if s = .plain then [] else [none]
  | l :: ls =>
    let text := held ++ l
    if (Text.trimStart text).head? = some '#' then some [] :: assignments .plain [] ls
    else
      match scan s [] l with
      | (_, some before) => some (held ++ before) :: assignments .plain [] ls
      | (.plain, none) => some (chomp text) :: assignments .plain [] ls
      | (s, none) => assignments s text ls

/-! ## Values -/

/-- Variables that are known: those of the environment come first, then those of the file. -/
structure Known where
  environment : List (String × String)
  file : Keyed String

/-- The value of a variable, empty if there is none. -/
def Known.value (k : Known) (name : List Char) : List Char :=
  let name := String.ofList name
  ((Keyed.get? name k.environment).getD ((Keyed.get? name k.file).getD "")).toList

/-- Where a value stands. In `dollar` and `braced` the name of a variable has been read so far. -/
inductive Mode where
  | plain
  | escape (quoted : Bool)
  | single
  | double
  | dollar (quoted : Bool) (name : List Char)
  | braced (quoted : Bool) (name : List Char)
  | ended
deriving DecidableEq, Repr

/-- The mode outside or inside double quotes. -/
def Mode.within (quoted : Bool) : Mode :=
  if quoted then .double else .plain

/-- The characters that an escape may stand for. -/
def escaped? (c : Char) : Option Char :=
  if c = '\\' ∨ c = '\'' ∨ c = '"' ∨ c = '$' ∨ c = ' ' then some c
  else if c = 'n' then some '\n'
  else none

/-- Reads a value on; `out` is what was read, last character first. -/
def value (k : Known) : Mode → List Char → List Char → Option (List Char)
  | m, out, [] =>
    match m with
    | .single => none
    | .double => none
    | .braced _ _ => none
    | .dollar quoted name =>
      if quoted then none else some (out.reverse ++ k.value name)
    | .escape quoted => if quoted then none else some out.reverse
    | _ => some out.reverse
  | .ended, out, c :: cs =>
    if c = ' ' ∨ c = '\t' then value k .ended out cs
    else if c = '#' then some out.reverse
    else none
  | .escape quoted, out, c :: cs =>
    match escaped? c with
    | some e => value k (.within quoted) (e :: out) cs
    | none => none
  | .single, out, c :: cs =>
    if c = '\'' then value k .plain out cs else value k .single (c :: out) cs
  | .dollar quoted name, out, c :: cs =>
    if Text.isAlphanumeric c then value k (.dollar quoted (name ++ [c])) out cs
    else if c = '{' ∧ name = [] then value k (.braced quoted []) out cs
    else
      let out := (k.value name).reverse ++ out
      if c = '$' then value k (.dollar quoted []) out cs
      else value k (.within quoted) (c :: out) cs
  | .braced quoted name, out, c :: cs =>
    if c = '}' then value k (.within quoted) ((k.value name).reverse ++ out) cs
    else value k (.braced quoted (name ++ [c])) out cs
  | .double, out, c :: cs =>
    if c = '$' then value k (.dollar true []) out cs
    else if c = '"' then value k .plain out cs
    else if c = '\\' then value k (.escape true) out cs
    else value k .double (c :: out) cs
  | .plain, out, c :: cs =>
    if c = '$' then value k (.dollar false []) out cs
    else if c = '\'' then value k .single out cs
    else if c = '"' then value k .double out cs
    else if c = '\\' then value k (.escape false) out cs
    else if c = ' ' ∨ c = '\t' then value k .ended out cs
    else value k .plain (c :: out) cs

/-! ## Assignments -/

/-- A variable's name: a letter or an underscore, then digits and points too. -/
def name? (cs : List Char) : Option (List Char × List Char) :=
  match cs with
  | [] => none
  | c :: _ =>
    if c.isAlpha || c = '_' then
      some (cs.span fun c => c.isAlphanum || c = '_' || c = '.')
    else none

/-- What follows an equals sign. -/
def afterEquals? : List Char → Option (List Char)
  | '=' :: cs => some cs
  | _ => none

/--
The name of an assignment and what follows its equals sign; `export` may stand before
the name.
-/
def target? (cs : List Char) : Option (List Char × List Char) := do
  let (name, rest) ← name? cs
  let rest := Text.trimStart rest
  match afterEquals? rest with
  | some rest => some (name, rest)
  | none =>
    if name = "export".toList then
      let (name, rest) ← name? rest
      let rest ← afterEquals? (Text.trimStart rest)
      some (name, rest)
    else none

/-- What a line says. -/
inductive Line where
  | nothing
  | wrong
  | variable (name value : String)
deriving DecidableEq, Repr

/-- Reads a line. -/
def line (k : Known) (cs : List Char) : Line :=
  let cs := Text.trimStart (Text.trimEnd cs)
  if cs = [] ∨ cs.head? = some '#' then .nothing
  else
    match target? cs with
    | none => .wrong
    | some (name, rest) =>
      let rest := Text.trimStart rest
      if rest = [] ∨ rest.head? = some '#' then .variable (String.ofList name) ""
      else
        match value k .plain [] rest with
        | some v => .variable (String.ofList name) (String.ofList v)
        | none => .wrong

/-- The variables known after reading lines. One of the environment keeps its value. -/
def readLines (k : Known) : List (Option (List Char)) → Known
  | [] => k
  | none :: _ => k
  | some l :: ls =>
    match line k l with
    | .nothing => readLines k ls
    | .wrong => k
    | .variable name value =>
      let environment :=
        if name ∈ Keyed.keys k.environment then k.environment else k.environment ++ [(name, value)]
      readLines ⟨environment, Keyed.put name value k.file⟩ ls

/-- The environment with the variables of a file that it lacks. -/
def extend (environment : List (String × String)) (file : String) : List (String × String) :=
  let cs := match file.toList with
    | '\uFEFF' :: cs => cs
    | cs => cs
  (readLines ⟨environment, []⟩ (assignments .plain [] (physicalLines [] cs))).environment

end BenchHistory.Settings.DotEnv
