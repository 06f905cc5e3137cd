/-!
# Paths

A path is a text of names between slashes. Empty names and single dots do not
count, except that a slash at the start stands for the root. The functions here
only look at the text, not at what files there are.
-/

namespace BenchHistory.Path

/-- The names in a path, the root being a name of its own. -/
def names (path : List Char) : List (List Char) :=
  let parts := (path.splitOnP (· = '/')).filter fun p => p ≠ [] ∧ p ≠ ['.']
  match path with
  | '/' :: _ => ['/'] :: parts
  | _ => parts

/-- Whether a path can only mean a directory: it ends in a slash or a single dot. -/
def wantsDirectory (path : List Char) : Bool :=
  match path.reverse with
  | '/' :: _ => true
  | ['.'] => true
  | '.' :: '/' :: _ => true
  | _ => false

/-- What `trimEnd` does, on the characters from the last to the first. -/
def trimReversed : List Char → List Char
  | ['/'] => ['/']
  | '/' :: rest => trimReversed rest
  | '.' :: '/' :: rest => trimReversed ('/' :: rest)
  | cs => cs
termination_by cs => cs.length

/-- A path without slashes and single dots at its end; the root stays. -/
def trimEnd (path : List Char) : List Char :=
  (trimReversed path.reverse).reverse

/-- The last name of a path. There is none if it is two dots, or if there are no names. -/
def fileName? (path : List Char) : Option (List Char) :=
  match (names path).getLast? with
  | some name => if name = ['.', '.'] ∨ name = ['/'] then none else some name
  | none => none

/-- What a path says before its last name, empty if that is all of it. -/
def parent (path : List Char) : List Char :=
  trimEnd ((trimEnd path).reverse.dropWhile (· ≠ '/')).reverse

def join (path name : List Char) : List Char :=
  match path.getLast? with
  | none => name
  | some c => if c = '/' then path ++ name else path ++ '/' :: name

def withFileName (path name : List Char) : List Char :=
  match fileName? path with
  | some _ => join (parent path) name
  | none => join path name

/-- What stands behind the last point of a name, a point at its start left aside. -/
def extensionOf? (name : List Char) : Option (List Char) :=
  match name.reverse.span (· ≠ '.') with
  | (_, []) => none
  | (_, [_]) => none
  | (ext, _) => some ext.reverse

def extension? (path : List Char) : Option (List Char) :=
  (fileName? path).bind extensionOf?

end BenchHistory.Path
