import BenchHistory.Path
import BenchHistory.Storage

/-!
# A tree of files

The files of a working directory with their texts. In a path two dots lead one
directory up. Directories are there as far as files are in them, and writing a
file makes those that it needs.
-/

namespace BenchHistory

/-- The names on the way from the working directory to a file. -/
abbrev Place := List (List Char)

/-- Files with their texts. -/
structure Disk where
  files : List (Place × String)
deriving Repr

namespace Disk

def empty : Disk :=
  ⟨[]⟩

def file? (d : Disk) (p : Place) : Option String :=
  (d.files.find? fun f => f.1 = p).map (·.2)

/-- Whether a place is surely a directory: the working one, those above it, and the root. -/
def isOuter (p : Place) : Bool :=
  p.all (· = ['.', '.']) || p = [['/']]

def isDir (d : Disk) (p : Place) : Bool :=
  isOuter p || d.files.any fun f => p.isPrefixOf f.1 && decide (p.length < f.1.length)

/-- The place that one name more leads to. -/
def enter (p : Place) (name : List Char) : Place :=
  if name = ['.', '.'] then
    if p.all (· = ['.', '.']) then p ++ [name] else if p = [['/']] then p else p.dropLast
  else p ++ [name]

/-- Where a path leads. A name behind one that is a file is refused. -/
inductive Located where
  | found (p : Place)
  | absent
  | refused
deriving DecidableEq, Repr

/-- Follows names through directories that are there. -/
def follow (d : Disk) (p : Place) : Place → Located
  | [] => .found p
  | name :: rest =>
    if (d.file? p).isSome then .refused
    else if d.isDir p then follow d (enter p name) rest
    else .absent

/-- Reads a path. Directories cannot be read. -/
def read (d : Disk) (path : String) : FileText :=
  let cs := path.toList
  if '\x00' ∈ cs then .refused
  else if cs = [] then .absent
  else
    match d.follow [] (Path.names cs) with
    | .absent => .absent
    | .refused => .refused
    | .found p =>
      match d.file? p with
      | some s => if Path.wantsDirectory cs then .refused else .text s
      | none => if d.isDir p then .refused else .absent

/-- The directory part of a path, a single dot if there is none. -/
def directory (path : String) : String :=
  match Path.parent path.toList with
  | [] => "."
  | dir => String.ofList dir

/-- Follows names, making directories on the way; nothing if a file stands in it. -/
def descend (d : Disk) (p : Place) : Place → Option Place
  | [] => if (d.file? p).isSome then none else some p
  | name :: rest => if (d.file? p).isSome then none else descend d (enter p name) rest

def put (d : Disk) (p : Place) (s : String) : Disk :=
  if (d.file? p).isSome then ⟨d.files.map fun f => if f.1 = p then (p, s) else f⟩
  else ⟨d.files ++ [(p, s)]⟩

/-- Writes a text. The directory part comes first; then the path must be one of a file. -/
def write (d : Disk) (path s : String) : Except String Disk :=
  let dir := directory path
  if '\x00' ∈ dir.toList then .error dir
  else
    match d.descend [] (Path.names dir.toList) with
    | none => .error dir
    | some p =>
      match (Path.names path.toList).getLast? with
      | none => .error path
      | some name =>
        if '\x00' ∈ name ∨ name = ['.', '.'] ∨ Path.wantsDirectory path.toList ∨
            d.isDir (p ++ [name]) then .error path
        else .ok (d.put (p ++ [name]) s)

instance : Storage Disk where
  read := read
  write := write

/-- Takes away what is at a place and below it. -/
def remove (d : Disk) (path : String) : Disk :=
  let p := Path.names path.toList
  ⟨d.files.filter fun f => !p.isPrefixOf f.1⟩

def texts (d : Disk) : List (String × String) :=
  d.files.map fun f => (String.ofList (List.intercalate ['/'] f.1), f.2)

end Disk

end BenchHistory
