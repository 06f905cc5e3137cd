import BenchHistory.Disk
import BenchHistory.Program
import BenchHistory.Snapshot
import Std.Time.DateTime.Timestamp

/-!
# The command

Takes a snapshot of the files that the arguments mean, runs the program on it, makes
its writes, and prints what it printed.
-/

namespace BenchHistory.Main

/-- The environment of this process. -/
def environment : IO (Keyed String) := do
  let bytes ← IO.FS.readBinFile "/proc/self/environ"
  let text := (String.fromUTF8? bytes).getD ""
  return (text.splitOn "\x00").filterMap fun entry =>
    match CommandLine.cutAtEquals entry.toList with
    | (name, some value) => some (String.ofList name, String.ofList value)
    | _ => none

def now : IO Int := do
  let t ← Std.Time.Timestamp.now
  return t.toMillisecondsSinceUnixEpoch.val

/-- Reads a path. -/
def read (path : String) : IO FileText := do
  try
    match String.fromUTF8? (← IO.FS.readBinFile path) with
    | some s => return .text s
    | none => return .refused
  catch
    | .noFileOrDirectory .. => return .absent
    | _ => return .refused

def readAll (paths : List String) : IO (List (String × FileText)) :=
  paths.mapM fun path => do return (path, ← read path)

/-- Writes beside a path and then moves to it. Gives the path of a failure. -/
def write (w : Write) (id : String) : IO (Option String) := do
  let dir := Disk.directory w.path
  try IO.FS.createDirAll dir catch _ => return some dir
  let beside := String.ofList (Path.join dir.toList (".benchwatch-" ++ id).toList)
  try IO.FS.writeFile beside w.text catch _ => return some dir
  try IO.FS.rename beside w.path catch _ =>
    try IO.FS.removeFile beside catch _ => pure ()
    return some w.path
  return none

/-- Makes writes in order. Gives the number of those made, and the one that failed, if any. -/
def writeAll (id : String) (made : Nat) : List Write → IO (Nat × Option (Write × String))
  | [] => return (made, none)
  | w :: ws => do
    match ← write w id with
    | some place => return (made, some (w, place))
    | none => writeAll id (made + 1) ws

/-- Runs a program on a snapshot until all of its writes are made or known to fail. -/
partial def settle (id : String) (run : Snapshot → Outcome × Snapshot) (made : Nat) (s : Snapshot) :
    IO Outcome := do
  let (o, after) := run s
  match ← writeAll id made (after.writes.drop made) with
  | (_, none) => return o
  | (made, some (w, place)) => settle id run made (s.fail w place)

/-- The files that the program will look at. -/
def snapshot (env : Keyed String) (args : List String) : IO Snapshot := do
  match CommandLine.read? (Keyed.get? configVariable env) args with
  | some (.command config c) =>
    let found ← readAll (Settings.files config)
    let s := Snapshot.ofFound found
    match Settings.load? s (Settings.environment s env) config with
    | some settings => return .ofFound (found ++ (← readAll (c.files settings)))
    | none => return s
  | _ => return .ofFound []

end BenchHistory.Main

open BenchHistory

/-- Publishes, checks and shows benchmark runs. -/
def main (args : List String) : IO UInt32 := do
  let env ← Main.environment
  let now ← Main.now
  let s ← Main.snapshot env args
  let o ← Main.settle (toString now) (program now env args) 0 s
  let out ← IO.getStdout
  out.putStr o.printed
  out.flush
  match o.ending with
  | .ok _ => pure ()
  | .error e => (← IO.getStderr).putStrLn ("Error: " ++ e.message)
  return o.status.toUInt32
