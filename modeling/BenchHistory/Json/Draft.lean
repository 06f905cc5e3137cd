import BenchHistory.Json.Basic

/-!
# What a text says, as far as it can be read

A text is looked at in reading order: a value of the wrong shape counts before a
fault of the text that comes later. So the reader of texts never fails. It
returns a draft, a tree in which a gap stands wherever the text cannot be read,
and whoever takes values out of the draft in reading order meets what comes first.
A part that nobody asks for may be skipped, which forgives some faults. A name that
cannot be read has its gap for a value, under the empty name.
-/

namespace BenchHistory

/-- Why a text is not JSON: it goes on in a way that it must not, or it ends too early. -/
inductive Fault where
  | malformed
  | cutOff
deriving DecidableEq, Repr

/-- What stands where something else is expected. -/
inductive Found where
  | null
  | boolean (b : Bool)
  | integer (n : Int)
  | float (x : Float)
  | string (s : String)
  | sequence
  | map
deriving DecidableEq, Repr

/-- What stands in a number. -/
def Found.ofNumber : Number → Found
  | .whole n => .integer n
  | .real x => .float x

/--
A place that cannot be read. The text ends where a value is due; or a string, or a
token of another kind, has a fault for its reader and perhaps none for one who skips
it; or a container goes on with neither a comma nor its end; or there is no name
where one is due, with what a reader meets who takes anything there.
-/
inductive Gap where
  | ended
  | string (read : Fault) (skip : Option Fault)
  | token (read : Fault) (skip : Option Fault)
  | unclosed (fault : Fault)
  | name (read : Fault) (skip : Option Fault) (met : Except Fault Found)
deriving Repr

namespace Gap

/-- What a reader meets. -/
def read : Gap → Fault
  | .ended => .cutOff
  | .string r _ => r
  | .token r _ => r
  | .unclosed f => f
  | .name r _ _ => r

/-- What one meets who skips the place. -/
def skip : Gap → Option Fault
  | .ended => some .cutOff
  | .string _ s => s
  | .token _ s => s
  | .unclosed f => some f
  | .name _ s _ => s

/-- What one meets who wants a string and otherwise looks at no more than one character. -/
def peek : Gap → Fault
  | .token _ _ => .malformed
  | g => g.read

end Gap

/-- A JSON text with its repeated names, and with gaps where it cannot be read. -/
inductive Draft where
  | null
  | bool (b : Bool)
  | number (n : Number)
  | string (s : String)
  | array (items : List Draft)
  | object (members : List (String × Draft))
  | gap (g : Gap)
deriving Repr

namespace Draft

instance : Inhabited Draft := ⟨.null⟩

/-- What one meets who wants a container to end where the draft stands instead. -/
def close : Draft → Fault
  | .gap (.unclosed f) => f
  | _ => .malformed

/-- What stands in a draft. -/
def found : Draft → Except Fault Found
  | .null => .ok .null
  | .bool b => .ok (.boolean b)
  | .number n => .ok (.ofNumber n)
  | .string s => .ok (.string s)
  | .array _ => .ok .sequence
  | .object _ => .ok .map
  | .gap g => .error g.read

mutual

/-- What one who skips the draft meets first. -/
def skipFault : Draft → Option Fault
  | .array xs => skipItems xs
  | .object ms => skipMembers ms
  | .gap g => g.skip
  | _ => none

def skipItems : List Draft → Option Fault
  | [] => none
  | x :: xs => (skipFault x).or (skipItems xs)

def skipMembers : List (String × Draft) → Option Fault
  | [] => none
  | (_, v) :: ms => (skipFault v).or (skipMembers ms)

end

mutual

/--
The value that a draft writes; of a repeated name the last value counts, at the first
place.
-/
def toJson : Draft → Except Fault Json
  | .null => .ok .null
  | .bool b => .ok (.bool b)
  | .number n => .ok (.number n)
  | .string s => .ok (.string s)
  | .array xs => do return .array (← itemsToJson xs)
  | .object ms => do return .object (← membersToJson [] ms)
  | .gap g => .error g.read

def itemsToJson : List Draft → Except Fault (List Json)
  | [] => .ok []
  | x :: xs => do return (← toJson x) :: (← itemsToJson xs)

/-- The members written on top of those already there. -/
def membersToJson (done : Keyed Json) : List (String × Draft) → Except Fault (Keyed Json)
  | [] => .ok done
  | (k, v) :: ms => do membersToJson (Keyed.put k (← toJson v) done) ms

end

end Draft

namespace Json

mutual

/-- The draft that writes a value. -/
def toDraft : Json → Draft
  | .null => .null
  | .bool b => .bool b
  | .number n => .number n
  | .string s => .string s
  | .array xs => .array (itemsToDraft xs)
  | .object ms => .object (membersToDraft ms)

def itemsToDraft : List Json → List Draft
  | [] => []
  | x :: xs => toDraft x :: itemsToDraft xs

def membersToDraft : List (String × Json) → List (String × Draft)
  | [] => []
  | (k, v) :: ms => (k, toDraft v) :: membersToDraft ms

end

end Json

end BenchHistory
