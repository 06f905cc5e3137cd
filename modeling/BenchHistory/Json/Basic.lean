import BenchHistory.Keyed

/-!
# JSON values

Numbers keep the difference between integers and floats: `1` and `1.0` are two
values. The members of an object keep their order, which `same` does not look at.
-/

namespace BenchHistory

/-- A JSON number. A text of digits alone is whole if 64 bits can hold it. -/
inductive Number where
  | whole (n : Int)
  | real (x : Float)
deriving DecidableEq, Repr

/-- A JSON value. -/
inductive Json where
  | null
  | bool (b : Bool)
  | number (n : Number)
  | string (s : String)
  | array (items : List Json)
  | object (members : List (String × Json))
deriving Repr

namespace Number

/-- The same number: integers by value, floats as floats compare, never one as the other. -/
def same : Number → Number → Bool
  | .whole m, .whole n => m == n
  | .real x, .real y => x == y
  | _, _ => false

/-- The nearest float. -/
def toFloat : Number → Float
  | .whole n => Float.ofInt n
  | .real x => x

end Number

namespace Json

instance : Inhabited Json := ⟨.null⟩

mutual

/-- The same value, whatever the order of members. -/
def same : Json → Json → Bool
  | .null, .null => true
  | .bool a, .bool b => a == b
  | .number m, .number n => m.same n
  | .string s, .string t => s == t
  | .array xs, .array ys => sameItems xs ys
  | .object ms, .object ns => ms.length == ns.length && sameMembers ms ns
  | _, _ => false

/-- The same items in the same order. -/
def sameItems : List Json → List Json → Bool
  | [], [] => true
  | x :: xs, y :: ys => same x y && sameItems xs ys
  | _, _ => false

/-- Each member has the same value in the other list. -/
def sameMembers : List (String × Json) → List (String × Json) → Bool
  | [], _ => true
  | (k, v) :: ms, ns =>
    (match Keyed.get? k ns with
      | some w => same v w
      | none => false) && sameMembers ms ns

end

/-- The same members, in whatever order. -/
def sameObject (ms ns : List (String × Json)) : Bool :=
  ms.length == ns.length && sameMembers ms ns

/-- The value of a member. -/
def get? (k : String) : Json → Option Json
  | .object ms => Keyed.get? k ms
  | _ => none

/-- An optional member: nothing when there is no value. -/
def field? (k : String) : Option Json → List (String × Json)
  | none => []
  | some v => [(k, v)]

def int (n : Int) : Json :=
  .number (.whole n)

def real (x : Float) : Json :=
  .number (.real x)

end Json

end BenchHistory
