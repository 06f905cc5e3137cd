import BenchHistory.Json.Draft
import BenchHistory.Json.Printer
import BenchHistory.Text.Quoted

/-!
# Why a text is not a value of a type

Either the text is not JSON, or it is JSON of another shape. A shape error names
what was found and what was expected in its place.
-/

namespace BenchHistory

/-- Why a text is not a value of a type. -/
inductive ReadError where
  | fault (f : Fault)
  | invalidType (found : Found) (expected : String)
  | invalidValue (found : Found) (expected : String)
  | invalidLength (length : Nat) (expected : String)
  | missingField (name : String)
  | duplicateField (name : String)
  | unknownVariant (name : String) (known : List String)
  | invalidRatio (text : String)
  | notARatio
deriving DecidableEq, Repr

/-- The kinds of errors: the text is no JSON, ends too early, or has another shape. -/
inductive ReadError.Category where
  | syntactic
  | cutOff
  | data
deriving DecidableEq, Repr

namespace Found

/-- The words of messages for it. -/
def text : Found → String
  | .null => "null"
  | .boolean b => "boolean " ++ Text.named (String.ofList (Json.boolText b))
  | .integer n => "integer " ++ Text.named (String.ofList (Json.intText n))
  | .float x => "floating point " ++ Text.named (String.ofList (Json.realText x))
  | .string s => "string " ++ Text.quoted s
  | .sequence => "sequence"
  | .map => "map"

end Found

namespace ReadError

/-- A list of names to choose from. -/
def choice : List String → String
  | [] => "there are no variants"
  | [a] => "expected " ++ Text.named a
  | [a, b] => "expected " ++ Text.named a ++ " or " ++ Text.named b
  | names => "expected one of " ++ ", ".intercalate (names.map Text.named)

/-- The kind of the error. -/
def category : ReadError → Category
  | .fault .malformed => .syntactic
  | .fault .cutOff => .cutOff
  | _ => .data

/-- The text of a shape error; a text that is not JSON gets none. -/
def message : ReadError → String
  | .fault _ => ""
  | .invalidType found expected => "invalid type: " ++ found.text ++ ", expected " ++ expected
  | .invalidValue found expected => "invalid value: " ++ found.text ++ ", expected " ++ expected
  | .invalidLength n expected =>
    "invalid length " ++ toString n ++ ", expected " ++ expected
  | .missingField name => "missing field " ++ Text.named name
  | .duplicateField name => "duplicate field " ++ Text.named name
  | .unknownVariant name known => "unknown variant " ++ Text.named name ++ ", " ++ choice known
  | .invalidRatio text => "invalid ratio " ++ Text.quoted text
  | .notARatio => "data did not match any variant of untagged enum Repr"

end ReadError

end BenchHistory
