import BenchHistory.Json.Decode

/-!
# Tagged values

A choice between cases is written as an object with a tag, a member that names the
case, beside the fields of the case. The tag may stand anywhere in the object. It
may also be the first item of an array that goes on with the fields.
-/

namespace BenchHistory.Decode

/-- The cases to choose from, by name. -/
abbrev Cases (α : Type) := List (String × α)

def ofName {α : Type} (cases : Cases α) (name : String) : Except ReadError α :=
  match Keyed.get? name cases with
  | some a => .ok a
  | none => .error (.unknownVariant name (Keyed.keys cases))

def tag {α : Type} (cases : Cases α) : Decoder α
  | .string s => ofName cases s
  | d => .error (mismatch "variant identifier" d)

/--
The tag of a value that stands inside another tagged value may be a position in the
list of cases.
-/
def innerTag {α : Type} (cases : Cases α) : Decoder α
  | .string s => ofName cases s
  | .number (.whole n) =>
    if n < 0 then .error (.invalidType (.integer n) "variant identifier")
    else match cases[n.toNat]? with
      | some e => .ok e.2
      | none =>
        .error (.invalidValue (.integer n)
          ("variant index 0 <= i < " ++ toString cases.length))
  | d => .error (mismatch "variant identifier" d)

/-- One more member: the tag is read at once, anything else is put by. -/
def untag {α : Type} (name : String) (decode : Decoder α)
    (s : Option α × List (String × Draft)) (e : String × Draft) :
    Except ReadError (Option α × List (String × Draft)) :=
  if e.1 = name then do return (← fill name s.1 decode e.2, s.2)
  else do
    let _ ← json e.2
    return (s.1, s.2 ++ [e])

/-- The case of a tagged value, and what is left of the value without its tag. -/
def tagged {α : Type} (type name : String) (decode : Decoder α) : Decoder (α × Draft)
  | .object ms => do
    let (case, rest) ← ms.foldlM (untag name decode) (none, [])
    return (← required name case, .object rest)
  | .array [] => .error (.missingField name)
  | .array (d :: items) => do
    let case ← decode d
    let _ ← items.mapM json
    return (case, .array items)
  | d => .error (mismatch ("internally tagged enum " ++ type) d)

/-- The number of items that a case without a name for its fields holds. -/
def elements (n : Nat) : String :=
  if n = 1 then "1 element in sequence" else toString n ++ " elements in sequence"

/-- Makes sure that the items after a tag are no more than the fields of the case. -/
def noMoreThan (items : List Draft) (size : Nat) : Except ReadError Unit :=
  if size < items.length then .error (.invalidLength items.length (elements size)) else .ok ()

/-- A case without fields: members that are there do not matter, items must not be there. -/
def nothing : Decoder Unit
  | .array items => noMoreThan items 0
  | _ => .ok ()

end BenchHistory.Decode
