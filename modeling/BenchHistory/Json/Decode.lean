import BenchHistory.Json.Parser
import BenchHistory.Json.ReadError

/-!
# Taking values out of a draft

A decoder takes a value of one type out of a draft or says what is wrong with it.
It looks at the draft in reading order. A record is read member by member into
slots: a slot is filled once, and those still empty at the end are missing.
-/

namespace BenchHistory.Decode

/-- Takes a value out of a draft. -/
abbrev Decoder (α : Type) := Draft → Except ReadError α

/-- The error of a draft that is not what was expected. -/
def mismatch (expected : String) (d : Draft) : ReadError :=
  match d.found with
  | .ok found => .invalidType found expected
  | .error f => .fault f

/-! ## Plain values -/

def string : Decoder String
  | .string s => .ok s
  | d => .error (mismatch "a string" d)

def integer (least most : Int) (expected : String) : Decoder Int
  | .number (.whole n) =>
    if least ≤ n ∧ n ≤ most then .ok n else .error (.invalidValue (.integer n) expected)
  | d => .error (mismatch expected d)

def int64 : Decoder Int :=
  integer (-0x8000000000000000) 0x7FFFFFFFFFFFFFFF "i64"

/-- A count of 64 bits. -/
def count : Decoder Nat :=
  fun d => (integer 0 0xFFFFFFFFFFFFFFFF "usize" d).map Int.toNat

/-- A float; integers are taken as the nearest one. -/
def float : Decoder Float
  | .number n => .ok n.toFloat
  | d => .error (mismatch "f64" d)

def bool : Decoder Bool
  | .bool b => .ok b
  | d => .error (mismatch "a boolean" d)

/-- Nothing for `null`, else a value. -/
def optional {α : Type} (decode : Decoder α) : Decoder (Option α)
  | .null => .ok none
  | d => (decode d).map some

def list {α : Type} (decode : Decoder α) : Decoder (List α)
  | .array xs => xs.mapM decode
  | d => .error (mismatch "a sequence" d)

/-- One more entry, written over an earlier one of that name. -/
def entry {α : Type} (decode : Decoder α) (m : Keyed α) (e : String × Draft) :
    Except ReadError (Keyed α) :=
  (decode e.2).map fun v => m.put e.1 v

def keyed {α : Type} (decode : Decoder α) : Decoder (Keyed α)
  | .object ms => ms.foldlM (entry decode) []
  | d => .error (mismatch "a map" d)

def json : Decoder Json :=
  fun d => d.toJson.mapError .fault

/-! ## Records -/

/-- Fills a slot, unless it is filled already. -/
def fill {α : Type} (name : String) (slot : Option α) (decode : Decoder α) (d : Draft) :
    Except ReadError (Option α) :=
  match slot with
  | some _ => .error (.duplicateField name)
  | none => (decode d).map some

/-- The value of a slot that has to be filled. -/
def required {α : Type} (name : String) : Option α → Except ReadError α
  | some a => .ok a
  | none => .error (.missingField name)

/-- Keeps a member that no slot is for. -/
def keep (other : Keyed Json) (name : String) (d : Draft) : Except ReadError (Keyed Json) :=
  (json d).map fun v => other.put name v

/-- Passes over a member that no slot is for. Its name has to be read all the same. -/
def pass : Draft → Except ReadError Unit
  | .gap (.name f _ _) => .error (.fault f)
  | d =>
    match d.skipFault with
    | some f => .error (.fault f)
    | none => .ok ()

/-- The item at a place of a list that holds the fields of a record in order. -/
def item {α : Type} (expected : String) (decode : Decoder α) (items : List Draft) (place : Nat) :
    Except ReadError α :=
  match items[place]? with
  | some d => decode d
  | none => .error (.invalidLength place expected)

/-- The item at a place that may be past the end. -/
def itemOr {α : Type} (default : α) (decode : Decoder α) (items : List Draft) (place : Nat) :
    Except ReadError α :=
  match items[place]? with
  | some d => decode d
  | none => .ok default

/-- Makes sure that a list of fields holds no more than so many items. -/
def noMore (items : List Draft) (size : Nat) : Except ReadError Unit :=
  match items[size]? with
  | none => .ok ()
  | some d => .error (.fault d.close)

/-! ## Texts -/

/-- The value that a text holds, blanks around it and nothing else. -/
def read {α : Type} (decode : Decoder α) (cs : List Char) : Except ReadError α := do
  let (d, rest) := Json.draft cs
  let a ← decode d
  match rest with
  | some r => if (Json.skipSpace r).isEmpty then return a else throw (.fault .malformed)
  | none => throw (.fault .malformed)

end BenchHistory.Decode
