import BenchHistory.Text.Invisible

/-!
# Quoted text in messages

Messages that repeat a piece of the input put it between double quotes. What
would end the quotation, or could not be seen in it, is written as an escape.
-/

namespace BenchHistory.Text

def hexDigits (n : Nat) : List Char :=
  Nat.toDigits 16 n

/-- One character of a quotation. -/
def quoteChar (c : Char) : List Char :=
  if c = '"' then ['\\', '"']
  else if c = '\\' then ['\\', '\\']
  else if c = '\n' then ['\\', 'n']
  else if c = '\r' then ['\\', 'r']
  else if c = '\t' then ['\\', 't']
  else if c = '\x00' then ['\\', '0']
  else if isInvisible c then "\\u\x7b".toList ++ hexDigits c.toNat ++ ['}']
  else [c]

def quoted (s : String) : String :=
  String.ofList ('"' :: s.toList.flatMap quoteChar ++ ['"'])

def quotedOption : Option String → String
  | none => "None"
  | some s => "Some(" ++ quoted s ++ ")"

def named (s : String) : String :=
  "\x60" ++ s ++ "\x60"

end BenchHistory.Text
