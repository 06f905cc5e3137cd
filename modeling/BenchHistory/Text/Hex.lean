/-!
# Hexadecimal digits

Numbers in hexadecimal digits, and the characters whose codes they are.
-/

namespace BenchHistory.Text

/-- The value of a hexadecimal digit. -/
def hexDigit? (c : Char) : Option Nat :=
  if c.isDigit then some (c.toNat - 48)
  else if 'a' ≤ c ∧ c ≤ 'f' then some (c.toNat - 87)
  else if 'A' ≤ c ∧ c ≤ 'F' then some (c.toNat - 55)
  else none

/-- The number that digits of a base of sixteen at most write; no digits write zero. -/
def basedNumber? (base : Nat) (ds : List Char) : Option Nat :=
  ds.foldlM
    (fun n c => (hexDigit? c).bind fun d => if d < base then some (base * n + d) else none) 0

def hexNumber? (ds : List Char) : Option Nat :=
  basedNumber? 16 ds

/-- The character with a code; surrogates and numbers beyond them are none. -/
def ofCode? (n : Nat) : Option Char :=
  if n < 0xD800 ∨ (0xDFFF < n ∧ n < 0x110000) then some (Char.ofNat n) else none

def ofHex? (ds : List Char) : Option Char :=
  (hexNumber? ds).bind ofCode?

end BenchHistory.Text
