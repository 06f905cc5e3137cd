/-!
# Blank characters

White space in the sense of the Unicode property `White_Space`, and the removal
of it from the ends of a text. A text is blank when nothing is left of it.
-/

namespace BenchHistory.Text

/-- The characters with the property `White_Space`, twenty-five in number. -/
def isBlank (c : Char) : Bool :=
  let n := c.toNat
  (0x09 ≤ n && n ≤ 0x0D) || n == 0x20 || n == 0x85 || n == 0xA0 || n == 0x1680 ||
    (0x2000 ≤ n && n ≤ 0x200A) || n == 0x2028 || n == 0x2029 || n == 0x202F ||
    n == 0x205F || n == 0x3000

def trimStart (cs : List Char) : List Char :=
  cs.dropWhile isBlank

def trimEnd (cs : List Char) : List Char :=
  (cs.reverse.dropWhile isBlank).reverse

/-- A text without the blanks at both ends. -/
def trim (cs : List Char) : List Char :=
  trimEnd (trimStart cs)

/-- A string of blanks alone, the empty string included. -/
def allBlank (s : String) : Bool :=
  s.toList.all isBlank

@[simp] theorem trimStart_nil : trimStart [] = [] := rfl

@[simp] theorem trimEnd_nil : trimEnd [] = [] := rfl

theorem trimStart_append_of_blank {w : List Char} (hw : w.all isBlank = true) (cs : List Char) :
    trimStart (w ++ cs) = trimStart cs := by
  induction w with
  | nil => rfl
  | cons c w ih =>
    obtain ⟨hc, hw⟩ := by simpa using hw
    simpa [trimStart, hc] using ih (by simpa using hw)

theorem trimEnd_append_of_blank {w : List Char} (hw : w.all isBlank = true) (cs : List Char) :
    trimEnd (cs ++ w) = trimEnd cs := by
  have h := trimStart_append_of_blank (w := w.reverse) (by simpa using hw) cs.reverse
  simpa [trimEnd, trimStart] using congrArg List.reverse h

end BenchHistory.Text
