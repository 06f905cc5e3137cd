import BenchHistory.Json.Printer
import BenchHistory.Proofs.Decimal.Digits

/-!
# Values on lines

Whatever strings it holds, the compact form of a value stands on one line
(`newline_not_mem_text`), since line feeds are escaped in strings and stand nowhere else. So lines
of values, each ended by a line feed, come apart again where they were put together
(`splitOn_lines`).
-/

namespace BenchHistory

/-! ## Digits -/

namespace Decimal

theorem newline_not_mem_digitList (n : ℕ) : '\n' ∉ digitList n := by
  intro h
  cases isDigit_of_mem_digitList h

theorem newline_not_mem_positional (mark : Bool) (d : Decimal) : '\n' ∉ positional mark d := by
  have hdigits := newline_not_mem_digitList d.digits
  unfold positional
  simp only
  split
  · simp [hdigits]
  split
  · cases mark <;> simp [hdigits]
  · intro h
    rw [List.mem_append, List.mem_cons] at h
    obtain h | h | h := h
    · exact hdigits (List.mem_of_mem_take h)
    · cases h
    · exact hdigits (List.mem_of_mem_drop h)

theorem newline_not_mem_scientific (d : Decimal) : '\n' ∉ scientific d := by
  have hdigits := newline_not_mem_digitList d.digits
  have hpower := newline_not_mem_digitList d.leading.natAbs
  unfold scientific
  simp only
  split
  · split <;> simp [hpower]
  · next c heq =>
    rw [heq] at hdigits
    split <;> simp_all
  · next c cs heq =>
    rw [heq] at hdigits
    split <;> simp_all

end Decimal

namespace Json

/-! ## Values -/

theorem newline_not_mem_escapeChar (c : Char) : '\n' ∉ escapeChar c := by
  have hdigit : ∀ n : Fin 32, Nat.digitChar n ≠ '\n' := by decide
  unfold escapeChar
  split_ifs with hquote hback hb hf hn hr ht hlow
  -- Other than for the fixed escapes, it is a code of two digits or the character itself.
  any_goals decide
  · have hhigh := hdigit ⟨c.toNat / 16, by omega⟩
    have hrest := hdigit ⟨c.toNat % 16, by omega⟩
    simp [hhigh.symm, hrest.symm]
  · simpa using Ne.symm hn

theorem newline_not_mem_stringText (s : String) : '\n' ∉ stringText s := by
  simp [stringText, newline_not_mem_escapeChar]

theorem newline_not_mem_numberText (n : Number) : '\n' ∉ numberText n := by
  cases n with
  | whole n =>
    show '\n' ∉ intText n
    unfold intText
    split <;> simp [Decimal.newline_not_mem_digitList]
  | real x =>
    show '\n' ∉ realText x
    unfold realText
    simp only
    split
    · split <;> split <;>
        simp [Decimal.newline_not_mem_positional, Decimal.newline_not_mem_scientific]
    · decide

theorem Layout.line_compact (depth : ℕ) : Layout.compact.line depth = [] := rfl

theorem Layout.gap_compact : Layout.compact.gap = [] := rfl

-- The compact form is opened by its equations.
attribute [local simp] text itemsText membersText Layout.line_compact Layout.gap_compact

mutual

/-- The compact form of a value holds no line feed. -/
theorem newline_not_mem_text (depth : ℕ) (j : Json) : '\n' ∉ text .compact depth j := by
  cases j with
  | null => simp
  | bool b => cases b <;> simp [boolText]
  | number n => exact newline_not_mem_numberText n
  | string s => exact newline_not_mem_stringText s
  | array xs =>
    cases xs with
    | nil => simp
    | cons x xs =>
      have hx := newline_not_mem_text (depth + 1) x
      have hxs := newline_not_mem_itemsText depth xs
      simp [hx, hxs]
  | object ms =>
    cases ms with
    | nil => simp
    | cons e ms =>
      obtain ⟨k, v⟩ := e
      have hk := newline_not_mem_stringText k
      have hv := newline_not_mem_text (depth + 1) v
      have hms := newline_not_mem_membersText depth ms
      simp [hk, hv, hms]

theorem newline_not_mem_itemsText (depth : ℕ) (xs : List Json) :
    '\n' ∉ itemsText .compact depth xs := by
  cases xs with
  | nil => simp
  | cons x xs =>
    have hx := newline_not_mem_text (depth + 1) x
    have hxs := newline_not_mem_itemsText depth xs
    simp [hx, hxs]

theorem newline_not_mem_membersText (depth : ℕ) (ms : List (String × Json)) :
    '\n' ∉ membersText .compact depth ms := by
  cases ms with
  | nil => simp
  | cons e ms =>
    obtain ⟨k, v⟩ := e
    have hk := newline_not_mem_stringText k
    have hv := newline_not_mem_text (depth + 1) v
    have hms := newline_not_mem_membersText depth ms
    simp [hk, hv, hms]

end

/-! ## Lines -/

/-- Lines that are each ended by a line feed come apart again, with nothing behind the last. -/
theorem splitOn_lines {ls : List (List Char)} (hls : ∀ l ∈ ls, '\n' ∉ l) :
    (ls.flatMap (· ++ ['\n'])).splitOn '\n' = ls ++ [[]] := by
  have hjoined : ls.flatMap (· ++ ['\n']) = ['\n'].intercalate (ls ++ [[]]) := by
    clear hls
    induction ls with
    | nil => rfl
    | cons l ls ih =>
      have hne : ls ++ [[]] ≠ [] := by simp
      rw [List.flatMap_cons, ih, List.cons_append, List.intercalate_cons_of_ne_nil hne]
  rw [hjoined]
  refine List.splitOn_intercalate '\n' ?_ (by simp)
  rw [List.forall_mem_append, List.forall_mem_singleton]
  exact ⟨hls, List.not_mem_nil⟩

end Json

end BenchHistory
