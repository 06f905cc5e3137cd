/-!
# Words in a text

Small and capital letters are told apart only within ASCII; comparisons that
ignore case fold the capitals away first.
-/

namespace BenchHistory.Text

/-- A text with its ASCII capitals made small. -/
def fold (s : String) : String :=
  String.ofList (s.toList.map Char.toLower)

theorem toLower_toLower (c : Char) : c.toLower.toLower = c.toLower := by
  by_cases hcapital : c.val ≥ 'A'.val ∧ c.val ≤ 'Z'.val
  · have hval : c.toLower.val = c.val + 32 := congrArg Char.val (dif_pos hcapital)
    -- a capital is moved behind all of the capitals
    refine dif_neg ?_
    rw [hval]
    simp only [ge_iff_le, UInt32.le_iff_toNat_le, UInt32.toNat_add] at hcapital ⊢
    have hA : 'A'.val.toNat = 65 := rfl
    have hZ : 'Z'.val.toNat = 90 := rfl
    have hshift : (32 : UInt32).toNat = 32 := rfl
    omega
  · have hsame : c.toLower = c := dif_neg hcapital
    rw [hsame, hsame]

theorem fold_fold (s : String) : fold (fold s) = fold s := by
  unfold fold
  rw [String.toList_ofList, List.map_map]
  congr 1
  exact List.map_congr_left fun c _ => toLower_toLower c

/-- Whether a word stands somewhere in a text. -/
def occurs (word : List Char) : List Char → Bool
  | [] => word.isEmpty
  | c :: cs => word.isPrefixOf (c :: cs) || occurs word cs

/-- What follows a given start. -/
def afterStart? : List Char → List Char → Option (List Char)
  | [], cs => some cs
  | _ :: _, [] => none
  | w :: ws, c :: cs => if w = c then afterStart? ws cs else none

theorem afterStart?_eq_some_iff {w cs r : List Char} :
    afterStart? w cs = some r ↔ cs = w ++ r := by
  induction w generalizing cs with
  | nil => simp [afterStart?, eq_comm]
  | cons x w ih =>
    cases cs with
    | nil => simp [afterStart?]
    | cons c cs =>
      by_cases h : x = c
      · simp [afterStart?, h, ih]
      · simp [afterStart?, h, Ne.symm h]

end BenchHistory.Text
