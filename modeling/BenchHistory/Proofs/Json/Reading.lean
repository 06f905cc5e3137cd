import BenchHistory.Proofs.Json.Token
import BenchHistory.Proofs.Json.Valid

/-!
# What a text is read as

Whatever the text is, the draft that is read from it fits into the depth that was allowed
(`fits_draft`).
-/

namespace BenchHistory.Json

/-! ## Tokens -/

theorem inRange_of_number? {n : Numeral} {a : Number} (h : n.number? = some a) : a.InRange := by
  unfold Numeral.number? at h
  simp only at h
  split at h
  · next hsmall =>
    cases h
    simp only [Bool.and_eq_true, decide_eq_true_eq] at hsmall
    unfold Number.InRange
    omega
  split at h
  · next hsmall =>
    cases h
    simp only [Bool.and_eq_true, decide_eq_true_eq] at hsmall
    unfold Number.InRange
    omega
  split at h
  · next hfinite =>
    cases h
    show Float.isFinite _ = true
    split
    · exact Binary64.isFinite_neg hfinite
    · exact hfinite
  · cases h

theorem fits_numberValue (n : ℕ) (cs : List Char) : (numberValue cs).1.Fits n := by
  unfold numberValue
  split
  · exact .gap _
  split
  · next hnumber => exact .number (inRange_of_number? hnumber)
  · exact .gap _

theorem fits_stringValue (n : ℕ) (cs : List Char) : (stringValue cs).1.Fits n := by
  unfold stringValue
  split
  · exact .string _
  split
  · exact .gap _
  · exact .gap _

theorem fits_wordValue {n : ℕ} {v : Draft} (hv : v.Fits n) (word cs : List Char) :
    (wordValue v word cs).1.Fits n := by
  unfold wordValue
  split
  · exact hv
  · exact .gap _

theorem fits_nested {depth : ℕ} {v : Draft} (hv : v.Fits (depth - 1 + 1))
    (rest : Option (List Char)) : (nested depth v rest).1.Fits depth := by
  unfold nested
  split
  · exact .gap _
  · next hpos =>
    rw [Nat.sub_add_cancel (Nat.pos_of_ne_zero hpos)] at hv
    exact hv

theorem fits_unclosed (n : ℕ) (cs : List Char) : (unclosed cs).Fits n := by
  unfold unclosed
  split <;> exact .gap _

/-! ## Values -/

/-- What one reader after the other keeps, with the same fuel. -/
structure AllFit (fuel : ℕ) : Prop where
  value : ∀ depth cs, (value fuel depth cs).1.Fits depth
  items : ∀ depth cs, ∀ x ∈ (items fuel depth cs).1, x.Fits depth
  members : ∀ depth cs, ∀ e ∈ (members fuel depth cs).1, e.2.Fits depth
  member : ∀ depth k cs, ∀ e ∈ (member fuel depth k cs).1, e.2.Fits depth

theorem allFit_zero : AllFit 0 where
  value depth cs := by
    unfold Json.value
    exact .gap _
  items depth cs := by
    unfold Json.items
    rw [List.forall_mem_singleton]
    exact .gap _
  members depth cs := by
    unfold Json.members
    rw [List.forall_mem_singleton]
    exact .gap _
  member depth k cs := by
    unfold Json.member
    rw [List.forall_mem_singleton]
    exact .gap _

theorem AllFit.value_succ {fuel : ℕ} (h : AllFit fuel) (depth : ℕ) (cs : List Char) :
    (Json.value (fuel + 1) depth cs).1.Fits depth := by
  unfold Json.value
  split
  · exact .gap _
  · exact fits_stringValue _ _
  · split
    · exact fits_nested (.array (by simp)) _
    · exact fits_nested (.array (h.items _ _)) _
  · split
    · exact fits_nested (.object (by simp)) _
    · exact fits_nested (.object (h.members _ _)) _
  · exact fits_wordValue .null _ _
  · exact fits_wordValue (.bool _) _ _
  · exact fits_wordValue (.bool _) _ _
  · split
    · exact fits_numberValue _ _
    · exact .gap _

theorem AllFit.items_succ {fuel : ℕ} (h : AllFit fuel) (depth : ℕ) (cs : List Char) :
    ∀ x ∈ (Json.items (fuel + 1) depth cs).1, x.Fits depth := by
  have hfirst := h.value depth cs
  unfold Json.items
  simp only
  split
  · rw [List.forall_mem_singleton]
    exact hfirst
  split
  · rw [List.forall_mem_singleton]
    exact hfirst
  · rw [List.forall_mem_cons]
    exact ⟨hfirst, h.items _ _⟩
  · rw [List.forall_mem_cons, List.forall_mem_singleton]
    exact ⟨hfirst, fits_unclosed _ _⟩

theorem AllFit.members_succ {fuel : ℕ} (h : AllFit fuel) (depth : ℕ) (cs : List Char) :
    ∀ e ∈ (Json.members (fuel + 1) depth cs).1, e.2.Fits depth := by
  unfold Json.members
  split
  · rw [List.forall_mem_singleton]
    exact .gap _
  · split
    · exact h.member _ _ _
    split
    · rw [List.forall_mem_singleton]
      exact .gap _
    · rw [List.forall_mem_cons]
      exact ⟨.gap _, h.member _ _ _⟩
  · rw [List.forall_mem_singleton]
    exact .gap _

theorem AllFit.member_succ {fuel : ℕ} (h : AllFit fuel) (depth : ℕ) (k : String)
    (cs : List Char) : ∀ e ∈ (Json.member (fuel + 1) depth k cs).1, e.2.Fits depth := by
  unfold Json.member
  split
  · rw [List.forall_mem_singleton]
    exact .gap _
  · next r _ =>
    have hfirst := h.value depth r
    simp only
    split
    · rw [List.forall_mem_singleton]
      exact hfirst
    split
    · rw [List.forall_mem_singleton]
      exact hfirst
    · rw [List.forall_mem_cons]
      exact ⟨hfirst, h.members _ _⟩
    · rw [List.forall_mem_cons, List.forall_mem_singleton]
      exact ⟨hfirst, fits_unclosed _ _⟩
  · rw [List.forall_mem_singleton]
    exact .gap _

theorem allFit (fuel : ℕ) : AllFit fuel := by
  induction fuel with
  | zero => exact allFit_zero
  | succ fuel ih => exact ⟨ih.value_succ, ih.items_succ, ih.members_succ, ih.member_succ⟩

/-- What is read fits into the depth that is allowed. -/
theorem fits_draft (cs : List Char) : (draft cs).1.Fits maxDepth := by
  unfold draft
  exact (allFit _).value _ _

end BenchHistory.Json
