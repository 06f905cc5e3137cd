import BenchHistory.Proofs.Json.RoundTrip

/-!
# Texts that are nested too deep

A draft is `Readable` if there is no gap in it. A text that is read without a gap is read as the
same draft where deeper nesting is allowed (`AllMono`). So the text of a valid value is read without
a gap exactly if the value is not nested too deep (`readable_draft_text_iff`).
-/

namespace BenchHistory

/-! ## Drafts without gaps -/

namespace Draft

/-- There is no gap in the draft, so that it writes a value. -/
def Readable (d : Draft) : Prop :=
  ∃ j, d.toJson = .ok j

theorem not_readable_gap (g : Gap) : ¬ (gap g).Readable := by
  rintro ⟨j, h⟩
  cases h

theorem readable_array_iff {xs : List Draft} :
    (array xs).Readable ↔ ∀ x ∈ xs, x.Readable := by
  unfold Readable
  rw [← exists_mapM_eq_ok_iff, ← itemsToJson_eq]
  constructor
  · rintro ⟨j, h⟩
    rw [toJson] at h
    obtain ⟨ys, hys, -⟩ := bind_eq_ok.1 h
    exact ⟨ys, hys⟩
  · rintro ⟨ys, hys⟩
    exact ⟨.array ys, by rw [toJson, hys]; rfl⟩

theorem exists_membersToJson_iff (done : Keyed Json) {ms : List (String × Draft)} :
    (∃ all, membersToJson done ms = .ok all) ↔ ∀ e ∈ ms, e.2.Readable := by
  induction ms generalizing done with
  | nil => simp [membersToJson]
  | cons e ms ih =>
    rw [List.forall_mem_cons]
    constructor
    · rintro ⟨all, h⟩
      rw [membersToJson] at h
      obtain ⟨j, hj, h⟩ := bind_eq_ok.1 h
      exact ⟨⟨j, hj⟩, (ih _).1 ⟨all, h⟩⟩
    · rintro ⟨⟨j, hj⟩, hms⟩
      obtain ⟨all, h⟩ := (ih (Keyed.put e.1 j done)).2 hms
      exact ⟨all, by rw [membersToJson, hj]; exact h⟩

theorem readable_object_iff {ms : List (String × Draft)} :
    (object ms).Readable ↔ ∀ e ∈ ms, e.2.Readable := by
  rw [← exists_membersToJson_iff []]
  constructor
  · rintro ⟨j, h⟩
    rw [toJson] at h
    obtain ⟨all, hall, -⟩ := bind_eq_ok.1 h
    exact ⟨all, hall⟩
  · rintro ⟨all, hall⟩
    exact ⟨.object all, by rw [toJson, hall]; rfl⟩

end Draft

namespace Json

/-! ## More depth -/

theorem nested_mono {depth depth' : ℕ} (hle : depth ≤ depth') {v v' : Draft}
    {rest rest' : Option (List Char)} (h : v.Readable → v' = v ∧ rest' = rest)
    (hread : (nested depth v rest).1.Readable) :
    nested depth' v' rest' = nested depth v rest := by
  unfold nested at hread ⊢
  split at hread
  · exact absurd hread (Draft.not_readable_gap _)
  · next hpos =>
    obtain ⟨rfl, rfl⟩ := h hread
    rw [if_neg hpos, if_neg (by omega)]

/--
What one reader after the other does, with the same fuel: what is read without a gap is read just
so where more depth is allowed.
-/
structure AllMono (fuel : ℕ) : Prop where
  value {depth depth' : ℕ} {cs : List Char} : depth ≤ depth' →
    (value fuel depth cs).1.Readable → value fuel depth' cs = value fuel depth cs
  items {depth depth' : ℕ} {cs : List Char} : depth ≤ depth' →
    (∀ x ∈ (items fuel depth cs).1, x.Readable) → items fuel depth' cs = items fuel depth cs
  members {depth depth' : ℕ} {cs : List Char} : depth ≤ depth' →
    (∀ e ∈ (members fuel depth cs).1, e.2.Readable) →
      members fuel depth' cs = members fuel depth cs
  member {depth depth' : ℕ} {k : String} {cs : List Char} : depth ≤ depth' →
    (∀ e ∈ (member fuel depth k cs).1, e.2.Readable) →
      member fuel depth' k cs = member fuel depth k cs

theorem allMono_zero : AllMono 0 where
  value := by
    intro depth depth' cs _ _
    rw [Json.value, Json.value]
  items := by
    intro depth depth' cs _ _
    rw [Json.items, Json.items]
  members := by
    intro depth depth' cs _ _
    rw [Json.members, Json.members]
  member := by
    intro depth depth' k cs _ _
    rw [Json.member, Json.member]

variable {fuel depth depth' : ℕ} {cs : List Char}

theorem AllMono.value_succ (h : AllMono fuel) (hle : depth ≤ depth')
    (hread : (Json.value (fuel + 1) depth cs).1.Readable) :
    Json.value (fuel + 1) depth' cs = Json.value (fuel + 1) depth cs := by
  unfold Json.value at hread ⊢
  split at hread
  case h_3 r hbracket =>
    split at hread
    · exact nested_mono hle (fun _ => ⟨rfl, rfl⟩) hread
    · refine nested_mono hle (fun hitems => ?_) hread
      rw [h.items (Nat.sub_le_sub_right hle 1) (Draft.readable_array_iff.1 hitems)]
      exact ⟨rfl, rfl⟩
  case h_4 r hbrace =>
    split at hread
    · exact nested_mono hle (fun _ => ⟨rfl, rfl⟩) hread
    · refine nested_mono hle (fun hmembers => ?_) hread
      rw [h.members (Nat.sub_le_sub_right hle 1) (Draft.readable_object_iff.1 hmembers)]
      exact ⟨rfl, rfl⟩
  all_goals rfl

theorem value_mem_items (fuel depth : ℕ) (cs : List Char) :
    (Json.value fuel depth cs).1 ∈ (Json.items (fuel + 1) depth cs).1 := by
  unfold Json.items
  simp only
  split
  · exact List.mem_cons_self
  split <;> exact List.mem_cons_self

theorem value_mem_member {cs r : List Char} (hcolon : skipSpace cs = ':' :: r) (fuel depth : ℕ)
    (k : String) :
    (k, (Json.value fuel depth r).1) ∈ (Json.member (fuel + 1) depth k cs).1 := by
  unfold Json.member
  rw [hcolon]
  simp only
  split
  · exact List.mem_cons_self
  split <;> exact List.mem_cons_self

theorem AllMono.items_succ (h : AllMono fuel) (hle : depth ≤ depth')
    (hread : ∀ x ∈ (Json.items (fuel + 1) depth cs).1, x.Readable) :
    Json.items (fuel + 1) depth' cs = Json.items (fuel + 1) depth cs := by
  have hfirst : (Json.value fuel depth cs).1.Readable := hread _ (value_mem_items fuel depth cs)
  have hvalue := h.value hle hfirst
  unfold Json.items at hread ⊢
  simp only [hvalue] at hread ⊢
  split at hread
  · rfl
  split at hread
  · rfl
  · rw [List.forall_mem_cons] at hread
    rw [h.items hle hread.2]
  · rfl

theorem AllMono.members_succ (h : AllMono fuel) (hle : depth ≤ depth')
    (hread : ∀ e ∈ (Json.members (fuel + 1) depth cs).1, e.2.Readable) :
    Json.members (fuel + 1) depth' cs = Json.members (fuel + 1) depth cs := by
  unfold Json.members at hread ⊢
  split at hread
  · rfl
  · split at hread
    · exact h.member hle hread
    · split at hread
      · rfl
      · exact absurd (hread _ List.mem_cons_self) (Draft.not_readable_gap _)
  · exact absurd (hread _ List.mem_cons_self) (Draft.not_readable_gap _)

theorem AllMono.member_succ {k : String} (h : AllMono fuel) (hle : depth ≤ depth')
    (hread : ∀ e ∈ (Json.member (fuel + 1) depth k cs).1, e.2.Readable) :
    Json.member (fuel + 1) depth' k cs = Json.member (fuel + 1) depth k cs := by
  by_cases hcolon : ∃ r, skipSpace cs = ':' :: r
  · obtain ⟨r, hcolon⟩ := hcolon
    have hfirst : (Json.value fuel depth r).1.Readable :=
      hread _ (value_mem_member hcolon fuel depth k)
    have hvalue := h.value hle hfirst
    unfold Json.member at hread ⊢
    simp only [hcolon, hvalue] at hread ⊢
    split at hread
    · rfl
    split at hread
    · rfl
    · rw [List.forall_mem_cons] at hread
      rw [h.members hle hread.2]
    · rfl
  · unfold Json.member
    split
    · rfl
    · next r heq => exact absurd ⟨r, heq⟩ hcolon
    · rfl

theorem allMono (fuel : ℕ) : AllMono fuel := by
  induction fuel with
  | zero => exact allMono_zero
  | succ fuel ih => exact ⟨ih.value_succ, ih.items_succ, ih.members_succ, ih.member_succ⟩

/-! ## The depth that is allowed -/

/-- The text of a valid value is read without a gap exactly if the value is not nested too deep. -/
theorem readable_draft_text_iff {l : Layout} (hl : l.Blank) {j : Json} (hj : j.Valid)
    (level : ℕ) : (draft (text l level j)).1.Readable ↔ j.nesting ≤ maxDepth := by
  constructor
  · intro hread
    by_contra hdeep
    have hfits := fits_draft (text l level j)
    unfold draft at hread hfits
    have hagree := (allMono _).value (Nat.le_of_not_le hdeep) hread
    have hmore := hj.readsBack hl (2 * (text l level j).length + 2) j.nesting level [] le_rfl
      (Nat.le_add_right _ _) nofun
    rw [List.append_nil, hagree] at hmore
    rw [hmore] at hfits
    exact hdeep (hfits.of_toJson hj.toJson_toDraft).2
  · intro hdepth
    rw [draft_text hl hj hdepth]
    exact ⟨j, hj.toJson_toDraft⟩

end Json

end BenchHistory
