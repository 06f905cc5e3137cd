import BenchHistory.Proofs.History.Document
import BenchHistory.Proofs.Run.Carried

/-!
# What documents carry over

A document that is read and written again carries over every member of its records
(`ofText_carried`). Since nothing is carried over from a gap, a history is read back from the text
that is written for it exactly if it is not nested too deep (`exists_ofText_render_iff`).
-/

namespace BenchHistory.History

open Decode

def parts : Keyed Carry :=
  [("lastUpdate", .plain), ("repoUrl", .plain), ("entries", .members (.items Run.carry))]

def carry : Carry := .record parts

theorem readable_carry : carry.Readable := by
  refine Carry.readable_record ?_
  simp only [parts, List.forall_mem_cons]
  exact ⟨Carry.readable_plain, Carry.readable_plain,
    Carry.readable_members (Carry.readable_items Run.readable_carry), by simp⟩

/-- The members of the fields that have been read so far. -/
def Slots.own (s : Slots) : Keyed (Option Json) :=
  [("lastUpdate", s.lastUpdate.map .int), ("repoUrl", s.repoUrl.map .string),
    ("entries", s.entries.map entriesJson)]

theorem Slots.taken {n : ℕ} {s t : Slots} {e : String × Draft} (he : e.2.Fits n)
    (h : s.take e = .ok t) : Taken parts e s.own s.other t.own t.other := by
  unfold Slots.take at h
  split at h
  case h_1 =>
    obtain ⟨a, ha, h⟩ := bind_eq_ok.1 h
    cases h
    exact taken_fill carries_int64 he ha rfl rfl
  case h_2 =>
    obtain ⟨a, ha, h⟩ := bind_eq_ok.1 h
    cases h
    exact taken_fill carries_string he ha rfl rfl
  case h_3 =>
    obtain ⟨a, ha, h⟩ := bind_eq_ok.1 h
    cases h
    exact taken_fill (carries_keyed (carries_list Run.carries_decode)) he ha rfl rfl
  case h_4 k d hlast hurl hentries =>
    obtain ⟨a, ha, h⟩ := bind_eq_ok.1 h
    cases h
    have hk : k ∉ Keyed.keys parts := by
      simp only [parts, Keyed.keys, List.map_cons, List.map_nil, List.mem_cons, List.not_mem_nil,
        or_false, not_or]
      exact ⟨hlast, hurl, hentries⟩
    exact .other hk ha

theorem mem_own_of_slots {s : Slots} {k : String} {v : Json}
    (h : Keyed.get? k s.own = some (some v)) : (k, v) ∈ s.finish.own := by
  have hmem := Keyed.mem_of_get? h
  simp only [Slots.own, List.mem_cons, Prod.mk.injEq, List.not_mem_nil, or_false] at hmem
  unfold own
  simp only [List.mem_cons, Prod.mk.injEq, List.not_mem_nil, or_false]
  obtain ⟨hk, hv⟩ | ⟨hk, hv⟩ | ⟨hk, hv⟩ := hmem
  all_goals
    obtain ⟨x, hx, rfl⟩ := Option.map_eq_some_iff.1 hv.symm
    simp [Slots.finish, hk, hx]

theorem carries_decode : Carries decode toJson carry := by
  intro n d h hd hdecode
  have hvalid := (valid_of_decode hd hdecode).1
  cases hd with
  | object hvalues =>
    obtain ⟨s, hs, hdecode⟩ := bind_eq_ok.1 hdecode
    cases hdecode
    exact record_of_foldlM Slots.own Slots.other (fun s t e he => Slots.taken he) hvalues rfl hs
      (fun k v => mem_own_of_slots) (List.Subset.refl _) hvalid.toJson
  | _ => cases hdecode

/-! ## Documents -/

/-- The text of a valid history is read, if that is not nested too deep, and only then. -/
theorem exists_ofText_render_iff {h : History} (hh : h.Valid) (format : Format) :
    (∃ h', ofText (render format h) = .ok h') ↔ h.toJson.nesting ≤ Json.maxDepth := by
  constructor
  · rintro ⟨h', hread⟩
    have hdecode := decode_of_read hread
    have hcarried := carries_decode (Json.fits_draft _) hdecode
    have hreadable := readable_carry _ _ hcarried
    rw [body_render] at hreadable
    exact (Json.readable_draft_text_iff Json.Layout.blank_pretty hh.toJson 0).1 hreadable
  · intro hdepth
    exact ⟨h.plainZeros, ofText_render hh hdepth format⟩

end BenchHistory.History
