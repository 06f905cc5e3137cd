import BenchHistory.History.Json
import BenchHistory.Proofs.History.Append
import BenchHistory.Proofs.Run.RoundTrip

/-!
# Histories read back

A history is read back from its JSON, except that measured zeros lose their signs
(`History.decode_toJson`). Whatever is read is of the kind that is read back
(`History.valid_of_decode`), and adding runs of that kind keeps it so (`Valid.attempts`).
-/

namespace BenchHistory.History

open Decode

/-- The names of the fields, in the order in which they are written. -/
def fields : List String := ["lastUpdate", "repoUrl", "entries"]

/-- The runs of every tool as JSON. -/
def entriesJson (entries : Keyed (List Run)) : Json :=
  .object (entries.map fun e => (e.1, .array (e.2.map Run.toJson)))

def own (h : History) : List (String × Json) :=
  [("lastUpdate", .int h.lastUpdate), ("repoUrl", .string h.repoUrl),
    ("entries", entriesJson h.entries)]

theorem toJson_eq (h : History) : h.toJson = .object (h.own ++ h.other) := rfl

/-- What a history has to be to be read back. -/
structure Valid (h : History) : Prop where
  lastUpdate_ge : -2 ^ 63 ≤ h.lastUpdate
  lastUpdate_lt : h.lastUpdate < 2 ^ 63
  tools_nodup : h.tools.Nodup
  runs : ∀ e ∈ h.entries, ∀ r ∈ e.2, r.Valid
  other : Kept fields h.other

theorem valid_entriesJson {entries : Keyed (List Run)} (hnames : (Keyed.keys entries).Nodup)
    (hruns : ∀ e ∈ entries, ∀ r ∈ e.2, r.Valid) : (entriesJson entries).Valid := by
  refine .object ?_ ?_
  · have hkeys : Keyed.keys (entries.map fun e => (e.1, Json.array (e.2.map Run.toJson))) =
        Keyed.keys entries := List.map_map
    rw [hkeys]
    exact hnames
  · intro m hm
    obtain ⟨e, he, rfl⟩ := List.mem_map.1 hm
    refine .array fun j hj => ?_
    obtain ⟨r, hr, rfl⟩ := List.mem_map.1 hj
    exact (hruns e he r hr).toJson

theorem Valid.toJson {h : History} (hh : h.Valid) : h.toJson.Valid := by
  rw [toJson_eq]
  refine valid_record (by decide) (List.Sublist.refl fields) ?_ hh.other
  unfold own
  simp only [List.forall_mem_cons]
  exact ⟨valid_int hh.lastUpdate_ge hh.lastUpdate_lt, .string _,
    valid_entriesJson hh.tools_nodup hh.runs, by simp⟩

theorem nesting_toJson_le {h : History} {n : ℕ} (hentries : (entriesJson h.entries).nesting ≤ n)
    (hother : ∀ e ∈ h.other, e.2.nesting ≤ n) : h.toJson.nesting ≤ n + 1 := by
  rw [toJson_eq, Json.nesting_object_le_iff, List.forall_mem_append]
  refine ⟨?_, hother⟩
  unfold own
  simp only [List.forall_mem_cons]
  exact ⟨Nat.zero_le _, Nat.zero_le _, hentries, by simp⟩

/-! ## Reading -/

/-- What has been read so far is valid and nested at most so deep. -/
structure Slots.Fits (n : ℕ) (s : Slots) : Prop where
  lastUpdate : ∀ t ∈ s.lastUpdate, -2 ^ 63 ≤ t ∧ t < 2 ^ 63
  entries : ∀ es ∈ s.entries, (Keyed.keys es).Nodup ∧ (∀ e ∈ es, ∀ r ∈ e.2, r.Valid) ∧
    (entriesJson es).nesting ≤ n
  other : Kept fields s.other
  nesting : ∀ e ∈ s.other, e.2.nesting ≤ n

theorem Slots.fits_empty (n : ℕ) : Slots.Fits n ⟨none, none, none, []⟩ where
  lastUpdate := by rintro t ⟨⟩
  entries := by rintro es ⟨⟩
  other := kept_nil _
  nesting := by rintro e ⟨⟩

/-- The runs of every tool are read as valid runs, nested no deeper than their draft. -/
theorem valid_of_keyed {n : ℕ} {d : Draft} (hd : d.Fits n) {es : Keyed (List Run)}
    (h : keyed (list Run.decode) d = .ok es) :
    (Keyed.keys es).Nodup ∧ (∀ e ∈ es, ∀ r ∈ e.2, r.Valid) ∧ (entriesJson es).nesting ≤ n := by
  obtain ⟨k, rfl, hnames, hall⟩ := exists_of_keyed hd h
  have hruns : ∀ e ∈ es, (∀ r ∈ e.2, r.Valid) ∧ (Json.array (e.2.map Run.toJson)).nesting ≤ k := by
    intro e he
    obtain ⟨x, hx, hdecode⟩ := hall e he
    obtain ⟨m, rfl, hitems⟩ := exists_of_list hx hdecode
    have hitem : ∀ r ∈ e.2, r.Valid ∧ r.toJson.nesting ≤ m := by
      intro r hr
      obtain ⟨y, hy, hrun⟩ := hitems r hr
      exact Run.valid_of_decode hy hrun
    refine ⟨fun r hr => (hitem r hr).1, Json.nesting_array_le_iff.2 fun j hj => ?_⟩
    obtain ⟨r, hr, rfl⟩ := List.mem_map.1 hj
    exact (hitem r hr).2
  refine ⟨hnames, fun e he => (hruns e he).1, Json.nesting_object_le_iff.2 fun m hm => ?_⟩
  obtain ⟨e, he, rfl⟩ := List.mem_map.1 hm
  exact (hruns e he).2

theorem Slots.Fits.take {n : ℕ} {s t : Slots} (hs : s.Fits n) {e : String × Draft}
    (he : e.2.Fits n) (h : s.take e = .ok t) : t.Fits n := by
  unfold Slots.take at h
  split at h
  case h_1 =>
    obtain ⟨a, ha, h⟩ := bind_eq_ok.1 h
    cases h
    obtain ⟨t, ht, rfl⟩ := fill_eq_ok ha
    refine ⟨?_, hs.entries, hs.other, hs.nesting⟩
    rintro b ⟨⟩
    have hrange := integer_eq_ok ht
    omega
  case h_2 =>
    obtain ⟨a, -, h⟩ := bind_eq_ok.1 h
    cases h
    exact ⟨hs.lastUpdate, hs.entries, hs.other, hs.nesting⟩
  case h_3 =>
    obtain ⟨a, ha, h⟩ := bind_eq_ok.1 h
    cases h
    obtain ⟨es, hes, rfl⟩ := fill_eq_ok ha
    refine ⟨hs.lastUpdate, ?_, hs.other, hs.nesting⟩
    rintro b ⟨⟩
    exact valid_of_keyed he hes
  case h_4 k d hlast hurl hentries =>
    obtain ⟨a, ha, h⟩ := bind_eq_ok.1 h
    cases h
    have hk : k ∉ fields := by
      simp only [fields, List.mem_cons, List.not_mem_nil, or_false, not_or]
      exact ⟨hlast, hurl, hentries⟩
    obtain ⟨hother, hnesting⟩ := hs.other.keep hs.nesting hk he ha
    exact ⟨hs.lastUpdate, hs.entries, hother, hnesting⟩

/--
What is read of a draft that fits is valid. It is nested no deeper, except that the runs are
written even if the draft has none.
-/
theorem valid_of_decode {n : ℕ} {d : Draft} (hd : d.Fits n) {h : History}
    (hdecode : decode d = .ok h) : h.Valid ∧ h.toJson.nesting ≤ max n 2 := by
  cases hd with
  | @object n ms hvalues =>
    obtain ⟨s, hs, hfinish⟩ := bind_eq_ok.1 hdecode
    cases hfinish
    have hfits : s.Fits n := invariant_foldlM (p := Slots.Fits n)
      (fun e he s t hs ht => hs.take (hvalues e he) ht) (Slots.fits_empty n) hs
    have hlast : -2 ^ 63 ≤ s.finish.lastUpdate ∧ s.finish.lastUpdate < 2 ^ 63 := by
      unfold Slots.finish
      cases ht : s.lastUpdate with
      | none => exact (by decide : -2 ^ 63 ≤ (0 : ℤ) ∧ (0 : ℤ) < 2 ^ 63)
      | some t => exact hfits.lastUpdate t ht
    have hentries : (Keyed.keys s.finish.entries).Nodup ∧
        (∀ e ∈ s.finish.entries, ∀ r ∈ e.2, r.Valid) ∧
        (entriesJson s.finish.entries).nesting ≤ max n 1 := by
      unfold Slots.finish
      cases hes : s.entries with
      | none => exact ⟨List.nodup_nil, by rintro e ⟨⟩, le_max_right n 1⟩
      | some es =>
        obtain ⟨hnames, hruns, hnesting⟩ := hfits.entries es hes
        exact ⟨hnames, hruns, hnesting.trans (le_max_left n 1)⟩
    refine ⟨⟨hlast.1, hlast.2, hentries.1, hentries.2.1, hfits.other⟩, ?_⟩
    have hnesting := nesting_toJson_le (h := s.finish) hentries.2.2
      fun e he => (hfits.nesting e he).trans (le_max_left n 1)
    omega
  | _ => cases hdecode

/-! ## Writing and reading -/

theorem Slots.take_other (s : Slots) (o : Keyed Json) (k : String) (d : Draft) (hk : k ∉ fields) :
    Slots.take { s with other := o } (k, d) = (keep o k d).map fun o => { s with other := o } := by
  have hk' : k ≠ "lastUpdate" ∧ k ≠ "repoUrl" ∧ k ≠ "entries" := by simpa [fields] using hk
  unfold Slots.take
  split
  case h_1 | h_2 | h_3 => simp_all
  case h_4 heq =>
    cases heq
    rfl

/-- The history as it is read back. -/
def plainZeros (h : History) : History :=
  { h with entries := h.entries.map fun e => (e.1, e.2.map Run.plainZeros) }

/-- The slots when all members of a history have been read. -/
def slots (h : History) : Slots :=
  ⟨some h.lastUpdate, some h.repoUrl, some h.plainZeros.entries, h.other⟩

/-- A valid history is read back, except that measured zeros lose their signs. -/
theorem decode_toJson {h : History} (hh : h.Valid) :
    decode h.toJson.toDraft = .ok h.plainZeros := by
  have hlast := int64_toDraft hh.lastUpdate_ge hh.lastUpdate_lt
  have hentries : keyed (list Run.decode) (entriesJson h.entries).toDraft =
      .ok h.plainZeros.entries :=
    keyed_toDraft (f := fun rs => .array (rs.map Run.toJson)) (g := fun rs => rs.map Run.plainZeros)
      hh.tools_nodup fun e he => list_toDraft fun r hr => Run.decode_toJson (hh.runs e he r hr)
  have hown : (Json.membersToDraft h.own).foldlM Slots.take ⟨none, none, none, []⟩ =
      .ok { h.slots with other := [] } := by
    simp only [own, Json.membersToDraft, List.foldlM_cons, Slots.take, fill, hlast, hentries]
    rfl
  have hother : (Json.membersToDraft h.other).foldlM Slots.take { h.slots with other := [] } =
      .ok h.slots :=
    foldlM_others (Slots.take_other h.slots) hh.other
  have hall := foldlM_members_append hown hother
  rw [toJson_eq, Json.toDraft]
  unfold decode
  simp only [hall]
  rfl

/-- Signs of zeros are not written. -/
theorem toJson_plainZeros {h : History} (hh : h.Valid) : h.plainZeros.toJson = h.toJson := by
  have hentries : entriesJson h.plainZeros.entries = entriesJson h.entries := by
    unfold entriesJson plainZeros
    rw [List.map_map]
    congr 1
    refine List.map_congr_left fun e he => ?_
    have hruns : (e.2.map Run.plainZeros).map Run.toJson = e.2.map Run.toJson := by
      rw [List.map_map]
      exact List.map_congr_left fun r hr => Run.toJson_plainZeros (hh.runs e he r hr)
    exact congrArg (fun js => (e.1, Json.array js)) hruns
  rw [toJson_eq, toJson_eq]
  unfold own
  rw [hentries]
  rfl

/-! ## Adding runs -/

theorem valid_stored {tool : String} {r : Run} (hr : r.Valid) : (stored tool r).Valid := by
  unfold stored
  split
  · exact ⟨hr.commit, hr.date_ge, hr.date_lt, hr.benches, hr.other⟩
  · exact hr

theorem exists_mem_entries {h : History} {tool : String} {r : Run} (hr : r ∈ h.runs tool) :
    ∃ e ∈ h.entries, r ∈ e.2 := by
  unfold History.runs at hr
  match hget : Keyed.get? tool h.entries with
  | none =>
    rw [hget] at hr
    cases hr
  | some rs =>
    rw [hget] at hr
    exact ⟨(tool, rs), Keyed.mem_of_get? hget, hr⟩

theorem Valid.runs_valid {h : History} (hh : h.Valid) (tool : String) :
    ∀ r ∈ h.runs tool, r.Valid := by
  intro r hr
  obtain ⟨e, he, hre⟩ := exists_mem_entries hr
  exact hh.runs e he r hre

theorem Valid.push {h : History} (hh : h.Valid) {r : Run} (hr : r.Valid) (tool : String) :
    (h.push tool r).Valid where
  lastUpdate_ge := hh.lastUpdate_ge.trans (le_max_left _ _)
  lastUpdate_lt := max_lt hh.lastUpdate_lt hr.date_lt
  tools_nodup := Keyed.nodup_keys_put hh.tools_nodup tool _
  runs e he := by
    obtain hmem | heq := Keyed.mem_put he
    · exact hh.runs e hmem
    · rw [heq, List.forall_mem_append, List.forall_mem_singleton]
      exact ⟨hh.runs_valid tool, hr⟩
  other := hh.other

theorem Valid.attempt {h : History} (hh : h.Valid) {c : String × Run} (hc : c.2.Valid) :
    (h.attempt c).Valid := by
  obtain heq | ⟨-, -, -, heq⟩ := attempt_cases h c
  · rw [heq]
    exact hh
  · rw [heq]
    exact hh.push (valid_stored hc) c.1

theorem Valid.attempts {h : History} (hh : h.Valid) {cs : List (String × Run)}
    (hcs : ∀ c ∈ cs, c.2.Valid) : (h.attempts cs).Valid := by
  induction cs generalizing h with
  | nil => exact hh
  | cons c cs ih =>
    exact ih (hh.attempt (hcs c List.mem_cons_self)) fun c' hc' =>
      hcs c' (List.mem_cons_of_mem c hc')

end BenchHistory.History
