import BenchHistory.Proofs.History.Carried
import BenchHistory.Proofs.Json.Place
import BenchHistory.Proofs.Run.Same
import BenchHistory.Proofs.Run.Spelling

/-!
# Documents of JavaScript producers

A value that JavaScript has written into a document has the same characters after the document is
read and written again, except in the two ranges where the spellings differ (`ofText_spelled`).
-/

namespace BenchHistory

/-! ## Carried parts -/

namespace Carry

variable {R : Carry} {d e : Draft} {j : Json}

theorem exists_part_record {fields : Keyed Carry} (h : record fields d j) {k : String}
    (hR : Keyed.get? k fields = some R) (he : d.part? (.member k) = some e) :
    e = .null ∨ ∃ v, j.part? (.member k) = some v ∧ R e v := by
  obtain ⟨ms, ns, rfl, rfl, hnames, -, hknown⟩ := h
  have hmem : (k, e) ∈ ms := List.mem_reverse.1 (Keyed.mem_of_get? he)
  refine (hknown (k, e) hmem R hR).imp_right ?_
  rintro ⟨v, hv, hcarried⟩
  exact ⟨v, Keyed.get?_of_mem hnames hv, hcarried⟩

theorem exists_part_members (h : members R d j) {k : String}
    (he : d.part? (.member k) = some e) : ∃ v, j.part? (.member k) = some v ∧ R e v := by
  obtain ⟨ms, ns, rfl, rfl, hlast⟩ := h
  exact hlast.last k e he

theorem exists_part_items (h : items R d j) {i : ℕ} (he : d.part? (.item i) = some e) :
    ∃ v, j.part? (.item i) = some v ∧ R e v := by
  obtain ⟨xs, ys, rfl, rfl, hall⟩ := h
  obtain ⟨hi, rfl⟩ := List.getElem?_eq_some_iff.1 he
  have hi' : i < ys.length := hall.length_eq ▸ hi
  exact ⟨ys[i], List.getElem?_eq_getElem hi', hall.get hi hi'⟩

end Carry

namespace History

/-! ## The place of a value -/

/-- The place of the value of a sample in a document. -/
def valuePath (tool : String) (run sample : ℕ) : List Hop :=
  [.member "entries", .member tool, .item run, .member "benches", .item sample, .member "value"]

/-- The value of a sample is carried over to the same place. -/
theorem exists_at?_of_carry {d e : Draft} {j : Json} (h : carry d j) {tool : String}
    {run sample : ℕ} (he : d.at? (valuePath tool run sample) = some e) :
    e = .null ∨ ∃ v, j.at? (valuePath tool run sample) = some v ∧ Carry.number e v := by
  have hnull : ∀ s path, (Draft.null).at? (s :: path) ≠ some e := by
    rintro (k | i) path <;> nofun
  unfold valuePath at he ⊢
  obtain ⟨d₁, hd₁, he⟩ := Option.bind_eq_some_iff.1 he
  obtain rfl | ⟨j₁, hj₁, h₁⟩ := Carry.exists_part_record h rfl hd₁
  · exact absurd he (hnull _ _)
  obtain ⟨d₂, hd₂, he⟩ := Option.bind_eq_some_iff.1 he
  obtain ⟨j₂, hj₂, h₂⟩ := Carry.exists_part_members h₁ hd₂
  obtain ⟨d₃, hd₃, he⟩ := Option.bind_eq_some_iff.1 he
  obtain ⟨j₃, hj₃, h₃⟩ := Carry.exists_part_items h₂ hd₃
  obtain ⟨d₄, hd₄, he⟩ := Option.bind_eq_some_iff.1 he
  obtain rfl | ⟨j₄, hj₄, h₄⟩ := Carry.exists_part_record h₃ rfl hd₄
  · exact absurd he (hnull _ _)
  obtain ⟨d₅, hd₅, he⟩ := Option.bind_eq_some_iff.1 he
  obtain ⟨j₅, hj₅, h₅⟩ := Carry.exists_part_items h₄ hd₅
  obtain ⟨d₆, hd₆, he⟩ := Option.bind_eq_some_iff.1 he
  cases he
  refine (Carry.exists_part_record h₅ rfl hd₆).imp_right ?_
  rintro ⟨v, hv, hnumber⟩
  refine ⟨v, ?_, hnumber⟩
  simp only [Json.at?, hj₁, hj₂, hj₃, hj₄, hj₅, hv, Option.bind_some]

/-- What is written at the place is the measured value of a sample. -/
theorem exists_sample_of_at? {h : History} {tool : String} {run sample : ℕ} {v : Json}
    (hv : h.toJson.at? (valuePath tool run sample) = some v) :
    ∃ rs, (tool, rs) ∈ h.entries ∧ ∃ r ∈ rs, ∃ s ∈ r.benches, v = measured s.value := by
  unfold valuePath at hv
  obtain ⟨j₁, hj₁, hv⟩ := Option.bind_eq_some_iff.1 hv
  have hentries : h.toJson.part? (.member "entries") = some (entriesJson h.entries) := rfl
  cases hentries.symm.trans hj₁
  obtain ⟨j₂, hj₂, hv⟩ := Option.bind_eq_some_iff.1 hv
  have htool : (entriesJson h.entries).part? (.member tool) =
      (Keyed.get? tool h.entries).map fun rs => Json.array (rs.map Run.toJson) :=
    Keyed.get?_map (fun rs : List Run => Json.array (rs.map Run.toJson)) tool h.entries
  obtain ⟨rs, hrs, rfl⟩ := Option.map_eq_some_iff.1 (htool.symm.trans hj₂)
  obtain ⟨j₃, hj₃, hv⟩ := Option.bind_eq_some_iff.1 hv
  obtain ⟨r, hr, rfl⟩ := List.mem_map.1 (List.mem_of_getElem? hj₃)
  obtain ⟨j₄, hj₄, hv⟩ := Option.bind_eq_some_iff.1 hv
  have hbenches : r.toJson.part? (.member "benches") =
      some (.array (r.benches.map Sample.toJson)) := rfl
  cases hbenches.symm.trans hj₄
  obtain ⟨j₅, hj₅, hv⟩ := Option.bind_eq_some_iff.1 hv
  obtain ⟨s, hs, rfl⟩ := List.mem_map.1 (List.mem_of_getElem? hj₅)
  obtain ⟨j₆, hj₆, hv⟩ := Option.bind_eq_some_iff.1 hv
  have hvalue : s.toJson.part? (.member "value") = some (measured s.value) := rfl
  cases hvalue.symm.trans hj₆
  cases hv
  exact ⟨rs, Keyed.mem_of_get? hrs, r, hr, s, hs, rfl⟩

/-! ## Documents -/

/-- A document with one value, as it is read. -/
def singleDraft (n : Number) : Draft :=
  .object [("entries", .object [("t", .array [.object [("commit", .object []),
    ("date", .number (.whole 1)), ("tool", .string "t"),
    ("benches", .array [.object [("name", .string "b"), ("value", .number n)]])]])])]

def single (x : Float) : History :=
  ⟨0, "", [("t", [⟨⟨none, none, none, "", "", none, none, none, []⟩, 1, "t",
    [⟨"b", x, none, "", none, []⟩], []⟩])], []⟩

theorem ofText_single {text : String} {n : Number}
    (hdraft : Json.draft (body text.toList) = (singleDraft n, some [])) :
    ofText text = .ok (single n.toFloat) := by
  unfold ofText Decode.read
  rw [hdraft]
  rfl

theorem spells_integer (n : ℕ) {x : Float} (hfinite : x.isFinite = true) (hne : (x == 0) = false)
    (hshortest : Decimal.shortest .toEven x = ⟨n, 0⟩) {t : List Char}
    (ht : (if signed x then '-' :: Decimal.javaScriptText ⟨n, 0⟩
      else Decimal.javaScriptText ⟨n, 0⟩) = t) :
    Spells x t := by
  rw [← ht, ← hshortest]
  exact .nonzero hne ((Decimal.simplest_iff hfinite ((Decimal.size_pos_iff hfinite).2 hne)).2 rfl)

end History

end BenchHistory
