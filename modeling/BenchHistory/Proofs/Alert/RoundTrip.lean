import BenchHistory.Alert.Json
import BenchHistory.Proofs.Run.RoundTrip
import BenchHistory.Proofs.Verdict.RoundTrip

/-!
# Alerts read back

The text of an alert gives the alert back exactly if its floats are finite, or the ratio is the
infinite one that has a string to stand for it. No other string is taken for a ratio
(`Alert.read_text_ratio`).
-/

namespace BenchHistory

open Decode

theorem SeriesKey.valid_toJson (k : SeriesKey) : k.toJson.Valid ∧ k.toJson.nesting = 1 := by
  obtain ⟨tool, name, extra⟩ := k
  cases extra with
  | none =>
    refine ⟨.object (by simp [Keyed.keys, Json.field?]) ?_, rfl⟩
    exact List.forall_mem_cons.2 ⟨.string tool, List.forall_mem_singleton.2 (.string name)⟩
  | some extra =>
    refine ⟨.object (by simp [Keyed.keys, Json.field?]) ?_, rfl⟩
    exact List.forall_mem_cons.2 ⟨.string tool, List.forall_mem_cons.2 ⟨.string name,
      List.forall_mem_singleton.2 (.string extra)⟩⟩

theorem SeriesKey.decode_toJson (k : SeriesKey) : decode k.toJson.toDraft = .ok k := by
  obtain ⟨tool, name, extra⟩ := k
  cases extra <;> rfl

theorem Direction.decode_toJson (d : Direction) : decode d.toJson.toDraft = .ok d := by
  cases d <;> rfl

namespace Alert

/-! ## What is written -/

/-- A ratio as its text writes it: `null` in place of one that has no other text. -/
def printedRatio (x : Float) : Json :=
  if x.isInf && 0 < x then .string infinityName else Json.finiteOrNull x

/-- The members before the address of the commit. -/
def firstMembers (a : Alert) : List (String × Json) :=
  [("idempotency_key", .string a.key), ("series", a.series.toJson),
    ("commit_id", .string a.commitId)]

/-- The members behind the address of the commit, with `null` in place of unwritable floats. -/
def lastMembers (a : Alert) : List (String × Json) :=
  [("date", .int a.date), ("value", Json.finiteOrNull a.value), ("unit", .string a.unit),
    ("baseline", Json.finiteOrNull a.baseline), ("ratio", printedRatio a.ratio),
    ("threshold", Json.finiteOrNull a.threshold), ("direction", a.direction.toJson)]

/-- The value that the text of an alert writes. -/
def printed (a : Alert) : Json :=
  .object (a.firstMembers ++ textField "commit_url" a.commitUrl ++ a.lastMembers)

theorem text_printedRatio (l : Json.Layout) (depth : ℕ) (x : Float) :
    Json.text l depth (printedRatio x) = Json.text l depth (ratioJson x) := by
  unfold printedRatio ratioJson
  split
  · rfl
  · exact Json.text_finiteOrNull l depth x

theorem compact_printed (a : Alert) : a.printed.compact = a.text := by
  unfold text Json.compact printed toJson firstMembers lastMembers textField
  cases a.commitUrl <;>
    simp only [Option.map_none, Option.map_some, Json.field?, List.cons_append, List.nil_append,
      Json.text, Json.membersText, Json.text_finiteOrNull, text_printedRatio]

theorem plain_printedRatio (x : Float) : (printedRatio x).Valid ∧ (printedRatio x).nesting = 0 := by
  unfold printedRatio
  split
  · exact ⟨.string _, rfl⟩
  · exact ⟨Json.valid_finiteOrNull x, Json.nesting_finiteOrNull x⟩

/-- The names of the fields, in the order in which they are written. -/
def fields : List String :=
  ["idempotency_key", "series", "commit_id", "commit_url", "date", "value", "unit", "baseline",
    "ratio", "threshold", "direction"]

theorem keys_printed_sublist (a : Alert) :
    List.Sublist (Keyed.keys (a.firstMembers ++ textField "commit_url" a.commitUrl ++
      a.lastMembers)) fields := by
  rw [Keyed.keys_append, Keyed.keys_append]
  exact ((List.Sublist.refl ["idempotency_key", "series", "commit_id"]).append
    (keys_field?_sublist _ _)).append (List.Sublist.refl _)

section

variable {a : Alert} (hdate : -2 ^ 63 ≤ a.date ∧ a.date < 2 ^ 63)

include hdate

theorem valid_members : ∀ e ∈ a.firstMembers ++ textField "commit_url" a.commitUrl ++ a.lastMembers,
    e.2.Valid ∧ e.2.nesting ≤ 1 := by
  obtain ⟨hseries, hnesting⟩ := a.series.valid_toJson
  have hvalue := Json.valid_finiteOrNull
  have hplain : ∀ x, (Json.finiteOrNull x).nesting ≤ 1 := fun x =>
    (Json.nesting_finiteOrNull x).le.trans zero_le_one
  obtain ⟨hratio, hratio'⟩ := plain_printedRatio a.ratio
  rw [List.forall_mem_append, List.forall_mem_append]
  refine ⟨⟨?_, fun e he => ?_⟩, ?_⟩
  · simp only [firstMembers, List.forall_mem_cons]
    exact ⟨⟨.string _, Nat.zero_le _⟩, ⟨hseries, hnesting.le⟩, ⟨.string _, Nat.zero_le _⟩, by simp⟩
  · obtain ⟨hfield, hfield'⟩ := forall_mem_textField _ _ e he
    exact ⟨hfield, hfield'.le.trans zero_le_one⟩
  · simp only [lastMembers, List.forall_mem_cons]
    exact ⟨⟨valid_int hdate.1 hdate.2, Nat.zero_le _⟩, ⟨hvalue _, hplain _⟩,
      ⟨.string _, Nat.zero_le _⟩, ⟨hvalue _, hplain _⟩, ⟨hratio, hratio'.le.trans zero_le_one⟩,
      ⟨hvalue _, hplain _⟩, ⟨.string _, Nat.zero_le _⟩, by simp⟩

theorem valid_printed : a.printed.Valid ∧ a.printed.nesting ≤ 2 := by
  have hmembers := valid_members hdate
  refine ⟨.object ?_ fun e he => (hmembers e he).1, ?_⟩
  · exact List.Nodup.sublist (keys_printed_sublist a) (by decide)
  · rw [printed, Json.nesting_object_le_iff]
    exact fun e he => (hmembers e he).2

theorem draft_text : Json.draft a.text.toList = (a.printed.toDraft, some []) := by
  obtain ⟨hvalid, hnesting⟩ := valid_printed hdate
  rw [← compact_printed, Json.compact, String.toList_ofList]
  exact Json.draft_text Json.Layout.blank_compact hvalid (hnesting.trans (by decide)) 0

end

/-! ## What is read -/

theorem float_finiteOrNull {x y : Float} :
    float (Json.finiteOrNull x).toDraft = .ok y ↔ x.isFinite = true ∧ x = y := by
  unfold Json.finiteOrNull
  split
  · next hfinite =>
    have hread : float (Json.real x).toDraft = .ok x := rfl
    rw [hread, Except.ok.injEq]
    exact ⟨fun h => ⟨hfinite, h⟩, fun h => h.2⟩
  · next hfinite => exact ⟨nofun, fun h => absurd h.1 hfinite⟩

theorem not_isInf_of_isFinite {x : Float} (hfinite : x.isFinite = true) : x.isInf = false := by
  obtain ⟨s, hx⟩ | ⟨s, m, e, hm, hx⟩ := Binary64.unpacked_cases hfinite
  · show (Binary64.unpacked x).isInf = false
    rw [hx]
    rfl
  · show (Binary64.unpacked x).isInf = false
    rw [hx]
    rfl

/-- A ratio is read back if it is finite, or the infinite one that has a string. -/
theorem decodeRatio_printedRatio {x : Float} :
    decodeRatio (printedRatio x).toDraft = .ok x ↔ x.isFinite = true ∨ x = Detector.infinity := by
  unfold printedRatio
  by_cases hinfinite : (x.isInf && 0 < x) = true
  · rw [if_pos hinfinite]
    have hread : decodeRatio (Json.string infinityName).toDraft = .ok Detector.infinity := rfl
    rw [hread, Except.ok.injEq]
    refine ⟨fun h => .inr h.symm, fun h => ?_⟩
    obtain hfinite | rfl := h
    · rw [not_isInf_of_isFinite hfinite] at hinfinite
      cases hinfinite
    · rfl
  · rw [if_neg hinfinite]
    unfold Json.finiteOrNull
    split
    · next hfinite => exact ⟨fun _ => .inl hfinite, fun _ => rfl⟩
    · next hfinite =>
      refine ⟨nofun, fun h => ?_⟩
      obtain hfinite' | rfl := h
      · exact absurd hfinite' hfinite
      · exact absurd (by decide) hinfinite

/-- The floats of an alert that is read back. -/
structure Finite (a : Alert) : Prop where
  value : a.value.isFinite = true
  baseline : a.baseline.isFinite = true
  threshold : a.threshold.isFinite = true
  ratio : a.ratio.isFinite = true ∨ a.ratio = Detector.infinity

/-- The slots when all members up to the address of the commit have been read. -/
def firstSlots (a : Alert) : Slots :=
  { Slots.empty with
    key := some a.key, series := some a.series, commitId := some a.commitId,
    commitUrl := a.commitUrl.map some }

/-- An alert is read back from the rest if its ratio is read. -/
theorem decode_printed {a : Alert} (hdate : -2 ^ 63 ≤ a.date ∧ a.date < 2 ^ 63)
    (hvalue : a.value.isFinite = true) (hbaseline : a.baseline.isFinite = true)
    (hthreshold : a.threshold.isFinite = true) {x : Float}
    (hratio : decodeRatio (printedRatio a.ratio).toDraft = .ok x) :
    decode a.printed.toDraft = .ok { a with ratio := x } := by
  have hseries := a.series.decode_toJson
  have hday := int64_toDraft hdate.1 hdate.2
  have hdirection := a.direction.decode_toJson
  have hfirst : (Json.membersToDraft a.firstMembers).foldlM Slots.take Slots.empty =
      .ok { a.firstSlots with commitUrl := none } := by
    simp only [firstMembers, Json.membersToDraft, List.foldlM_cons, Slots.take, fill, hseries]
    rfl
  have hurl : (Json.membersToDraft (textField "commit_url" a.commitUrl)).foldlM Slots.take
      { a.firstSlots with commitUrl := none } = .ok a.firstSlots :=
    foldlM_textField (fun h => by rw [firstSlots, h]; rfl) (fun x h => by rw [firstSlots, h]; rfl)
  have hlast : (Json.membersToDraft a.lastMembers).foldlM Slots.take a.firstSlots =
      .ok { a.firstSlots with
        date := some a.date, value := some a.value, unit := some a.unit,
        baseline := some a.baseline, ratio := some x, threshold := some a.threshold,
        direction := some a.direction } := by
    have hvalue' := float_finiteOrNull.2 ⟨hvalue, rfl⟩
    have hbaseline' := float_finiteOrNull.2 ⟨hbaseline, rfl⟩
    have hthreshold' := float_finiteOrNull.2 ⟨hthreshold, rfl⟩
    simp only [lastMembers, Json.membersToDraft, List.foldlM_cons, Slots.take, fill, hday, hvalue',
      hbaseline', hratio, hthreshold', hdirection]
    rfl
  have hall := foldlM_members_append (foldlM_members_append hfirst hurl) hlast
  rw [printed, Json.toDraft]
  unfold decode
  simp only [hall]
  show Except.ok { a with commitUrl := (a.commitUrl.map some).join, ratio := x } = _
  rw [join_map_some]

theorem exists_take_of_decode {ms : List (String × Draft)} {a : Alert}
    (h : decode (.object ms) = .ok a) {e : String × Draft} (he : e ∈ ms) :
    ∃ s t, Slots.take s e = .ok t := by
  obtain ⟨s, hs, -⟩ := bind_eq_ok.1 h
  exact exists_of_mem_foldlM hs he

theorem exists_of_fill_bind {α β : Type} {name : String} {slot : Option α} {decode : Decoder α}
    {d : Draft} {f : Option α → Except ReadError β} {b : β}
    (h : (fill name slot decode d >>= f) = .ok b) : ∃ x, decode d = .ok x := by
  obtain ⟨filled, hfill, -⟩ := bind_eq_ok.1 h
  obtain ⟨x, hx, -⟩ := fill_eq_ok hfill
  exact ⟨x, hx⟩

theorem exists_float_of_decode {ms : List (String × Draft)} {a : Alert}
    (h : decode (.object ms) = .ok a) {name : String} {d : Draft} (hd : (name, d) ∈ ms)
    (hname : name = "value" ∨ name = "baseline" ∨ name = "threshold") :
    ∃ x, float d = .ok x := by
  obtain ⟨s, t, htake⟩ := exists_take_of_decode h hd
  obtain rfl | rfl | rfl := hname <;> exact exists_of_fill_bind htake

/-- What stands at the place of the ratio. -/
inductive RatioOf : Draft → Draft → Prop
  | member {ms : List (String × Draft)} {d : Draft} (hd : ("ratio", d) ∈ ms) :
    RatioOf (.object ms) d
  | item {items : List Draft} {d : Draft} (hd : items[8]? = some d) : RatioOf (.array items) d

/-- The ratio of an alert that is read has been taken for one. -/
theorem RatioOf.exists_ratio {d r : Draft} (hr : RatioOf d r) {a : Alert}
    (h : decode d = .ok a) : ∃ x, decodeRatio r = .ok x := by
  cases hr with
  | member hd =>
    obtain ⟨s, t, htake⟩ := exists_take_of_decode h hd
    exact exists_of_fill_bind htake
  | @item items d hd =>
    have hitem : ∀ expected, Decode.item expected decodeRatio items 8 = decodeRatio r := by
      intro expected
      unfold Decode.item
      rw [hd]
    change ofItems _ = .ok a at h
    unfold ofItems at h
    iterate 8 obtain ⟨_, -, h⟩ := bind_eq_ok.1 h
    obtain ⟨x, hx, -⟩ := bind_eq_ok.1 h
    exact ⟨x, (hitem _).symm.trans hx⟩

theorem eq_of_decodeRatio_string {s : String} {x : Float}
    (h : decodeRatio (.string s) = .ok x) : s = infinityName := by
  by_contra hname
  have hrefused : decodeRatio (.string s) = .error (.invalidRatio s) := if_neg hname
  cases h.symm.trans hrefused

/-- The floats of an alert that is read from its own text are such as are read back. -/
theorem finite_of_decode_printed {a : Alert} (hdate : -2 ^ 63 ≤ a.date ∧ a.date < 2 ^ 63)
    (h : decode a.printed.toDraft = .ok a) : a.Finite := by
  rw [printed, Json.toDraft, Json.membersToDraft_eq] at h
  have hmem : ∀ e ∈ a.lastMembers, (e.1, e.2.toDraft) ∈ (a.firstMembers ++
      textField "commit_url" a.commitUrl ++ a.lastMembers).map fun e => (e.1, e.2.toDraft) :=
    fun e he => List.mem_map_of_mem (List.mem_append_right _ he)
  have hfloat : ∀ {name : String} {x : Float}, (name, Json.finiteOrNull x) ∈ a.lastMembers →
      name = "value" ∨ name = "baseline" ∨ name = "threshold" → x.isFinite = true := by
    intro name x hx hname
    obtain ⟨y, hy⟩ := exists_float_of_decode h (hmem _ hx) hname
    exact (float_finiteOrNull.1 hy).1
  have hvalue := hfloat (x := a.value) (by simp [lastMembers]) (.inl rfl)
  have hbaseline := hfloat (x := a.baseline) (by simp [lastMembers]) (.inr (.inl rfl))
  have hthreshold := hfloat (x := a.threshold) (by simp [lastMembers]) (.inr (.inr rfl))
  have hplace := RatioOf.member (hmem ("ratio", printedRatio a.ratio) (by simp [lastMembers]))
  obtain ⟨x, hx⟩ := hplace.exists_ratio h
  have hsame : { a with ratio := x } = a := by
    have hread := decode_printed hdate hvalue hbaseline hthreshold hx
    rw [printed, Json.toDraft, Json.membersToDraft_eq] at hread
    exact Except.ok.inj (hread.symm.trans h)
  have hratio : x = a.ratio := congrArg Alert.ratio hsame
  rw [hratio] at hx
  exact ⟨hvalue, hbaseline, hthreshold, decodeRatio_printedRatio.1 hx⟩

/--
The text of an alert is read as the alert exactly if its floats are finite or the ratio is the
infinite one, and whatever text is read as an alert, a string in place of the ratio is the one that
stands for the infinite ratio.
-/
theorem read_text_ratio :
    (∀ a : Alert, -2 ^ 63 ≤ a.date ∧ a.date < 2 ^ 63 →
      (Decode.read decode a.text.toList = .ok a ↔ a.Finite)) ∧
    ∀ (cs : List Char) (a : Alert), Decode.read decode cs = .ok a →
      ∀ s, RatioOf (Json.draft cs).1 (.string s) → s = "Infinity" := by
  refine ⟨fun a hdate => ⟨fun h => ?_, fun ha => ?_⟩, fun cs a h s hs => ?_⟩
  · have hdecode := decode_of_read h
    rw [draft_text hdate] at hdecode
    exact finite_of_decode_printed hdate hdecode
  · have hdecode := decode_printed hdate ha.value ha.baseline ha.threshold
      (decodeRatio_printedRatio.2 ha.ratio)
    unfold Decode.read
    rw [draft_text hdate]
    simp only [hdecode]
    rfl
  · obtain ⟨x, hx⟩ := hs.exists_ratio (decode_of_read h)
    exact eq_of_decodeRatio_string hx

/-- An alert with an infinite ratio, and the place of the ratio in its text. -/
theorem read_text_ratio_infinite :
    let a : Alert := ⟨"k", ⟨"cargo", "parse", some ""⟩, "c1", none, -5, 1e300, "ns", 0,
      Detector.infinity, 0.5, .smallerIsBetter⟩
    let ratio : Draft := .string "Infinity"
    (-2 ^ 63 ≤ a.date ∧ a.date < 2 ^ 63) ∧ a.Finite ∧ Decode.read decode a.text.toList = .ok a ∧
      RatioOf (Json.draft a.text.toList).1 ratio ∧ "Infinity" = "Infinity" := by
  intro a ratio
  have hdate : -2 ^ 63 ≤ a.date ∧ a.date < 2 ^ 63 := by decide
  have hfinite : a.Finite :=
    ⟨by decide +kernel, by decide, by decide, .inr rfl⟩
  have hread := (read_text_ratio.1 a hdate).2 hfinite
  have hplace : RatioOf (Json.draft a.text.toList).1 ratio := by
    have hratio : printedRatio a.ratio = .string "Infinity" := if_pos (by decide)
    rw [draft_text hdate, printed, Json.toDraft, Json.membersToDraft_eq]
    exact .member (List.mem_map.2
      ⟨("ratio", printedRatio a.ratio), by simp [lastMembers], by rw [hratio]; rfl⟩)
  exact ⟨hdate, hfinite, hread, hplace, read_text_ratio.2 _ a hread _ hplace⟩

end Alert

end BenchHistory
