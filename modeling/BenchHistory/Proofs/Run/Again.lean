import BenchHistory.Proofs.Json.Depth
import BenchHistory.Proofs.Run.Carried
import BenchHistory.Proofs.Run.Harness
import BenchHistory.Proofs.Run.Same

/-!
# Taking runs in again

A sample is read as what it was written from, whichever reader looks at it (`sample_toJson`), and
so is a run that was taken in, but for the date: taking in a complete run asks for a positive one
(`ofRun_toJson`). So taking in what was taken in changes nothing (`ofRun_again`), except that a run
may have taken over a date that is refused when it is its own (`not_ofRun_again`).
-/

namespace BenchHistory

open Decode

theorem get?_textField (name : String) (s : Option String) :
    Keyed.get? name (textField name s) = s.map .string := by
  cases s <;> simp [textField, Json.field?, Keyed.get?]

theorem get?_textField_of_ne {name k : String} (hne : name ≠ k) (s : Option String) :
    Keyed.get? k (textField name s) = none := by
  cases s <;> simp [textField, Json.field?, Keyed.get?, hne]

theorem Decode.Kept.get?_eq_none {fields : List String} {other : Keyed Json}
    (h : Kept fields other) {k : String} (hk : k ∈ fields) : Keyed.get? k other = none :=
  Keyed.get?_eq_none_iff.2 fun hmem => h.unknown k hmem hk

theorem exists_measured {x : Float} (hfinite : x.isFinite = true) :
    ∃ n, measured x = .number n ∧ n.toFloat = plainZero x := by
  have hread := float_measured hfinite
  have hnumber : ∃ n, measured x = .number n := by
    unfold measured
    split
    · split
      · exact ⟨_, rfl⟩
      · exact ⟨_, rfl⟩
    · exact ⟨_, rfl⟩
  obtain ⟨n, hn⟩ := hnumber
  rw [hn] at hread
  exact ⟨n, hn, Except.ok.inj hread⟩

theorem Json.exists_of_nesting_object_le {ms : List (String × Json)} {n : ℕ}
    (h : (object ms).nesting ≤ n) : ∃ m, n = m + 1 ∧ ∀ e ∈ ms, e.2.nesting ≤ m := by
  cases n with
  | zero => simp [nesting] at h
  | succ m => exact ⟨m, rfl, nesting_object_le_iff.1 h⟩

theorem Json.exists_of_nesting_array_le {js : List Json} {n : ℕ}
    (h : (array js).nesting ≤ n) : ∃ m, n = m + 1 ∧ ∀ j ∈ js, j.nesting ≤ m := by
  cases n with
  | zero => simp [nesting] at h
  | succ m => exact ⟨m, rfl, nesting_array_le_iff.1 h⟩

namespace Ingest

/-! ## Samples -/

/-- An element is read as one sample only. -/
theorem ReadAs.unique {j : Json} {s s' : Sample} (h : ReadAs j s) (h' : ReadAs j s') : s = s' := by
  obtain ⟨n, hn, hvalue⟩ := h.value
  obtain ⟨n', hn', hvalue'⟩ := h'.value
  obtain ⟨ms, hms, hother⟩ := h.other
  obtain ⟨ms', hms', hother'⟩ := h'.other
  have hname := h.name.symm.trans h'.name
  have hunit := h.unit.symm.trans h'.unit
  have hrange := h.range.symm.trans h'.range
  have hextra := h.extra.symm.trans h'.extra
  have hstring : Function.Injective Json.string := fun a b hab => Json.string.inj hab
  cases hms.symm.trans hms'
  cases hn.symm.trans hn'
  obtain ⟨name, value, range, unit, extra, other⟩ := s
  obtain ⟨name', value', range', unit', extra', other'⟩ := s'
  cases hname
  cases hunit
  cases Option.map_injective hstring hrange
  cases Option.map_injective hstring hextra
  simp only at hvalue hvalue' hother hother'
  rw [hvalue, hvalue', hother, hother']

variable {s : Sample}

theorem get?_toJson (hs : s.Valid) :
    s.toJson.get? "name" = some (.string s.name) ∧ s.toJson.get? "value" = some (measured s.value) ∧
      s.toJson.get? "unit" = some (.string s.unit) ∧
      s.toJson.get? "range" = s.range.map .string ∧
      s.toJson.get? "extra" = s.extra.map .string := by
  have hrange : Keyed.get? "range" s.other = none := hs.other.get?_eq_none (by decide)
  have hextra : Keyed.get? "extra" s.other = none := hs.other.get?_eq_none (by decide)
  rw [Sample.toJson_eq]
  unfold Json.get? Sample.own
  simp only [Keyed.get?_append, get?_textField, get?_textField_of_ne, hrange, hextra,
    Option.or_none, ne_eq, String.reduceEq, not_false_eq_true]
  simp [Keyed.get?]

theorem present_map_string (o : Option String) :
    present (o.map .string) = o.map .string := by
  cases o <;> rfl

theorem mem_sampleFields_iff {k : String} : k ∈ sampleFields ↔ k ∈ Sample.fields := by
  simp only [sampleFields, Sample.fields, List.mem_cons, List.not_mem_nil, or_false]
  tauto

/-- A sample is what its JSON is read as, except that a measured zero loses its sign. -/
theorem readAs_toJson (hs : s.Valid) : ReadAs s.toJson s.plainZero := by
  obtain ⟨hname, hvalue, hunit, hrange, hextra⟩ := get?_toJson hs
  obtain ⟨n, hn, hfloat⟩ := exists_measured hs.finite
  refine ⟨hname, ⟨n, hvalue.trans (congrArg some hn), hfloat.symm⟩, ?_, ?_, ?_, ?_⟩
  · rw [hunit]
    rfl
  · rw [hrange]
    exact present_map_string s.range
  · rw [hextra]
    exact present_map_string s.extra
  · have hown : Keyed.keys s.own ⊆ sampleFields := fun k hk =>
      mem_sampleFields_iff.2 (s.keys_own_sublist.subset hk)
    have hother : ∀ k ∈ Keyed.keys s.other, k ∉ sampleFields := fun k hk hmem =>
      hs.other.unknown k hk (mem_sampleFields_iff.1 hmem)
    exact ⟨_, s.toJson_eq, (Keyed.others_append_of_unknown hown hother).symm⟩

theorem readable_toJson (hs : s.Valid) (hnamed : Text.allBlank s.name = false) :
    readable s.toJson = true := by
  obtain ⟨hname, hvalue, hunit, hrange, hextra⟩ := get?_toJson hs
  obtain ⟨n, hn, -⟩ := exists_measured hs.finite
  have htext : ∀ o : Option String, isText (o.map .string) = true := by
    intro o
    cases o <;> rfl
  rw [readable_iff]
  simp only [rules, List.forall_mem_cons]
  refine ⟨rfl, ?_, ?_, ?_, ?_, ?_, by simp⟩
  · exact isName_iff.2 ⟨s.name, hname, hnamed⟩
  · exact isNumber_iff.2 ⟨n, hvalue.trans (congrArg some hn)⟩
  · show isText (s.toJson.get? "unit") = true
    rw [hunit]
    rfl
  · show isText (s.toJson.get? "range") = true
    rw [hrange]
    exact htext s.range
  · show isText (s.toJson.get? "extra") = true
    rw [hextra]
    exact htext s.extra

/-- A sample with a name is read back from its JSON, except that a measured zero loses its sign. -/
theorem sample_toJson (hs : s.Valid) (hnamed : Text.allBlank s.name = false) (path : String)
    (index : ℕ) : sample path index s.toJson = (some s.plainZero, []) := by
  obtain ⟨s', hread, hsample⟩ := exists_readAs (readable_toJson hs hnamed)
  rw [hsample path index, hread.unique (readAs_toJson hs)]

theorem samplesFrom_toJson {path : String} {index : ℕ} {ss : List Sample}
    (hvalid : ∀ s ∈ ss, s.Valid) (hnamed : ∀ s ∈ ss, Text.allBlank s.name = false) :
    samplesFrom path index (ss.map Sample.toJson) = (ss.map Sample.plainZero, []) := by
  induction ss generalizing index with
  | nil => rfl
  | cons s ss ih =>
    obtain ⟨hs, hvalid⟩ := List.forall_mem_cons.1 hvalid
    obtain ⟨hname, hnamed⟩ := List.forall_mem_cons.1 hnamed
    rw [List.map_cons, samplesFrom, sample_toJson hs hname, ih hvalid hnamed]
    rfl

/-! ## Runs -/

variable {tool : String} {r : Run}

theorem isFinite_plainZero {x : Float} (hfinite : x.isFinite = true) :
    (plainZero x).isFinite = true := by
  unfold plainZero
  split
  · rfl
  · exact hfinite

theorem map_metric_plainZero (ss : List Sample) :
    (ss.map Sample.plainZero).map Sample.metric = ss.map Sample.metric := by
  rw [List.map_map]
  rfl

theorem wellFormed_plainZeros (h : r.WellFormed tool) : r.plainZeros.WellFormed tool where
  tool_named := h.tool_named
  tool_agrees := h.tool_agrees
  commit_named := h.commit_named
  measured hnil := h.measured (List.map_eq_nil_iff.1 hnil)
  samples_named := List.forall_mem_map.2 h.samples_named
  finite := List.forall_mem_map.2 fun s hs => isFinite_plainZero (h.finite s hs)
  metrics_nodup := by
    show ((r.benches.map Sample.plainZero).map Sample.metric).Nodup
    rw [map_metric_plainZero]
    exact h.metrics_nodup

/-- What is found in the JSON of a run when it is taken in, before it is looked at as a whole. -/
theorem ofRun_toJson_eq (hr : r.Valid) (h : r.WellFormed tool) (now : ℤ) :
    ofRun tool now r.toJson =
      finish tool { r.plainZeros with date := if 0 < r.date then r.date else 0 }
        (listIf (¬ 0 < r.date) (.dateInvalid (Json.int r.date).compact)) := by
  have hcommit : commitOf (r.own ++ r.other) = (r.commit, []) := by
    unfold commitOf Run.own
    simp [Keyed.get?, Commit.decode_toJson hr.commit]
  have hdate : dateOf now (r.own ++ r.other) = (if 0 < r.date then r.date else 0,
      listIf (¬ 0 < r.date) (.dateInvalid (Json.int r.date).compact)) := by
    have hsmall := hr.date_lt
    unfold dateOf Run.own listIf
    by_cases hpositive : 0 < r.date
    · simp [Keyed.get?, Json.int, hpositive]
      omega
    · simp [Keyed.get?, Json.int, hpositive]
  have htool : toolOf tool (r.own ++ r.other) = (r.tool, []) := by
    unfold toolOf Run.own
    simp [Keyed.get?]
  have hbenches : benchesOf (r.own ++ r.other) = (r.benches.map Sample.plainZero, []) := by
    unfold benchesOf Run.own
    simp [Keyed.get?, samples, samplesFrom_toJson hr.benches h.samples_named]
  have hother : others runFields (r.own ++ r.other) = r.other :=
    Keyed.others_append_of_unknown (List.Subset.refl runFields) hr.other.unknown
  rw [Run.toJson_eq, ofRun_object, hcommit, hdate, htool, hbenches, hother]
  simp only [List.nil_append, List.append_nil]
  rfl

/--
A run without problems comes out of its JSON again when that is taken in, unless its date is not
positive. Then this is all that is wrong.
-/
theorem ofRun_toJson (hr : r.Valid) (h : r.WellFormed tool) (now : ℤ) :
    ofRun tool now r.toJson = if 0 < r.date then .ok r.plainZeros
      else .error [.dateInvalid (Json.int r.date).compact] := by
  have hwell : r.plainZeros.WellFormed tool := wellFormed_plainZeros h
  rw [ofRun_toJson_eq hr h]
  by_cases hpositive : 0 < r.date
  · rw [if_pos hpositive, if_pos hpositive]
    exact finish_eq_ok_iff.2 ⟨rfl, listIf_eq_nil_iff.2 (not_not.2 hpositive), hwell⟩
  · -- the run as a whole has no problem, so the problem of the date is the only one
    have hnone : ({ r.plainZeros with date := 0 } : Run).problems tool = [] := by
      show r.plainZeros.problems tool = []
      exact Run.problems_eq_nil_iff.2 hwell
    rw [if_neg hpositive, if_neg hpositive, listIf, if_pos hpositive, finish, hnone]
    rfl

/-- The text of a run is read, if that is not nested too deep, and only then. -/
theorem read_text_iff (hr : r.Valid) :
    Decode.read Run.decode r.text.toList = .ok r.plainZeros ↔
      r.toJson.nesting ≤ Json.maxDepth := by
  have htext : r.text.toList = Json.text .compact 0 r.toJson := by
    unfold Run.text Json.compact
    exact String.toList_ofList
  rw [htext]
  constructor
  · intro hread
    have hcarried := Run.carries_decode (Json.fits_draft _) (decode_of_read hread)
    exact (Json.readable_draft_text_iff Json.Layout.blank_compact hr.toJson 0).1
      (Run.readable_carry _ _ hcarried)
  · intro hdepth
    unfold Decode.read
    rw [Json.draft_text Json.Layout.blank_compact hr.toJson hdepth 0]
    simp only [Run.decode_toJson hr]
    rfl

theorem same_plainZeros (hr : r.Valid) : r.plainZeros.same r = true := by
  have hbenches : ∀ ss : List Sample, (∀ s ∈ ss, s.Valid) →
      ((ss.map Sample.plainZero).zip ss).all (fun p => p.1.same p.2) = true := by
    intro ss hvalid
    induction ss with
    | nil => rfl
    | cons s ss ih =>
      obtain ⟨hs, hvalid⟩ := List.forall_mem_cons.1 hvalid
      rw [List.map_cons, List.zip_cons_cons, List.all_cons, ih hvalid, Bool.and_true]
      unfold Sample.same Sample.plainZero
      simp [plainZero_beq hs.finite, hs.other.same_self]
  unfold Run.same Run.plainZeros
  simp [hr.commit.same_self, hbenches r.benches hr.benches, hr.other.same_self]

/-! ## Runs that were taken in -/

variable {date : ℤ} {j : Json}

theorem exists_of_ofRun (h : ofRun tool date j = .ok r) :
    ∃ ms, j = .object ms ∧
      r = ⟨(commitOf ms).1, (dateOf date ms).1, (toolOf tool ms).1, (benchesOf ms).1,
        others runFields ms⟩ ∧
      ((commitOf ms).2 = [] ∧ (dateOf date ms).2 = [] ∧ (benchesOf ms).2 = []) ∧
      r.WellFormed tool := by
  cases j with
  | object ms =>
    rw [ofRun_object, finish_eq_ok_iff] at h
    obtain ⟨hr, hnone, hwell⟩ := h
    simp only [List.append_eq_nil_iff] at hnone
    obtain ⟨⟨⟨hcommit, hdate⟩, -⟩, hbenches⟩ := hnone
    rw [← hr] at hwell
    exact ⟨ms, rfl, hr, ⟨hcommit, hdate, hbenches⟩, hwell⟩
  | _ => cases h

theorem dated_of_ofRun (h : ofRun tool date j = .ok r) : Dated date (j.get? "date") r.date := by
  obtain ⟨ms, rfl, hr, ⟨-, hdate, -⟩, -⟩ := exists_of_ofRun h
  rw [hr]
  exact dated_dateOf hdate

/-- A complete run has a positive date, or it has none and takes over the one that is given. -/
theorem date_of_ofRun (h : ofRun tool date j = .ok r) :
    0 < r.date ∨ j.get? "date" = none ∧ r.date = date :=
  (dated_of_ofRun h).pos_or

theorem exists_commit_of_ofRun {ms : List (String × Json)} (h : (commitOf ms).2 = []) :
    ∃ j, ("commit", j) ∈ ms ∧ Commit.decode j.toDraft = .ok (commitOf ms).1 := by
  unfold commitOf at h ⊢
  split
  · next hnone =>
    rw [hnone] at h
    cases h
  · next j hj =>
    rw [hj] at h
    simp only at h
    split
    · next c hc => exact ⟨j, Keyed.mem_of_get? hj, hc⟩
    · next e he =>
      rw [he] at h
      cases h

theorem exists_benches_of_ofRun {ms : List (String × Json)} (h : (benchesOf ms).2 = []) :
    ∃ js, ("benches", .array js) ∈ ms ∧ List.Forall₂ ReadAs js (benchesOf ms).1 := by
  unfold benchesOf at h ⊢
  split
  · next hnone =>
    rw [hnone] at h
    cases h
  · next j hj =>
    rw [hj] at h
    obtain ⟨js, rfl, -, hread⟩ := forall₂_of_samples h
    exact ⟨js, Keyed.mem_of_get? hj, hread⟩

theorem ReadAs.nesting_le {j : Json} {s : Sample} (h : ReadAs j s)
    (hfinite : s.value.isFinite = true) {n : ℕ} (hn : j.nesting ≤ n + 1) :
    s.toJson.nesting ≤ n + 1 := by
  obtain ⟨ms, rfl, hother⟩ := h.other
  refine Sample.nesting_toJson_le hfinite fun e he => ?_
  rw [hother] at he
  exact Json.nesting_object_le_iff.1 hn e (List.mem_filter.1 he).1

theorem exists_element_of_mem {js : List Json} {ss : List Sample}
    (h : List.Forall₂ ReadAs js ss) {s : Sample} (hs : s ∈ ss) : ∃ j ∈ js, ReadAs j s := by
  induction h with
  | nil => cases hs
  | @cons j s' js ss hread _ ih =>
    obtain rfl | hs := List.mem_cons.1 hs
    · exact ⟨j, List.mem_cons_self, hread⟩
    · obtain ⟨j', hj', hread'⟩ := ih hs
      exact ⟨j', List.mem_cons_of_mem j hj', hread'⟩

/-- A complete run that was taken in is nested no deeper than what it was read from. -/
theorem nesting_of_ofRun (hj : j.Valid) (h : ofRun tool date j = .ok r) {n : ℕ}
    (hn : j.nesting ≤ n) : r.toJson.nesting ≤ n := by
  obtain ⟨ms, rfl, hr, ⟨hcommit, -, hbenches⟩, hwell⟩ := exists_of_ofRun h
  obtain ⟨c, hc, hdecode⟩ := exists_commit_of_ofRun hcommit
  obtain ⟨js, hjs, hread⟩ := exists_benches_of_ofRun hbenches
  have hread : List.Forall₂ ReadAs js r.benches := by
    rw [hr]
    exact hread
  -- the run has a sample, which stands three containers down
  obtain ⟨s, hs⟩ := List.exists_mem_of_ne_nil r.benches hwell.measured
  obtain ⟨first, hfirst, hsample⟩ := exists_element_of_mem hread hs
  obtain ⟨fields, rfl, -⟩ := hsample.other
  obtain ⟨m, rfl, hmembers⟩ := Json.exists_of_nesting_object_le hn
  obtain ⟨k, rfl, helements⟩ := Json.exists_of_nesting_array_le (hmembers _ hjs)
  obtain ⟨l, rfl, -⟩ := Json.exists_of_nesting_object_le (helements _ hfirst)
  have hmember : c.Valid := by
    cases hj with
    | object _ hvalues => exact hvalues _ hc
  refine Run.nesting_toJson_le ?_ ?_ ?_
  · rw [hr]
    exact (Commit.valid_of_decode (hmember.fits_toDraft (hmembers _ hc)) hdecode).2
  · intro s hs
    obtain ⟨j, hj, hsample⟩ := exists_element_of_mem hread hs
    exact hsample.nesting_le (hwell.finite s hs) (helements j hj)
  · intro e he
    rw [hr] at he
    exact hmembers e (List.mem_filter.1 he).1

/-- What is written of a run is read as that run again, by whichever reader. -/
structure TakenAgain (tool : String) (r : Run) : Prop where
  same : r.plainZeros.same r = true
  decoded : Run.decode r.toJson.toDraft = .ok r.plainZeros
  read_iff : Decode.read Run.decode r.text.toList = .ok r.plainZeros ↔
    r.toJson.nesting ≤ Json.maxDepth
  ingested (now : ℤ) : ofRun tool now r.toJson = if 0 < r.date then .ok r.plainZeros
    else .error [.dateInvalid (Json.int r.date).compact]

theorem takenAgain (hr : r.Valid) (h : r.WellFormed tool) : TakenAgain tool r where
  same := same_plainZeros hr
  decoded := Run.decode_toJson hr
  read_iff := read_text_iff hr
  ingested := ofRun_toJson hr h

/--
A run that was taken in is what comes of its JSON, but for the signs of measured zeros: as a value,
as a text unless that is nested too deep, and taken in once more if its date is positive. The date
of a complete run is positive unless it has none of its own, so that the given one is taken over,
and its text is nested no deeper than what it was read from.
-/
theorem ofRun_again (tool : String) {date : ℤ} (hlow : -2 ^ 63 ≤ date) (hhigh : date < 2 ^ 63) :
    (∀ (j : Json) (r : Run), j.Valid → ofRun tool date j = .ok r →
      TakenAgain tool r ∧ r.toJson.nesting ≤ j.nesting ∧
        (0 < r.date ∨ j.get? "date" = none ∧ r.date = date)) ∧
    ∀ (c : Commit) (output : Json) (r : Run), c.Valid → output.Valid →
      ofHarness tool date c output = .ok r → TakenAgain tool r ∧ r.date = date := by
  constructor
  · intro j r hj h
    have hr : r.Valid := valid_of_ofRun hlow hhigh hj h
    obtain ⟨ms, -, -, -, hwell⟩ := exists_of_ofRun h
    exact ⟨takenAgain hr hwell, nesting_of_ofRun hj h (le_refl _), date_of_ofRun h⟩
  · intro c output r hc houtput h
    have hr : r.Valid := valid_of_ofHarness hlow hhigh hc houtput h
    rw [ofHarness_eq, finish_eq_ok_iff] at h
    obtain ⟨rfl, -, hwell⟩ := h
    exact ⟨takenAgain hr hwell, rfl⟩

/-- A run without a date and a tool, with members of its own, whose measured zero is negative. -/
theorem ofRun_again_negative_zero :
    let j : Json := .object [("host", .array [.null]),
      ("commit", .object [("id", .string "c1"), ("url", .null)]),
      ("benches", .array [.object [("value", .real (-0.0)), ("name", .string "parse"),
        ("runs", .int 3)]])]
    let r : Run := ⟨Commit.ofId "c1" "", 5, "cargo",
      [⟨"parse", -0.0, none, "", none, [("runs", .int 3)]⟩], [("host", .array [.null])]⟩
    ((-2 ^ 63 ≤ (5 : ℤ) ∧ (5 : ℤ) < 2 ^ 63) ∧ j.Valid) ∧ ofRun "cargo" 5 j = .ok r ∧
      ofRun "cargo" 0 r.toJson = .ok r.plainZeros ∧
      Decode.read Run.decode r.text.toList = .ok r.plainZeros ∧ r.plainZeros.same r = true := by
  intro j r
  have hj : j.Valid := by
    refine .object (by decide) ?_
    simp only [List.forall_mem_cons]
    refine ⟨.array ?_, .object (by decide) ?_, .array ?_, by simp⟩
    · exact List.forall_mem_singleton.2 .null
    · simp only [List.forall_mem_cons]
      exact ⟨.string "c1", .null, by simp⟩
    · refine List.forall_mem_singleton.2 (.object (by decide) ?_)
      simp only [List.forall_mem_cons]
      exact ⟨.number rfl, .string "parse", valid_int (by decide) (by decide), by simp⟩
  have hdates : -2 ^ 63 ≤ (5 : ℤ) ∧ (5 : ℤ) < 2 ^ 63 := by decide
  have hrun : ofRun "cargo" 5 j = .ok r := rfl
  obtain ⟨hagain, hnesting, -⟩ := (ofRun_again "cargo" hdates.1 hdates.2).1 j r hj hrun
  have hdepth : r.toJson.nesting ≤ Json.maxDepth := hnesting.trans (by decide)
  refine ⟨⟨hdates, hj⟩, hrun, ?_, hagain.read_iff.2 hdepth, hagain.same⟩
  have hpositive : 0 < r.date := by decide
  rw [hagain.ingested 0, if_pos hpositive]

/-- A date that is not positive is taken over, and refused when the run has it for its own. -/
theorem not_ofRun_again :
    let j : Json := .object [("commit", .object [("id", .string "c1")]),
      ("benches", .array [.object [("name", .string "m"), ("value", .int 1)]])]
    j.Valid ∧ ∃ r, ofRun "t" (-5) j = .ok r ∧
      ∀ now, ofRun "t" now r.toJson = .error [.dateInvalid "-5"] := by
  intro j
  have hj : j.Valid := by
    refine .object (by decide) ?_
    simp only [List.forall_mem_cons]
    refine ⟨.object (by decide) ?_, .array ?_, by simp⟩
    · exact List.forall_mem_singleton.2 (.string "c1")
    · refine List.forall_mem_singleton.2 (.object (by decide) ?_)
      simp only [List.forall_mem_cons]
      exact ⟨.string "m", valid_int (by decide) (by decide), by simp⟩
  let r : Run := ⟨Commit.ofId "c1" "", -5, "t", [⟨"m", .ofInt 1, none, "", none, []⟩], []⟩
  have hrun : ofRun "t" (-5) j = .ok r := rfl
  refine ⟨hj, r, hrun, fun now => ?_⟩
  have hr : r.Valid := valid_of_ofRun (by decide) (by decide) hj hrun
  obtain ⟨ms, -, -, -, hwell⟩ := exists_of_ofRun hrun
  have hdate : ¬ 0 < r.date := by decide
  have htext : (Json.int (-5)).compact = "-5" := by decide
  rw [ofRun_toJson hr hwell now, if_neg hdate, htext]

end Ingest

end BenchHistory
