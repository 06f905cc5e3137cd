import BenchHistory.History.Document
import BenchHistory.Proofs.History.Json
import BenchHistory.Proofs.Json.RoundTrip
import BenchHistory.Proofs.Run.Ingest

/-!
# Documents read back

A valid history is read back from the text that is written for it, in either format
(`ofText_render`), and is then written with the same text again (`render_plainZeros`). A history
that was read from a file is valid (`valid_of_ofText`), and so it is with any number of runs added.
-/

namespace BenchHistory

namespace Text

theorem trim_of_ends {c d : Char} (hc : isBlank c = false) (hd : isBlank d = false)
    (cs : List Char) : trim (c :: cs ++ [d]) = c :: cs ++ [d] := by
  have hstart : trimStart (c :: cs ++ [d]) = c :: cs ++ [d] :=
    List.dropWhile_cons_of_neg (by rw [hc]; nofun)
  unfold trim
  rw [hstart]
  unfold trimEnd
  rw [List.reverse_append, List.reverse_singleton, List.singleton_append,
    List.dropWhile_cons_of_neg (by rw [hd]; nofun), List.reverse_cons, List.reverse_reverse]

end Text

namespace Json

theorem exists_membersText (l : Layout) (level : ℕ) (ms : List (String × Json)) :
    ∃ cs, membersText l level ms = cs ++ ['}'] := by
  induction ms with
  | nil => exact ⟨l.line level, by rw [membersText]⟩
  | cons e ms ih =>
    obtain ⟨k, v⟩ := e
    obtain ⟨cs, hcs⟩ := ih
    rw [membersText, hcs, ← List.append_assoc]
    exact ⟨_, rfl⟩

theorem exists_text_object (l : Layout) (level : ℕ) (ms : List (String × Json)) :
    ∃ cs, text l level (.object ms) = '{' :: cs ++ ['}'] := by
  cases ms with
  | nil => exact ⟨[], by rw [text]; rfl⟩
  | cons e ms =>
    obtain ⟨k, v⟩ := e
    obtain ⟨cs, hcs⟩ := exists_membersText l level ms
    rw [text, hcs, ← List.append_assoc]
    exact ⟨_, rfl⟩

end Json

namespace History

theorem dropSemicolons_of_end {d : Char} (hd : d ≠ ';') (cs : List Char) :
    dropSemicolons (cs ++ [d]) = cs ++ [d] := by
  unfold dropSemicolons
  rw [List.reverse_append, List.reverse_singleton, List.singleton_append,
    List.dropWhile_cons_of_neg (by simpa using hd), List.reverse_cons, List.reverse_reverse]

theorem scriptStart_eq : scriptStart = 'w' :: "indow.BENCHMARK_DATA =".toList := by
  decide

/-- An object that stands alone in a file is what the file holds. -/
theorem body_object (cs : List Char) : body ('{' :: cs ++ ['}']) = '{' :: cs ++ ['}'] := by
  have hstart : Text.afterStart? scriptStart ('{' :: cs ++ ['}']) = none := by
    rw [scriptStart_eq]
    rfl
  unfold body
  rw [Text.trim_of_ends (by decide) (by decide), hstart]

/-- So is an object behind the start of a script. -/
theorem body_script (cs : List Char) :
    body (scriptStart ++ ' ' :: ('{' :: cs ++ ['}'])) = '{' :: cs ++ ['}'] := by
  have htrim : Text.trim (scriptStart ++ ' ' :: ('{' :: cs ++ ['}'])) =
      scriptStart ++ ' ' :: ('{' :: cs ++ ['}']) := by
    have hends := Text.trim_of_ends (c := 'w') (d := '}') (by decide) (by decide)
      ("indow.BENCHMARK_DATA =".toList ++ ' ' :: '{' :: cs)
    rw [scriptStart_eq]
    simpa using hends
  have hstart : Text.afterStart? scriptStart (scriptStart ++ ' ' :: ('{' :: cs ++ ['}'])) =
      some (' ' :: ('{' :: cs ++ ['}'])) := Text.afterStart?_eq_some_iff.2 rfl
  have hblank : Text.trimStart (' ' :: ('{' :: cs ++ ['}'])) =
      Text.trimStart ('{' :: cs ++ ['}']) :=
    Text.trimStart_append_of_blank (w := [' ']) (by decide) ('{' :: cs ++ ['}'])
  have hrest : Text.trim (' ' :: ('{' :: cs ++ ['}'])) = '{' :: cs ++ ['}'] := by
    unfold Text.trim
    rw [hblank]
    exact Text.trim_of_ends (by decide) (by decide) cs
  unfold body
  rw [htrim, hstart]
  simp only [hrest]
  exact dropSemicolons_of_end (by decide) ('{' :: cs)

theorem body_render (format : Format) (h : History) :
    body (render format h).toList = Json.text .pretty 0 h.toJson := by
  obtain ⟨cs, hcs⟩ := Json.exists_text_object .pretty 0 (h.own ++ h.other)
  have hpretty : h.toJson.pretty.toList = '{' :: cs ++ ['}'] := by
    unfold Json.pretty
    rw [String.toList_ofList, toJson_eq, hcs]
  rw [toJson_eq, hcs]
  unfold render
  cases format with
  | json =>
    simp only [hpretty]
    exact body_object cs
  | script =>
    simp only [String.toList_append, String.toList_ofList, hpretty, List.append_assoc]
    exact body_script cs

/-- A valid history that is not nested too deep is read back from its text. -/
theorem ofText_render {h : History} (hh : h.Valid) (hdepth : h.toJson.nesting ≤ Json.maxDepth)
    (format : Format) : ofText (render format h) = .ok h.plainZeros := by
  unfold ofText Decode.read
  rw [body_render format h, Json.draft_text Json.Layout.blank_pretty hh.toJson hdepth 0]
  simp only [decode_toJson hh]
  rfl

theorem render_plainZeros {h : History} (hh : h.Valid) (format : Format) :
    render format h.plainZeros = render format h := by
  unfold render
  rw [toJson_plainZeros hh]

/-- What was read from a file is valid and not nested too deep. -/
theorem valid_of_ofText {text : String} {h : History} (hread : ofText text = .ok h) :
    h.Valid ∧ h.toJson.nesting ≤ Json.maxDepth :=
  valid_of_decode (Json.fits_draft _) (Decode.decode_of_read hread)

/--
A document that was read from a file can be written and read back, and so can the document with
any runs added that were taken in, as long as it is not nested too deep. Only measured zeros lose
their signs, and writing the document once more gives the same text.
-/
theorem ofText_render_attempts {text : String} {h : History} (hread : ofText text = .ok h) :
    h.toJson.nesting ≤ Json.maxDepth ∧
      ∀ cs : List (String × Run), (∀ c ∈ cs, Ingested c.2) →
        (h.attempts cs).toJson.nesting ≤ Json.maxDepth → ∀ format,
          ofText (render format (h.attempts cs)) = .ok (h.attempts cs).plainZeros ∧
            render format (h.attempts cs).plainZeros = render format (h.attempts cs) := by
  obtain ⟨hvalid, hnesting⟩ := valid_of_ofText hread
  refine ⟨hnesting, fun cs hcs hdepth format => ?_⟩
  have hall : (h.attempts cs).Valid := hvalid.attempts fun c hc => (hcs c hc).valid
  exact ⟨ofText_render hall hdepth format, render_plainZeros hall format⟩

/-- A script, and a run with members of its own whose measured zero is negative. -/
theorem ofText_render_attempts_negative_zero :
    let text := "window.BENCHMARK_DATA = \x7b\"groupBy\":[\"os\",null],\"lastUpdate\":7\x7d;"
    let h : History := ⟨7, "", [], [("groupBy", .array [.string "os", .null])]⟩
    let j : Json := .object [("commit", .object [("id", .string "c1"), ("url", .null)]),
      ("benches", .array [.object [("name", .string "parse"), ("value", .real (-0.0)),
        ("runs", .array [.int 3])]])]
    let r : Run := ⟨Commit.ofId "c1" "", 5, "cargo",
      [⟨"parse", -0.0, none, "", none, [("runs", .array [.int 3])]⟩], []⟩
    let d := h.attempts [("cargo", r)]
    ofText text = .ok h ∧ Ingest.ofRun "cargo" 5 j = .ok r ∧ Ingested r ∧ d.toJson.nesting = 7 ∧
      ofText (render .script d) = .ok d.plainZeros ∧
        render .script d.plainZeros = render .script d := by
  intro text h j r d
  have hread : ofText text = .ok h := by
    simp only [ofText, text, String.reduceToList]
    unfold Decode.read Json.draft
    rfl
  have hj : j.Valid := by
    refine .object (by decide) ?_
    simp only [List.forall_mem_cons]
    refine ⟨.object (by decide) ?_, .array ?_, by simp⟩
    · simp only [List.forall_mem_cons]
      exact ⟨.string "c1", .null, by simp⟩
    · simp only [List.forall_mem_cons]
      refine ⟨.object (by decide) ?_, by simp⟩
      simp only [List.forall_mem_cons]
      refine ⟨.string "parse", .number rfl, .array ?_, by simp⟩
      simp only [List.forall_mem_cons]
      exact ⟨valid_int (by decide) (by decide), by simp⟩
  have hrun : Ingest.ofRun "cargo" 5 j = .ok r := by rfl
  have hr : Ingested r := .run (by decide) (by decide) hj hrun
  have hnesting : d.toJson.nesting = 7 := by
    simp only [d, r, h]
    decide +kernel
  obtain ⟨-, hall⟩ := ofText_render_attempts hread
  have hcs : ∀ c ∈ [("cargo", r)], Ingested c.2 := List.forall_mem_singleton.2 hr
  have hdepth : d.toJson.nesting ≤ Json.maxDepth := by
    rw [hnesting]
    decide
  exact ⟨hread, hrun, hr, hnesting, hall [("cargo", r)] hcs hdepth .script⟩

end History

end BenchHistory
