import BenchHistory.Proofs.Command.Leaves
import BenchHistory.Proofs.Run.Again

/-!
# Dates of runs that are published

A run has the date that its document gives, or else the one asked for, or else the time
(`RunInput.dated`). Only the first of these is looked at, and it goes before the one asked for
(`RunInput.ingest_date`): so a run can be taken in with a date that is not positive, and with
another date than the one asked for (`RunInput.not_ingest_date`).
-/

namespace BenchHistory.RunInput

open Ingest

variable {σ : Type} [Storage σ] {input : RunInput} {now : ℤ} {disk : σ} {r : Run}

/-- The date that the run brings itself, if it is a complete document. -/
def ownDate? (input : RunInput) (disk : σ) : Option Json :=
  match input.source with
  | .harness _ _ => none
  | .document path => (Decode.file Decode.json disk path).toOption.bind (Json.get? "date")

theorem dated (hingest : input.ingest now disk = .ok r) :
    Dated (input.defaultDate now) (input.ownDate? disk) r.date := by
  unfold ownDate?
  cases hsource : input.source with
  | harness output commit =>
    have hdate := ingest_date_of_harness hsource hingest input.date now
    rw [hingest] at hdate
    have hr : r.date = input.defaultDate now := congrArg Run.date (Except.ok.inj hdate)
    rw [hr]
    exact .default
  | document path =>
    unfold ingest at hingest
    simp only [hsource] at hingest ⊢
    obtain ⟨j, hj, hingest⟩ := bind_eq_ok.1 hingest
    rw [mapError_eq_ok.1 hj]
    exact dated_of_ofRun (mapError_eq_ok.1 hingest)

/--
The date of a run that is taken in is positive unless the run brings none and the default is not
positive. It is the date asked for unless the run brings another one. A run that is taken in is so
with any date.
-/
theorem ingest_date (hingest : input.ingest now disk = .ok r) :
    Dated (input.defaultDate now) (input.ownDate? disk) r.date ∧
      (0 < r.date ↔ (input.ownDate? disk).isSome ∨ 0 < input.defaultDate now) ∧
      (∀ date, input.date = some date →
        (r.date = date ↔ ∀ j ∈ input.ownDate? disk, j = .int date)) ∧
      ∀ (date : Option ℤ) (now' : ℤ), ∃ d,
        ({ input with date := date } : RunInput).ingest now' disk = .ok { r with date := d } := by
  have hdated := dated hingest
  refine ⟨hdated, hdated.pos_iff, ?_, exists_ingest_date hingest⟩
  intro date hdate
  have hdefault : input.defaultDate now = date := by
    unfold defaultDate
    rw [hdate]
    rfl
  rw [hdefault] at hdated
  exact hdated.eq_default_iff

/-- A run that is dated with the date asked for, and could be with one that is not positive. -/
theorem ingest_date_of_output :
    let input : RunInput := ⟨"data.json", "t", .harness "out.json" "commit.json", some 2000⟩
    let disk := Snapshot.ofFound [
      ("commit.json", .text "\x7b\"id\": \"c1\"\x7d"),
      ("out.json", .text "[\x7b\"name\": \"m\", \"value\": 1\x7d]")]
    let r : Run := ⟨.ofId "c1" "", 2000, "t", [⟨"m", 1, none, "", none, []⟩], []⟩
    input.ingest 9 disk = .ok r ∧ 0 < r.date ∧ r.date = 2000 ∧
      ∃ d, ({ input with date := some (-5) } : RunInput).ingest 9 disk =
        .ok { r with date := d } := by
  intro input disk r
  have hcommit : Decode.file Commit.decode disk "commit.json" = .ok (.ofId "c1" "") :=
    (Decode.file_eq_ok_iff_of_text rfl).2 read_commit
  have houtput : Decode.file Decode.json disk "out.json" =
      .ok (.array [.object [("name", .string "m"), ("value", .int 1)]]) :=
    (Decode.file_eq_ok_iff_of_text rfl).2 read_output
  have hingest : input.ingest 9 disk = .ok r := by
    unfold ingest
    simp only [input, hcommit, houtput]
    rfl
  obtain ⟨-, hpos, hasked, hany⟩ := ingest_date hingest
  have hown : input.ownDate? disk = none := rfl
  rw [hown] at hpos hasked
  exact ⟨hingest, hpos.2 (.inr (by decide)), (hasked 2000 rfl).2 (by simp), hany (some (-5)) 9⟩

/-- Harness output is dated before the epoch, and a document with another date than asked for. -/
theorem not_ingest_date :
    let disk := Snapshot.ofFound [
      ("commit.json", .text "\x7b\"id\": \"c1\"\x7d"),
      ("out.json", .text "[\x7b\"name\": \"m\", \"value\": 1\x7d]"),
      ("run.json", .text ("\x7b\"commit\": \x7b\"id\": \"c1\"\x7d, \"date\": 1000, " ++
        "\"benches\": [\x7b\"name\": \"m\", \"value\": 1\x7d]\x7d"))]
    let output : RunInput := ⟨"data.json", "t", .harness "out.json" "commit.json", some (-5)⟩
    let document : RunInput := ⟨"data.json", "t", .document "run.json", some 2000⟩
    (∃ r, output.ingest 9 disk = .ok r ∧ ¬ 0 < r.date) ∧
      ∃ r, document.ingest 9 disk = .ok r ∧ r.date ≠ 2000 := by
  intro disk output document
  have hcommit : Decode.file Commit.decode disk "commit.json" = .ok (.ofId "c1" "") :=
    (Decode.file_eq_ok_iff_of_text rfl).2 read_commit
  have houtput : Decode.file Decode.json disk "out.json" =
      .ok (.array [.object [("name", .string "m"), ("value", .int 1)]]) :=
    (Decode.file_eq_ok_iff_of_text rfl).2 read_output
  have hdocument : Decode.file Decode.json disk "run.json" =
      .ok (.object [("commit", .object [("id", .string "c1")]), ("date", .int 1000),
        ("benches", .array [.object [("name", .string "m"), ("value", .int 1)]])]) := by
    refine (Decode.file_eq_ok_iff_of_text rfl).2 ?_
    simp only [String.reduceAppend, String.reduceToList]
    unfold Decode.read Json.draft
    rfl
  have hbefore : output.ingest 9 disk =
      .ok ⟨.ofId "c1" "", -5, "t", [⟨"m", 1, none, "", none, []⟩], []⟩ := by
    unfold ingest
    simp only [output, hcommit, houtput]
    rfl
  have hother : document.ingest 9 disk =
      .ok ⟨.ofId "c1" "", 1000, "t", [⟨"m", 1, none, "", none, []⟩], []⟩ := by
    unfold ingest
    simp only [document, hdocument]
    rfl
  exact ⟨⟨_, hbefore, by decide⟩, _, hother, by decide⟩

end BenchHistory.RunInput
