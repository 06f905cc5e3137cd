import BenchHistory.Command.Publish
import BenchHistory.Proofs.Alert.Request
import BenchHistory.Proofs.History.Outcome
import BenchHistory.Snapshot

/-!
# What publishing does to the file of a history

Publishing a run ends in one of six ways (`RunInput.publishing`), and only one of them changes the
file of the history: the run was added and saved. What follows then, the judging of the run and the
telling of its regressions, leaves the file alone (`RunInput.read_conclude`), so that the file
changes by one run or not at all (`RunInput.read_publish`).
-/

namespace BenchHistory

variable {ρ σ : Type} [Sink ρ] [Storage σ]

/-- Writing to one path does not change what is read at another. -/
def Storage.Separate (σ : Type) [Storage σ] (path other : String) : Prop :=
  ∀ (disk disk' : σ) (text : String),
    Storage.write disk path text = .ok disk' → Storage.read disk' other = Storage.read disk other

/-! ## What is read of a file -/

theorem Decode.file_eq_ok_iff_of_text {α : Type} {decode : Decode.Decoder α} {disk : σ}
    {path text : String} {a : α} (htext : Storage.read disk path = .text text) :
    file decode disk path = .ok a ↔ Decode.read decode text.toList = .ok a := by
  unfold file
  rw [htext]
  exact mapError_eq_ok

theorem History.load_eq_ok_iff_of_text {disk : σ} {path text : String} {h : History}
    (htext : Storage.read disk path = .text text) :
    load disk path = .ok h ↔ ofText text = .ok h := by
  unfold load
  rw [htext]
  exact mapError_eq_ok

/-! ## Telling -/

namespace Emitter

variable {e e' : Emitter ρ} {disk disk' : σ} {n : Notice} {path other : String}

theorem Told.read {outcome : Except EmitError Emitted} (h : Told e disk n outcome e' disk')
    (hpath : e.ledger.path = some path) (hseparate : Storage.Separate σ path other) :
    Storage.read disk' other = Storage.read disk other := by
  cases h with
  | delivered hnew halert hsink hwrite => exact hseparate disk disk' _ (hwrite path hpath)
  | _ => rfl

theorem read_tellAll (hpath : e.ledger.path = some path)
    (hseparate : Storage.Separate σ path other) (disk : σ) (ns : List Notice) :
    Storage.read (e.tellAll disk ns).2.2 other = Storage.read disk other := by
  induction ns generalizing e disk with
  | nil => rfl
  | cons n ns ih =>
    have htold := told e disk n
    have hpath' : (e.tell disk n).2.1.ledger.path = some path := by
      rw [htold.ledger]
      exact hpath
    rw [tellAll_cons]
    exact (ih hpath' (e.tell disk n).2.2).trans (htold.read hpath hseparate)

end Emitter

/-- Telling of an evaluation does not change a file that is kept apart from the ledger's. -/
theorem Settings.read_tell {s : Settings} {data other : String}
    (hseparate : Storage.Separate σ (s.alerts.ledgerFor data) other)
    (sink : Except CommandError (Option ρ)) (ev : Detector.Evaluation) (r : Run) (disk : σ) :
    Storage.read (s.tell sink data ev r disk).disk other = Storage.read disk other := by
  unfold tell
  split
  · rfl
  · rfl
  · split
    · rfl
    · next e hemitter =>
      have hpath : e.ledger.path = some (s.alerts.ledgerFor data) := by
        unfold emitter at hemitter
        simp only at hemitter
        split at hemitter
        · next l hload =>
          cases hemitter
          exact Ledger.path_of_load hload
        · cases hemitter
      simp only [Emitter.emitEvaluation_eq_tellAll]
      exact Emitter.read_tellAll hpath hseparate disk _

/-! ## The history with a run -/

namespace History

/-- The history with a run at the end of its tool's list, and the repository's address if given. -/
def published (h : History) (url : Option String) (tool : String) (r : Run) : History :=
  (h.located url).push tool { r with tool := tool }

/--
The second history is the first one with a run at the end of its tool's list. The time of the
latest run is no earlier than the run, an address that was missing may be filled in, and the rest
is the same.
-/
structure GrownBy (h h' : History) (url : Option String) (tool : String) (r : Run) : Prop where
  runs : h'.runs tool = h.runs tool ++ [{ r with tool := tool }]
  other_runs : ∀ other, other ≠ tool → h'.runs other = h.runs other
  tools : h'.tools = if tool ∈ h.tools then h.tools else h.tools ++ [tool]
  lastUpdate : h'.lastUpdate = max h.lastUpdate r.date
  repoUrl : h'.repoUrl = if h.repoUrl = "" then url.getD "" else h.repoUrl
  other : h'.other = h.other

theorem located_eq (h : History) (url : Option String) :
    h.located url =
      { h with repoUrl := if h.repoUrl = "" then url.getD "" else h.repoUrl } := by
  by_cases hmissing : h.repoUrl = ""
  · rw [if_pos hmissing]
    cases url with
    | none => rw [Option.getD_none, ← hmissing]; rfl
    | some url => exact if_pos hmissing
  · rw [if_neg hmissing]
    cases url with
    | none => rfl
    | some url => exact if_neg hmissing

theorem runs_located (h : History) (url : Option String) (tool : String) :
    (h.located url).runs tool = h.runs tool := by
  rw [located_eq]
  rfl

theorem tools_located (h : History) (url : Option String) : (h.located url).tools = h.tools := by
  rw [located_eq]
  rfl

theorem grownBy_published (h : History) (url : Option String) (tool : String) (r : Run) :
    h.GrownBy (h.published url tool r) url tool r where
  runs := by
    unfold published
    rw [runs_push_self, runs_located]
  other_runs other hne := by
    unfold published
    rw [runs_push_of_ne _ hne, runs_located]
  tools := by
    unfold published
    rw [tools_push, tools_located]
  lastUpdate := by
    rw [published, located_eq]
    rfl
  repoUrl := by
    rw [published, located_eq]
    rfl
  other := by
    rw [published, located_eq]
    rfl

/-! ## Adding and saving -/

variable {h h' : History} {tool data : String} {r : Run} {i : ℕ} {disk : σ}

theorem store_of_error {e : AppendError} (happend : h.append tool r = .error e) :
    h.store tool r data disk = .error (.appending r.commit.id e) := by
  unfold store
  rw [happend]
  rfl

theorem store_of_duplicate (happend : h.append tool r = .ok (.duplicate i, h')) :
    h.store tool r data disk = .ok (.duplicate i, disk) := by
  unfold store
  rw [happend]
  rfl

theorem store_of_added (happend : h.append tool r = .ok (.added i, h')) :
    h.store tool r data disk =
      ((h'.save disk data).mapError (.saving data)).map fun disk' => (.added i, disk') := by
  unfold store
  rw [happend]
  rfl

end History

/-! ## Ways of publishing -/

namespace RunInput

variable {input : RunInput} {s : Settings} {sink : Except CommandError (Option ρ)} {now : ℤ}
  {url : Option String} {disk : σ} {h : History} {r : Run}

/-- What follows when the run is in the history: judging it, and telling its regressions. -/
def conclude (input : RunInput) (s : Settings) (sink : Except CommandError (Option ρ))
    (h : History) (r : Run) (disk : σ) : Published ρ σ :=
  match s.detector.problem? with
  | some _ => ⟨.done "", disk, none⟩
  | none =>
    let ev := Detector.evaluate s.detector h input.tool r
    let told := s.tell sink input.data ev r disk
    ⟨⟨ev.printed, told.counts.map fun _ => ev.status s⟩, told.disk, told.sink⟩

/-- Whatever comes of the judging and the telling, the file of the history stays as it is. -/
theorem read_conclude (hseparate : Storage.Separate σ (s.alerts.ledgerFor input.data) input.data) :
    Storage.read (input.conclude s sink h r disk).disk input.data =
      Storage.read disk input.data := by
  unfold conclude
  split
  · rfl
  · exact Settings.read_tell hseparate sink _ r disk

theorem redated_cases (input : RunInput) (h : History) (windowMs : ℤ) (r : Run) :
    input.redated h windowMs r = r ∨ h.Published input.tool (input.redated h windowMs r) := by
  unfold redated
  split
  · exact .inl rfl
  · split
    · next last hlast =>
      obtain ⟨hmem, hsame⟩ := Option.filter_eq_some_iff.1 hlast
      have hid : last.commit.id = r.commit.id := by
        simp only [Bool.and_eq_true, beq_iff_eq] at hsame
        exact hsame.1.1.1
      exact .inr ⟨last, List.mem_of_getLast? hmem, congrArg (·, last.date) hid⟩
    · exact .inl rfl

theorem id_redated (input : RunInput) (h : History) (windowMs : ℤ) (r : Run) :
    (input.redated h windowMs r).commit.id = r.commit.id := by
  unfold redated
  split
  · rfl
  · split <;> rfl

/-- A run that is added is dated as it was taken in, and it is pushed. -/
theorem eq_of_append_added {h' : History} {i : ℕ}
    (happend : (h.located url).append input.tool (input.redated h s.retryWindowMs r) =
      .ok (.added i, h')) :
    input.redated h s.retryWindowMs r = r ∧ h' = h.published url input.tool r := by
  obtain ⟨hwf, hpos, -, -, rfl⟩ := History.append_eq_added_iff.1 happend
  have hdated : input.redated h s.retryWindowMs r = r := by
    refine (redated_cases input h _ r).resolve_right ?_
    rintro ⟨last, hlast, hsame⟩
    refine History.position?_eq_none_iff.1 hpos ⟨last, ?_, hsame⟩
    rw [History.runs_located]
    exact hlast
  rw [hdated] at hwf ⊢
  rw [History.stored_eq hwf.tool_agrees]
  exact ⟨rfl, rfl⟩

theorem publish_of_unloaded {e : FileError} (hload : History.load disk input.data = .error e) :
    input.publish s sink now url disk = ⟨.failed (.loading e), disk, none⟩ := by
  unfold publish prepare
  rw [hload]
  rfl

theorem publish_of_unread {e : CommandError} (hload : History.load disk input.data = .ok h)
    (hingest : input.ingest now disk = .error e) :
    input.publish s sink now url disk = ⟨.failed e, disk, none⟩ := by
  unfold publish prepare
  rw [hload, hingest]
  rfl

theorem publish_of_read (hload : History.load disk input.data = .ok h)
    (hingest : input.ingest now disk = .ok r) :
    input.publish s sink now url disk =
      match (h.located url).store input.tool (input.redated h s.retryWindowMs r) input.data
        disk with
      | .error e => ⟨.failed e, disk, none⟩
      | .ok (_, disk) =>
        input.conclude s sink h (input.redated h s.retryWindowMs r) disk := by
  unfold publish prepare
  rw [hload, hingest]
  rfl

section Appending

variable {h' : History} {i : ℕ} (hload : History.load disk input.data = .ok h)
  (hingest : input.ingest now disk = .ok r)

include hload hingest

theorem publish_of_refused {e : AppendError}
    (happend : (h.located url).append input.tool (input.redated h s.retryWindowMs r) = .error e) :
    input.publish s sink now url disk = ⟨.failed (.appending r.commit.id e), disk, none⟩ := by
  rw [publish_of_read hload hingest, History.store_of_error happend, id_redated]

theorem publish_of_repeated
    (happend : (h.located url).append input.tool (input.redated h s.retryWindowMs r) =
      .ok (.duplicate i, h')) :
    input.publish s sink now url disk =
      input.conclude s sink h (input.redated h s.retryWindowMs r) disk := by
  rw [publish_of_read hload hingest, History.store_of_duplicate happend]

theorem publish_of_unsaved {place : String}
    (happend : (h.located url).append input.tool (input.redated h s.retryWindowMs r) =
      .ok (.added i, h'))
    (hsave : h'.save disk input.data = .error place) :
    input.publish s sink now url disk = ⟨.failed (.saving input.data place), disk, none⟩ := by
  rw [publish_of_read hload hingest, History.store_of_added happend, hsave]
  rfl

theorem publish_of_saved {disk' : σ}
    (happend : (h.located url).append input.tool (input.redated h s.retryWindowMs r) =
      .ok (.added i, h'))
    (hsave : h'.save disk input.data = .ok disk') :
    input.publish s sink now url disk =
      input.conclude s sink h (input.redated h s.retryWindowMs r) disk' := by
  rw [publish_of_read hload hingest, History.store_of_added happend, hsave]
  rfl

end Appending

/--
The ways that publishing can end: the history cannot be loaded; the run cannot be taken in; the
history refuses it; the run was there before; the history cannot be saved; or the run is added and
saved.
-/
inductive Publishing (input : RunInput) (s : Settings) (sink : Except CommandError (Option ρ))
    (now : ℤ) (url : Option String) (disk : σ) : Published ρ σ → Prop
  | unloaded {e : FileError} (hload : History.load disk input.data = .error e) :
      Publishing input s sink now url disk ⟨.failed (.loading e), disk, none⟩
  | unread {h : History} {e : CommandError} (hload : History.load disk input.data = .ok h)
      (hingest : input.ingest now disk = .error e) :
      Publishing input s sink now url disk ⟨.failed e, disk, none⟩
  | refused {h : History} {r : Run} {e : AppendError}
      (hload : History.load disk input.data = .ok h) (hingest : input.ingest now disk = .ok r)
      (happend : (h.located url).append input.tool (input.redated h s.retryWindowMs r) =
        .error e) :
      Publishing input s sink now url disk ⟨.failed (.appending r.commit.id e), disk, none⟩
  | repeated {h h' : History} {r : Run} {i : ℕ} (hload : History.load disk input.data = .ok h)
      (hingest : input.ingest now disk = .ok r)
      (happend : (h.located url).append input.tool (input.redated h s.retryWindowMs r) =
        .ok (.duplicate i, h')) :
      Publishing input s sink now url disk
        (input.conclude s sink h (input.redated h s.retryWindowMs r) disk)
  | unsaved {h h' : History} {r : Run} {i : ℕ} {place : String}
      (hload : History.load disk input.data = .ok h) (hingest : input.ingest now disk = .ok r)
      (happend : (h.located url).append input.tool (input.redated h s.retryWindowMs r) =
        .ok (.added i, h'))
      (hsave : h'.save disk input.data = .error place) :
      Publishing input s sink now url disk ⟨.failed (.saving input.data place), disk, none⟩
  | saved {h h' : History} {r : Run} {i : ℕ} {disk' : σ}
      (hload : History.load disk input.data = .ok h) (hingest : input.ingest now disk = .ok r)
      (happend : (h.located url).append input.tool (input.redated h s.retryWindowMs r) =
        .ok (.added i, h'))
      (hsave : h'.save disk input.data = .ok disk') :
      Publishing input s sink now url disk
        (input.conclude s sink h (input.redated h s.retryWindowMs r) disk')

/-- Publishing ends in one of the ways. -/
theorem publishing (input : RunInput) (s : Settings) (sink : Except CommandError (Option ρ))
    (now : ℤ) (url : Option String) (disk : σ) :
    Publishing input s sink now url disk (input.publish s sink now url disk) := by
  match hload : History.load disk input.data with
  | .error e =>
    rw [publish_of_unloaded hload]
    exact .unloaded hload
  | .ok h =>
    match hingest : input.ingest now disk with
    | .error e =>
      rw [publish_of_unread hload hingest]
      exact .unread hload hingest
    | .ok r =>
      match happend : (h.located url).append input.tool (input.redated h s.retryWindowMs r) with
      | .error e =>
        rw [publish_of_refused hload hingest happend]
        exact .refused hload hingest happend
      | .ok (.duplicate i, h') =>
        rw [publish_of_repeated hload hingest happend]
        exact .repeated hload hingest happend
      | .ok (.added i, h') =>
        match hsave : h'.save disk input.data with
        | .error place =>
          rw [publish_of_unsaved hload hingest happend hsave]
          exact .unsaved hload hingest happend hsave
        | .ok disk' =>
          rw [publish_of_saved hload hingest happend hsave]
          exact .saved hload hingest happend hsave

theorem read_conclude_of_save {h' : History} {disk' : σ} (hkeeps : Storage.Keeps σ input.data)
    (hseparate : Storage.Separate σ (s.alerts.ledgerFor input.data) input.data)
    (hsave : h'.save disk input.data = .ok disk') :
    Storage.read (input.conclude s sink h r disk').disk input.data =
      .text (h'.render (Format.ofPath input.data)) :=
  (read_conclude hseparate).trans (hkeeps disk disk' _ hsave)

theorem grownBy_of_append {h' : History} {i : ℕ}
    (happend : (h.located url).append input.tool (input.redated h s.retryWindowMs r) =
      .ok (.added i, h')) : h.GrownBy h' url input.tool r := by
  rw [(eq_of_append_added happend).2]
  exact h.grownBy_published url input.tool r

/--
What publishing does to the file of the history, if the ledger is in another file. The file stays
as it is, or it holds the history that was loaded with the run at the end of its tool's list. If
loading, taking in, adding or saving fails, publishing fails so and no file changes. The file
stays as it is if the run was there before. If the run is added and saved it is in the file,
whatever comes of the judging and the telling.
-/
theorem read_publish (input : RunInput) (s : Settings) (sink : Except CommandError (Option ρ))
    (now : ℤ) (url : Option String) (disk : σ) (hkeeps : Storage.Keeps σ input.data)
    (hseparate : Storage.Separate σ (s.alerts.ledgerFor input.data) input.data) :
    let p := input.publish s sink now url disk
    let file (disk : σ) := Storage.read disk input.data
    (file p.disk = file disk ∨
      ∃ h r h', History.load disk input.data = .ok h ∧ input.ingest now disk = .ok r ∧
        h.GrownBy h' url input.tool r ∧
          file p.disk = .text (h'.render (Format.ofPath input.data))) ∧
      (∀ e, History.load disk input.data = .error e → p = ⟨.failed (.loading e), disk, none⟩) ∧
      ∀ h, History.load disk input.data = .ok h →
        (∀ e, input.ingest now disk = .error e → p = ⟨.failed e, disk, none⟩) ∧
        ∀ r, input.ingest now disk = .ok r →
          let added := (h.located url).append input.tool (input.redated h s.retryWindowMs r)
          (∀ e, added = .error e → p = ⟨.failed (.appending r.commit.id e), disk, none⟩) ∧
          (∀ i h', added = .ok (.duplicate i, h') → file p.disk = file disk) ∧
          ∀ i h', added = .ok (.added i, h') →
            h.GrownBy h' url input.tool r ∧
            (∀ place, h'.save disk input.data = .error place →
              p = ⟨.failed (.saving input.data place), disk, none⟩) ∧
            ∀ disk', h'.save disk input.data = .ok disk' →
              file p.disk = .text (h'.render (Format.ofPath input.data)) := by
  intro p file
  refine ⟨?_, fun e hload => publish_of_unloaded hload, ?_⟩
  · have hways : Publishing input s sink now url disk p := publishing input s sink now url disk
    clear_value p
    cases hways with
    | repeated => exact .inl (read_conclude hseparate)
    | saved hload hingest happend hsave =>
      exact .inr ⟨_, _, _, hload, hingest, grownBy_of_append happend,
        read_conclude_of_save hkeeps hseparate hsave⟩
    | _ => exact .inl rfl
  · intro h hload
    refine ⟨fun e hingest => publish_of_unread hload hingest, ?_⟩
    intro r hingest added
    refine ⟨fun e happend => publish_of_refused hload hingest happend, ?_, ?_⟩
    · intro i h' happend
      show Storage.read (input.publish s sink now url disk).disk _ = _
      rw [publish_of_repeated hload hingest happend]
      exact read_conclude hseparate
    · intro i h' happend
      refine ⟨grownBy_of_append happend,
        fun place hsave => publish_of_unsaved hload hingest happend hsave, ?_⟩
      intro disk' hsave
      show Storage.read (input.publish s sink now url disk).disk _ = _
      rw [publish_of_saved hload hingest happend hsave]
      exact read_conclude_of_save hkeeps hseparate hsave

theorem read_commit : Decode.read Commit.decode "\x7b\"id\": \"c1\"\x7d".toList =
    .ok (.ofId "c1" "") := by
  simp only [String.reduceToList]
  unfold Decode.read Json.draft
  rfl

theorem read_output : Decode.read Decode.json "[\x7b\"name\": \"m\", \"value\": 1\x7d]".toList =
    .ok (.array [.object [("name", .string "m"), ("value", .int 1)]]) := by
  simp only [String.reduceToList]
  unfold Decode.read Json.draft
  rfl

/-- A run is in the file though its alerts could not be set up. -/
theorem read_publish_without_token :
    let input : RunInput := ⟨"dev/data.js", "cargo", .harness "out.json" "commit.json", some 5⟩
    let disk := Snapshot.ofFound [
      ("dev/data.js", .text "window.BENCHMARK_DATA = \x7b\"note\": 1\x7d;"),
      ("commit.json", .text "\x7b\"id\": \"c1\"\x7d"),
      ("out.json", .text "[\x7b\"name\": \"m\", \"value\": 1\x7d]")]
    let sink : Except CommandError (Option Channel) := .error .tokenMissing
    let h : History := ⟨0, "", [], [("note", .int 1)]⟩
    let r : Run := ⟨.ofId "c1" "", 5, "cargo", [⟨"m", 1, none, "", none, []⟩], []⟩
    let h' : History := ⟨5, "u", [("cargo", [r])], [("note", .int 1)]⟩
    let p := input.publish .default sink 9 (some "u") disk
    Storage.Keeps Snapshot input.data ∧
      Storage.Separate Snapshot (Settings.default.alerts.ledgerFor input.data) input.data ∧
      p.outcome.ending = .error .tokenMissing ∧ h.GrownBy h' (some "u") "cargo" r ∧
      Storage.read p.disk input.data = .text (h'.render .script) := by
  intro input disk sink h r h' p
  have hkeeps : Storage.Keeps Snapshot input.data := fun _ _ _ => Snapshot.read_write
  have hseparate : Storage.Separate Snapshot (Settings.default.alerts.ledgerFor input.data)
      input.data := fun _ _ _ => Snapshot.read_write_of_ne (by decide +kernel)
  have hread : History.ofText "window.BENCHMARK_DATA = \x7b\"note\": 1\x7d;" = .ok h := by
    simp only [History.ofText, String.reduceToList]
    unfold Decode.read Json.draft
    rfl
  have hload : History.load disk input.data = .ok h :=
    (History.load_eq_ok_iff_of_text rfl).2 hread
  have hcommit : Decode.file Commit.decode disk "commit.json" = .ok (.ofId "c1" "") :=
    (Decode.file_eq_ok_iff_of_text rfl).2 read_commit
  have houtput : Decode.file Decode.json disk "out.json" =
      .ok (.array [.object [("name", .string "m"), ("value", .int 1)]]) :=
    (Decode.file_eq_ok_iff_of_text rfl).2 read_output
  have hingest : input.ingest 9 disk = .ok r := by
    unfold ingest
    simp only [input, hcommit, houtput]
    rfl
  have hwf : r.WellFormed "cargo" := Run.problems_eq_nil_iff.1 (by decide)
  have happend : (h.located (some "u")).append input.tool
      (input.redated h Settings.default.retryWindowMs r) = .ok (.added 0, h') :=
    History.append_eq_added_iff.2 ⟨hwf, rfl, rfl, rfl, rfl⟩
  have hsave : ∃ disk', h'.save disk input.data = .ok disk' := ⟨_, rfl⟩
  obtain ⟨disk', hsave⟩ := hsave
  obtain ⟨-, -, hmore⟩ := read_publish input .default sink 9 (some "u") disk hkeeps hseparate
  obtain ⟨hgrown, -, hfile⟩ := ((hmore h hload).2 r hingest).2.2 0 h' happend
  have hending : p.outcome.ending = .error .tokenMissing := by
    rw [show p = _ from publish_of_saved hload hingest happend hsave]
    rfl
  have hformat : Format.ofPath input.data = .script := by decide
  rw [hformat] at hfile
  exact ⟨hkeeps, hseparate, hending, hgrown, hfile disk' hsave⟩

end RunInput

end BenchHistory
