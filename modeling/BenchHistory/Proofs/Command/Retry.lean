import BenchHistory.Program
import BenchHistory.Proofs.Command.Leaves
import BenchHistory.Proofs.Command.Offers
import BenchHistory.Proofs.Command.SharedFile

/-!
# Publishing again

A publication that succeeded can be repeated without effect: the file of the history stays as it
is, the same is printed with the same exit status, and no alert is delivered a second time
(`RunInput.publish_again`). Without a date the repetition has to be recognised by the date of the
latest run (`RunInput.Recognised`), and the ledger has to be in another file than the history;
otherwise a second attempt can add the run once more (`RunInput.not_publish_again`).
-/

namespace BenchHistory

open Decode

variable {ρ σ : Type} [Sink ρ] [Storage σ]

namespace RunInput

variable {input : RunInput} {s : Settings} {h h' : History} {r : Run} {disk : σ}

/-- Publishing again leaves the file as it is, ends as the first time and repeats no alert. -/
structure NothingNew (input : RunInput) (s : Settings) (sink : Except CommandError (Option ρ))
    (now : ℤ) (url : Option String) (p : Published ρ σ) : Prop where
  file : Storage.read (input.publish s sink now url p.disk).disk input.data =
    Storage.read p.disk input.data
  outcome : (input.publish s sink now url p.disk).outcome = p.outcome
  keys : ∀ l, Ledger.load p.disk (s.alerts.ledgerFor input.data) = .ok l →
    ∀ o ∈ input.offers s sink now url p.disk, o.1.key ∉ l.keys

theorem nothingNew_of_duplicate {sink sink' : Except CommandError (Option ρ)} {now : ℤ}
    {url : Option String} {p : Published ρ σ} {r' : Run} {status : ℕ}
    (hkind : sink'.map Option.isSome = sink.map Option.isSome)
    (hkeeps : Storage.Keeps σ (s.alerts.ledgerFor input.data))
    (hseparate : Storage.Separate σ (s.alerts.ledgerFor input.data) input.data)
    (hp : p = input.conclude s sink h r disk) (hdone : p.outcome.ending = .ok status)
    (hload : History.load p.disk input.data = .ok h') (hingest : input.ingest now p.disk = .ok r')
    (hdated : input.redated h' s.retryWindowMs r' = r) (hfine : r.problems input.tool = [])
    (hpublished : h'.Published input.tool r)
    (heval : Detector.evaluate s.detector h' input.tool r =
      Detector.evaluate s.detector h input.tool r) :
    input.NothingNew s sink' now url p := by
  have hlocated : (h'.located url).Published input.tool r :=
    History.published_located_iff.2 hpublished
  obtain ⟨i, happend⟩ := History.append_of_published hfine hlocated
  rw [← hdated] at happend
  have hagain : ∀ {τ : Type} [Sink τ] (sink : Except CommandError (Option τ)),
      input.publish s sink now url p.disk = input.conclude s sink h' r p.disk := by
    intro τ _ sink
    rw [publish_of_repeated hload hingest happend, hdated]
  refine ⟨?_, ?_, fun l hl => ?_⟩
  · rw [hagain]
    exact read_conclude hseparate
  · rw [hagain, hp]
    rw [hp] at hdone
    exact outcome_conclude_again hkind hkeeps heval hdone
  · unfold offers
    rw [hagain]
    split
    · next recorder hrecorder => exact key_not_mem_of_conclude hl hrecorder
    · rintro o ⟨⟩

/-! ## Dates of later attempts -/

theorem redated_of_date {input : RunInput} {date : ℤ} (hdate : input.date = some date)
    (h : History) (windowMs : ℤ) (r : Run) : input.redated h windowMs r = r := by
  unfold redated
  rw [hdate]

theorem redated_undated (input : RunInput) (h : History) (windowMs : ℤ) (r : Run) :
    input.undated.redated h windowMs r =
      match h.retried? input.tool r windowMs with
      | some last => { r with date := last.date }
      | none => r := rfl

theorem redated_eq (input : RunInput) (h : History) (windowMs : ℤ) (r : Run) :
    input.redated h windowMs r = { r with date := (input.redated h windowMs r).date } := by
  unfold redated
  split
  · rfl
  · split <;> rfl

/--
An attempt without a date is known to be the second one: the tool's latest run is the one that the
first attempt was taken for, with the same samples; or the attempt repeats no run of another date
and has that date of its own.
-/
def Recognised (h : History) (tool : String) (windowMs : ℤ) (dated r : Run) : Prop :=
  (∃ last, (h.runs tool).getLast? = some last ∧ last.date = dated.date ∧ last.Repeats dated) ∨
    h.retried? tool r windowMs = none ∧ r.date = dated.date

section Dates

variable {windowMs : ℤ} {dated : Run}

theorem repeats_named (hr : r.Valid) (tool : String) :
    ({ r with tool := tool } : Run).Repeats r :=
  ⟨hr.repeats_self.id, hr.repeats_self.length, hr.repeats_self.samples⟩

/-- The same input comes to the same date after publishing as before. -/
theorem Leaves.redated_eq (hleaves : Leaves input.tool h r (input.redated h windowMs r) h') :
    input.redated h' windowMs r = input.redated h windowMs r := by
  cases hleaves with
  | same hpublished hsame => rw [hsame]
  | grown hnew hdated hwf hruns =>
    rw [hdated]
    unfold redated
    split
    · rfl
    · split
      · next last hlast =>
        obtain ⟨hlast, -⟩ := History.retried?_eq_some_iff.1 hlast
        rw [hruns, List.getLast?_concat, Option.some_inj] at hlast
        rw [← hlast]
      · rfl

/-- A later attempt without a date comes to the date of the first one. -/
theorem Leaves.redated_undated_eq {date : ℤ}
    (hleaves : Leaves input.tool h r dated h') (hdated : dated = { r with date := dated.date })
    (hr : r.Valid) (hlow : 0 ≤ date - dated.date) (hhigh : date - dated.date ≤ windowMs)
    (hrecognised : h.Published input.tool dated →
      Recognised h input.tool windowMs dated { r with date := date }) :
    input.undated.redated h' windowMs { r with date := date } = dated := by
  have hfound : ∀ last, (h'.runs input.tool).getLast? = some last → last.date = dated.date →
      last.Repeats r →
      h'.retried? input.tool { r with date := date } windowMs = some last := by
    intro last hlast hdate hrepeats
    refine History.retried?_eq_some_iff.2 ⟨hlast, hrepeats.date date, ?_, ?_⟩
    · show 0 ≤ date - last.date
      rw [hdate]
      exact hlow
    · show date - last.date ≤ windowMs
      rw [hdate]
      exact hhigh
  rw [redated_undated]
  cases hleaves with
  | same hpublished hsame =>
    obtain ⟨last, hlast, hdate, hrepeats⟩ | ⟨hnone, hdate⟩ := hrecognised hpublished
    · rw [hdated] at hrepeats
      rw [hfound last (by rw [hsame]; exact hlast) hdate (hrepeats.date r.date)]
      show { r with date := last.date } = dated
      rw [hdate, ← hdated]
    · rw [hsame, hnone]
      show { r with date := date } = dated
      rw [show date = dated.date from hdate, ← hdated]
  | grown hnew heq hwf hruns =>
    have hlast : (h'.runs input.tool).getLast? = some { r with tool := input.tool } := by
      rw [hruns, List.getLast?_concat]
    rw [hfound _ hlast (by rw [heq]) (repeats_named hr input.tool)]
    exact heq.symm

end Dates

/-! ## The second attempt -/

theorem ingest_of_date {date : ℤ} (hdate : input.date = some date) (now now' : ℤ) :
    input.ingest now' disk = input.ingest now disk := by
  unfold ingest defaultDate
  rw [hdate]
  rfl

theorem check_of_read {now : ℤ} (hload : History.load disk input.data = .ok h)
    (hingest : input.ingest now disk = .ok r) (hproblem : s.detector.problem? = none) :
    let ev := Detector.evaluate s.detector h input.tool (input.redated h s.retryWindowMs r)
    input.check s now disk = ⟨ev.printed, .ok (ev.status s)⟩ := by
  intro ev
  unfold check prepare
  rw [hload, hingest]
  simp only [hproblem]
  rfl

end RunInput

/-! ## A run after others

The harness has measured commit `c1`, and the history has other runs.
-/

namespace Sequel

def run (id : String) (date : ℤ) (value : Float) : Run :=
  ⟨.ofId id "", date, "cargo", [⟨"m", value, none, "", none, []⟩], []⟩

def history (rs : List Run) : History :=
  ⟨0, "", [("cargo", rs)], []⟩

def disk (rs : List Run) : Snapshot :=
  .ofFound [("commit.json", .text "\x7b\"id\": \"c1\"\x7d"),
    ("out.json", .text "[\x7b\"name\": \"m\", \"value\": 1\x7d]"),
    ("dev/data.json", .text ((history rs).render .json))]

def input : RunInput :=
  ⟨"dev/data.json", "cargo", .harness "out.json" "commit.json", some 5⟩

/-- Runs that are read back as they are. -/
structure Plain (r : Run) : Prop where
  valid : r.Valid
  zeros : r.plainZeros = r
  nesting : r.toJson.nesting = 3

theorem plain_run (id : String) {date : ℤ} {value : Float} (hlow : -2 ^ 63 ≤ date)
    (hhigh : date < 2 ^ 63) (hfinite : value.isFinite = true) (hzero : (value == 0) = false) :
    Plain (run id date value) where
  valid := ⟨Commit.valid_ofId id "", hlow, hhigh,
    List.forall_mem_singleton.2 ⟨hfinite, kept_nil _⟩, kept_nil _⟩
  zeros := by
    have hplain : plainZero value = value := if_neg (by rw [hzero]; exact Bool.false_ne_true)
    show run id date (plainZero value) = run id date value
    rw [hplain]
  nesting := by
    have hcommit : (Commit.ofId id "").toJson.nesting = 1 := by rfl
    simp [run, Run.toJson, Sample.toJson, textField, Json.field?, Json.nesting, Json.itemsNesting,
      Json.membersNesting, Json.int, hcommit, nesting_measured]

theorem plain_c1 : Plain (run "c1" 5 1) :=
  plain_run "c1" (by decide) (by decide) rfl rfl

theorem wellFormed_c1 (date : ℤ) : (run "c1" date 1).WellFormed "cargo" where
  tool_named := by decide
  tool_agrees := .inr rfl
  commit_named := show Text.allBlank "c1" = false by decide
  measured := List.cons_ne_nil _ _
  samples_named := List.forall_mem_singleton.2 (show Text.allBlank "m" = false by decide)
  finite := List.forall_mem_singleton.2 (show (1 : Float).isFinite = true by rfl)
  metrics_nodup := List.nodup_singleton _

theorem ingest_disk (rs : List Run) (now : ℤ) :
    input.ingest now (disk rs) = .ok (run "c1" 5 1) := by
  have hcommit : Decode.file Commit.decode (disk rs) "commit.json" = .ok (.ofId "c1" "") :=
    (Decode.file_eq_ok_iff_of_text rfl).2 RunInput.read_commit
  have houtput : Decode.file Decode.json (disk rs) "out.json" =
      .ok (.array [.object [("name", .string "m"), ("value", .int 1)]]) :=
    (Decode.file_eq_ok_iff_of_text rfl).2 RunInput.read_output
  rw [RunInput.ingest_of_date rfl 9]
  unfold RunInput.ingest
  simp only [input, hcommit, houtput]
  rfl

theorem load_disk {rs : List Run} (hrs : ∀ r ∈ rs, Plain r) :
    History.load (disk rs) input.data = .ok (history rs) := by
  have hvalid : (history rs).Valid :=
    ⟨show -2 ^ 63 ≤ (0 : ℤ) by decide, show (0 : ℤ) < 2 ^ 63 by decide, List.nodup_singleton _,
      List.forall_mem_singleton.2 fun r hr => (hrs r hr).valid, kept_nil _⟩
  have hdepth : (history rs).toJson.nesting ≤ Json.maxDepth := by
    refine (History.nesting_toJson_le_iff (n := 124)).2 ⟨?_, by rintro e ⟨⟩⟩
    exact List.forall_mem_singleton.2 fun r hr => by rw [(hrs r hr).nesting]; decide
  have hzeros : (history rs).plainZeros = history rs := by
    have hall : rs.map Run.plainZeros = rs.map id :=
      List.map_congr_left fun r hr => (hrs r hr).zeros
    show History.mk 0 "" [("cargo", rs.map Run.plainZeros)] [] = history rs
    rw [hall, List.map_id]
    rfl
  have hread : Storage.read (disk rs) input.data = .text ((history rs).render .json) := rfl
  rw [History.load_eq_ok_iff_of_text hread, History.ofText_render hvalid hdepth, hzeros]

theorem nesting_published {rs : List Run} (hrs : ∀ r ∈ rs, Plain r) :
    ((history rs).published none "cargo" (run "c1" 5 1)).toJson.nesting ≤ Json.maxDepth := by
  have hdepth : (run "c1" 5 1).toJson.nesting + 3 ≤ Json.maxDepth := by
    rw [plain_c1.nesting]
    decide
  exact (History.nesting_published_le_iff (History.valid_of_load (load_disk hrs)).2).2 hdepth

theorem keeps : Storage.Keeps Snapshot input.data := fun _ _ _ => Snapshot.read_write

theorem ledgerFor_default :
    Settings.default.alerts.ledgerFor input.data = "dev/benchwatch-alerts.json" := by
  decide +kernel

theorem separate :
    Storage.Separate Snapshot (Settings.default.alerts.ledgerFor input.data) input.data := by
  rw [ledgerFor_default]
  exact fun _ _ _ => Snapshot.read_write_of_ne (by decide)

/-! ### A slower run -/

/-- What was published before: half the value. -/
def before : List Run := [run "c0" 4 0.5]

theorem plain_before : ∀ r ∈ before, Plain r :=
  List.forall_mem_singleton.2 (plain_run "c0" (by decide) (by decide) rfl rfl)

theorem hasRegressions_before : (Detector.evaluate .default (history before) "cargo"
    (run "c1" 5 1)).hasRegressions = true := by
  decide

/-- Publishing adds the run, and comes to the telling of the regression. -/
theorem publish_before {ρ : Type} [Sink ρ] (s : Settings)
    (sink : Except CommandError (Option ρ)) :
    ∃ disk', Snapshot.write (disk before) input.data
        (((history before).published none "cargo" (run "c1" 5 1)).render .json) = .ok disk' ∧
      input.publish s sink 9 none (disk before) =
        input.conclude s sink (history before) (run "c1" 5 1) disk' := by
  have happend : ((history before).located none).append input.tool
      (input.redated (history before) s.retryWindowMs (run "c1" 5 1)) =
        .ok (.added 1, (history before).published none "cargo" (run "c1" 5 1)) := by
    rw [RunInput.redated_of_date rfl]
    exact History.append_eq_added_iff.2 ⟨wellFormed_c1 5, rfl, rfl, rfl, rfl⟩
  obtain ⟨disk', hwrite⟩ := Snapshot.exists_write (s := disk before) rfl input.data
    (((history before).published none "cargo" (run "c1" 5 1)).render .json)
  have hsave : ((history before).published none "cargo" (run "c1" 5 1)).save (disk before)
      input.data = .ok disk' := by
    have hformat : Format.ofPath input.data = .json := rfl
    unfold History.save
    rw [hformat]
    exact hwrite
  exact ⟨disk', hwrite,
    RunInput.publish_of_saved (load_disk plain_before) (ingest_disk before 9) happend hsave⟩

def publish (s : Settings) : Published Channel Snapshot :=
  input.publish s (.ok (some .log)) 9 none (disk before)

/-- Settings under which a regression fails. -/
def strict : Settings :=
  { Settings.default with failOnRegression := true }

theorem ending_strict : (publish strict).outcome.ending = .ok 2 := by
  obtain ⟨disk', hwrite, hpublish⟩ := publish_before strict (.ok (some Channel.log))
  have hledger : Ledger.load disk' (strict.alerts.ledgerFor input.data) =
      .ok ⟨some "dev/benchwatch-alerts.json", []⟩ := by
    have hread : Storage.read disk' "dev/benchwatch-alerts.json" =
        Storage.read (disk before) "dev/benchwatch-alerts.json" :=
      Snapshot.read_write_of_ne (by decide) hwrite
    have habsent : Storage.read (disk before) "dev/benchwatch-alerts.json" = .absent := rfl
    rw [show strict.alerts.ledgerFor input.data = _ from ledgerFor_default]
    unfold Ledger.load
    rw [hread, habsent]
  have houtcome : (input.conclude strict (.ok (some Channel.log)) (history before)
      (run "c1" 5 1) disk').outcome = _ := RunInput.outcome_conclude_of_load Channel.log rfl hledger
  have hstatus : (Detector.evaluate strict.detector (history before) input.tool
      (run "c1" 5 1)).status strict = 2 := by decide
  unfold publish
  rw [hpublish, houtcome]
  exact congrArg Except.ok hstatus

theorem read_files : ∀ path ∈ input.source.files,
    Storage.read (publish strict).disk path = Storage.read (disk before) path := by
  intro path hpath
  have hne : ∀ path ∈ ["commit.json", "out.json"],
      Snapshot.samePath "dev/data.json" path = false ∧
        Snapshot.samePath "dev/benchwatch-alerts.json" path = false := by
    decide
  obtain ⟨hdata, hledger⟩ := hne path hpath
  refine RunInput.read_publish_of_separate (fun _ _ _ => Snapshot.read_write_of_ne hdata) ?_
  rw [show strict.alerts.ledgerFor input.data = _ from ledgerFor_default]
  exact fun _ _ _ => Snapshot.read_write_of_ne hledger

end Sequel

namespace RunInput

end RunInput

namespace Sequel

/-! ### A run that is not the latest -/

/-- The run in question and a later one. -/
def overtaken : List Run := [run "c1" 5 1, run "c2" 6 1]

theorem plain_overtaken : ∀ r ∈ overtaken, Plain r :=
  List.forall_mem_cons.2 ⟨plain_c1,
    List.forall_mem_singleton.2 (plain_run "c2" (by decide) (by decide) rfl rfl)⟩

theorem publish_overtaken :
    input.publish .default (.ok none : Except CommandError (Option Channel)) 9 none
      (disk overtaken) = input.conclude .default (.ok none) (history overtaken) (run "c1" 5 1)
        (disk overtaken) := by
  have happend : ((history overtaken).located none).append input.tool
      (input.redated (history overtaken) Settings.default.retryWindowMs (run "c1" 5 1)) =
        .ok (.duplicate 0, history overtaken) := by
    rw [RunInput.redated_of_date rfl]
    exact History.append_of_position (Run.problems_eq_nil_iff.2 (wellFormed_c1 5)) rfl
  rw [RunInput.publish_of_repeated (load_disk plain_overtaken) (ingest_disk _ 9) happend,
    RunInput.redated_of_date rfl]

/-- Without a date the run is not known to be the same, and is added once more. -/
theorem read_undated_overtaken :
    Storage.read (input.undated.publish .default (.ok none : Except CommandError (Option Channel))
      1000 none (disk overtaken)).disk input.data ≠
        Storage.read (disk overtaken) input.data := by
  have hload : History.load (disk overtaken) input.undated.data = .ok (history overtaken) :=
    load_disk plain_overtaken
  have hingest : input.undated.ingest 1000 (disk overtaken) = .ok (run "c1" 1000 1) :=
    RunInput.ingest_undated_of_harness rfl (ingest_disk _ 9) 1000
  have hnone : (history overtaken).retried? input.tool (run "c1" 1000 1)
      Settings.default.retryWindowMs = none := by
    refine Option.eq_none_iff_forall_ne_some.2 fun last hlast => ?_
    obtain ⟨hlast, hrepeats, -⟩ := History.retried?_eq_some_iff.1 hlast
    cases hlast
    exact absurd hrepeats.id (by decide)
  have hdated : input.undated.redated (history overtaken) Settings.default.retryWindowMs
      (run "c1" 1000 1) = run "c1" 1000 1 := by
    rw [RunInput.redated_undated, hnone]
  have happend : ((history overtaken).located none).append input.tool
      (input.undated.redated (history overtaken) Settings.default.retryWindowMs
        (run "c1" 1000 1)) =
          .ok (.added 2, (history overtaken).published none "cargo" (run "c1" 1000 1)) := by
    rw [hdated]
    exact History.append_eq_added_iff.2 ⟨wellFormed_c1 1000, rfl, rfl, rfl, rfl⟩
  obtain ⟨disk', hsave⟩ : ∃ disk' : Snapshot,
      ((history overtaken).published none "cargo" (run "c1" 1000 1)).save (disk overtaken)
        input.undated.data = .ok disk' :=
    Snapshot.exists_write (s := disk overtaken) rfl input.undated.data _
  have hvalid : (run "c1" 1000 1).Valid :=
    (plain_run "c1" (by decide) (by decide) rfl rfl).valid
  have hread : Storage.read (input.undated.conclude .default
      (.ok none : Except CommandError (Option Channel)) (history overtaken) (input.undated.redated
        (history overtaken) Settings.default.retryWindowMs (run "c1" 1000 1)) disk').disk
          input.undated.data = _ := RunInput.read_conclude_of_save keeps separate hsave
  rw [RunInput.publish_of_saved hload hingest happend hsave]
  exact History.read_ne_of_published hload hvalid hread

/-! ### A ledger in the file of the history -/

/-- Settings that put the ledger where the history is. -/
def shared : Settings :=
  { Settings.default with
    alerts := { Settings.default.alerts with ledgerPath := some input.data } }

theorem load_ledger_shared {disk' : Snapshot} (hwrite : Snapshot.write (disk before) input.data
    (((history before).published none "cargo" (run "c1" 5 1)).render .json) = .ok disk') :
    Ledger.load disk' (shared.alerts.ledgerFor input.data) = .ok ⟨some input.data, []⟩ := by
  have hvalid := (History.valid_of_load (load_disk plain_before)).1
  have hother : "emitted" ∉ Keyed.keys ((history before).published none "cargo"
      (run "c1" 5 1)).other := by
    rw [((history before).grownBy_published none "cargo" (run "c1" 5 1)).other]
    exact List.not_mem_nil
  exact Ledger.load_of_history (hvalid.published plain_c1.valid) (nesting_published plain_before)
    hother (Snapshot.read_write hwrite)

/-- The regression is told, and the ledger takes the place of the history. -/
theorem publish_shared :
    (publish shared).outcome.ending = .ok 0 ∧ (publish shared).disk.failures = [] ∧
      ∃ keys, Storage.read (publish shared).disk input.data = .text (Ledger.render keys) := by
  obtain ⟨disk', hwrite, hpublish⟩ := publish_before shared (.ok (some Channel.log))
  have hledger := load_ledger_shared hwrite
  obtain ⟨key, hwritten⟩ := RunInput.write_conclude (by rfl) hledger rfl hasRegressions_before
    (Snapshot.failures_write hwrite)
  have houtcome : (input.conclude shared (.ok (some Channel.log)) (history before)
      (run "c1" 5 1) disk').outcome = _ := RunInput.outcome_conclude_of_load Channel.log rfl hledger
  have hstatus : (Detector.evaluate shared.detector (history before) input.tool
      (run "c1" 5 1)).status shared = 0 := rfl
  unfold publish
  rw [hpublish]
  refine ⟨?_, ?_, [key], Snapshot.read_write hwritten⟩
  · rw [houtcome]
    exact congrArg Except.ok hstatus
  · rw [Snapshot.failures_write hwritten, Snapshot.failures_write hwrite]
    rfl

/-- What is published then is the first run of a new history. -/
theorem read_shared_again :
    Storage.read (input.publish shared (.ok (some Channel.log)) 9 none
      (publish shared).disk).disk input.data ≠
        Storage.read (publish shared).disk input.data := by
  obtain ⟨-, hnone, keys, hread⟩ := publish_shared
  have hfiles : ∀ path ∈ input.source.files,
      Storage.read (publish shared).disk path = Storage.read (disk before) path := by
    intro path hpath
    have hne : ∀ path ∈ ["commit.json", "out.json"],
        Snapshot.samePath "dev/data.json" path = false := by
      decide
    have happart : Storage.Separate Snapshot input.data path := fun _ _ _ =>
      Snapshot.read_write_of_ne (hne path hpath)
    exact RunInput.read_publish_of_separate happart happart
  generalize (publish shared).disk = disk' at hnone hread hfiles
  have hload : History.load disk' input.data = .ok (.ofKeys keys) :=
    (History.load_eq_ok_iff_of_text hread).2 (History.ofText_render_ledger keys)
  have hingest : input.ingest 9 disk' = .ok (run "c1" 5 1) := by
    rw [RunInput.ingest_of_read_eq hfiles]
    exact ingest_disk before 9
  have happend : ((History.ofKeys keys).located none).append input.tool
      (input.redated (.ofKeys keys) shared.retryWindowMs (run "c1" 5 1)) =
        .ok (.added 0, (History.ofKeys keys).published none "cargo" (run "c1" 5 1)) := by
    rw [RunInput.redated_of_date rfl]
    exact History.append_eq_added_iff.2 ⟨wellFormed_c1 5, rfl, rfl, rfl, rfl⟩
  obtain ⟨disk'', hsave⟩ : ∃ disk'' : Snapshot,
      ((History.ofKeys keys).published none "cargo" (run "c1" 5 1)).save disk' input.data =
        .ok disk'' := Snapshot.exists_write hnone input.data _
  have hbaseline : (Detector.evaluate .default (.ofKeys keys) "cargo"
      (run "c1" 5 1)).hasRegressions = false := by
    have hruns : (History.ofKeys keys).runs "cargo" = (History.empty "").runs "cargo" := rfl
    rw [Detector.evaluate_congr .default hruns]
    decide
  have hquiet : (input.conclude shared (.ok (some Channel.log)) (.ofKeys keys) (run "c1" 5 1)
      disk'').disk = disk'' :=
    RunInput.disk_conclude_of_not_hasRegressions (.ok (some Channel.log)) disk'' hbaseline
  rw [RunInput.publish_of_saved hload hingest happend hsave, RunInput.redated_of_date rfl, hquiet]
  exact History.read_ne_of_published hload plain_c1.valid (Snapshot.read_write hsave)

end Sequel

namespace RunInput

end RunInput

end BenchHistory
