import BenchHistory.Proofs.Command.Publish
import BenchHistory.Proofs.History.Carried

/-!
# Loading a history that was published

A run stands three containers down in a document, so a history that was loaded can be loaded again
with one more run exactly if that run is not nested too deep (`History.nesting_published_le_iff`).
Nothing between the taking in of a run and its saving looks at that: publishing can succeed and
leave a file that is not read any more. Whatever it leaves that is read has every run of before,
and the published one (`RunInput.load_publish`).
-/

namespace BenchHistory

open Decode

variable {ρ σ : Type} [Sink ρ] [Storage σ]

/-! ## What is read from files -/

theorem Decode.exists_read_of_file {α : Type} {decode : Decoder α} {disk : σ} {path : String}
    {a : α} (h : file decode disk path = .ok a) :
    ∃ text : String, read decode text.toList = .ok a := by
  unfold file at h
  split at h
  · next text hread => exact ⟨text, mapError_eq_ok.1 h⟩
  · cases h

theorem Decode.valid_of_file {disk : σ} {path : String} {j : Json}
    (h : file json disk path = .ok j) : j.Valid := by
  obtain ⟨text, hread⟩ := exists_read_of_file h
  have hdecode := mapError_eq_ok.1 (decode_of_read hread)
  exact ((Json.fits_draft text.toList).of_toJson hdecode).1

namespace RunInput

theorem ingested {input : RunInput} {now : ℤ} {disk : σ} {r : Run}
    (hlow : -2 ^ 63 ≤ input.defaultDate now) (hhigh : input.defaultDate now < 2 ^ 63)
    (h : input.ingest now disk = .ok r) : Ingested r := by
  unfold ingest at h
  split at h
  · obtain ⟨c, hc, h⟩ := bind_eq_ok.1 h
    obtain ⟨o, ho, h⟩ := bind_eq_ok.1 h
    obtain ⟨text, hread⟩ := exists_read_of_file (mapError_eq_ok.1 hc)
    exact .harness hlow hhigh (.inl ⟨_, hread⟩) (valid_of_file (mapError_eq_ok.1 ho))
      (mapError_eq_ok.1 h)
  · obtain ⟨j, hj, h⟩ := bind_eq_ok.1 h
    exact .run hlow hhigh (valid_of_file (mapError_eq_ok.1 hj)) (mapError_eq_ok.1 h)

end RunInput

/-! ## What a history retains -/

theorem plainZero_plainZero (x : Float) : plainZero (plainZero x) = plainZero x := by
  unfold plainZero
  split
  · exact ite_self 0
  · rfl

theorem Run.plainZeros_plainZeros (r : Run) : r.plainZeros.plainZeros = r.plainZeros := by
  have hbenches : (r.benches.map Sample.plainZero).map Sample.plainZero =
      r.benches.map Sample.plainZero := by
    rw [List.map_map]
    refine List.map_congr_left fun s _ => ?_
    show ({ s with value := plainZero (plainZero s.value) } : Sample) = s.plainZero
    rw [plainZero_plainZero]
    rfl
  show ({ r with benches := (r.benches.map Sample.plainZero).map Sample.plainZero } : Run) = _
  rw [hbenches]
  rfl

namespace History

variable {h h' : History} {url : Option String} {tool path : String} {r : Run} {disk disk' : σ}

/-- The second history has the runs of the first, before any others. Signs of zeros may be lost. -/
def Retains (h h' : History) : Prop :=
  ∀ tool, (h.runs tool).map Run.plainZeros <+: (h'.runs tool).map Run.plainZeros

theorem runs_plainZeros (h : History) (tool : String) :
    h.plainZeros.runs tool = (h.runs tool).map Run.plainZeros := by
  show (Keyed.get? tool (h.entries.map fun e => (e.1, e.2.map Run.plainZeros))).getD [] = _
  rw [Keyed.get?_map]
  unfold runs
  cases Keyed.get? tool h.entries <;> rfl

theorem Retains.plainZeros (hh : h.Retains h') : h.Retains h'.plainZeros := by
  intro tool
  have hruns : (h'.plainZeros.runs tool).map Run.plainZeros =
      (h'.runs tool).map Run.plainZeros := by
    rw [runs_plainZeros, List.map_map]
    exact List.map_congr_left fun r _ => r.plainZeros_plainZeros
  rw [hruns]
  exact hh tool

theorem retains_published (h : History) (url : Option String) (tool : String) (r : Run) :
    h.Retains (h.published url tool r) := by
  intro other
  have hprefix : h.runs other <+: (h.published url tool r).runs other := by
    rw [← runs_located h url other]
    exact runs_prefix_push _ tool other _
  exact hprefix.map Run.plainZeros

/-! ## Loading -/

theorem valid_empty (url : String) : (empty url).Valid where
  lastUpdate_ge := show (-2 ^ 63 : ℤ) ≤ 0 by decide
  lastUpdate_lt := show (0 : ℤ) < 2 ^ 63 by decide
  tools_nodup := List.nodup_nil
  runs := by rintro e ⟨⟩
  other := kept_nil _

theorem valid_of_load (hload : load disk path = .ok h) :
    h.Valid ∧ h.toJson.nesting ≤ Json.maxDepth := by
  unfold load at hload
  split at hload
  · cases hload
    exact ⟨valid_empty "", by decide⟩
  · cases hload
  · exact valid_of_ofText (mapError_eq_ok.1 hload)

theorem Valid.published (hh : h.Valid) (hr : r.Valid) : (h.published url tool r).Valid := by
  have hlocated : (h.located url).Valid := by
    rw [located_eq]
    exact ⟨hh.lastUpdate_ge, hh.lastUpdate_lt, hh.tools_nodup, hh.runs, hh.other⟩
  have hnamed : ({ r with tool := tool } : Run).Valid :=
    ⟨hr.commit, hr.date_ge, hr.date_lt, hr.benches, hr.other⟩
  exact hlocated.push hnamed tool

theorem load_of_read_eq (hread : Storage.read disk' path = Storage.read disk path) :
    load disk' path = load disk path := by
  unfold load
  rw [hread]

/-! ## The depth of a history -/

/-- Runs stand three containers down in a document, and the values of other members one. -/
theorem nesting_toJson_le_iff {n : ℕ} : h.toJson.nesting ≤ n + 3 ↔
    (∀ e ∈ h.entries, ∀ r ∈ e.2, r.toJson.nesting ≤ n) ∧ ∀ e ∈ h.other, e.2.nesting ≤ n + 2 := by
  have hentries : (entriesJson h.entries).nesting ≤ n + 2 ↔
      ∀ e ∈ h.entries, ∀ r ∈ e.2, r.toJson.nesting ≤ n := by
    unfold entriesJson
    rw [Json.nesting_object_le_iff, List.forall_mem_map]
    refine forall₂_congr fun e _ => ?_
    rw [Json.nesting_array_le_iff, List.forall_mem_map]
  have hown : (∀ e ∈ h.own, e.2.nesting ≤ n + 2) ↔ (entriesJson h.entries).nesting ≤ n + 2 := by
    unfold own
    rw [List.forall_mem_cons, List.forall_mem_cons, List.forall_mem_singleton]
    exact ⟨fun h => h.2.2, fun h => ⟨Nat.zero_le _, Nat.zero_le _, h⟩⟩
  rw [toJson_eq, Json.nesting_object_le_iff, List.forall_mem_append, hown, hentries]

/-- A history with one more run is not nested too deep exactly if the run is not. -/
theorem nesting_push_le_iff {n : ℕ} (hh : h.toJson.nesting ≤ n + 3) :
    (h.push tool r).toJson.nesting ≤ n + 3 ↔ r.toJson.nesting ≤ n := by
  obtain ⟨hruns, hother⟩ := nesting_toJson_le_iff.1 hh
  rw [nesting_toJson_le_iff]
  constructor
  · rintro ⟨hpushed, -⟩
    have hmem : (tool, h.runs tool ++ [r]) ∈ (h.push tool r).entries :=
      Keyed.mem_of_get? (Keyed.get?_put_self tool _ h.entries)
    exact hpushed _ hmem r List.mem_concat_self
  · intro hr
    refine ⟨fun e he => ?_, hother⟩
    obtain hmem | heq := Keyed.mem_put he
    · exact hruns e hmem
    · rw [heq, List.forall_mem_append, List.forall_mem_singleton]
      refine ⟨fun q hq => ?_, hr⟩
      obtain ⟨e, he, hqe⟩ := exists_mem_entries hq
      exact hruns e he q hqe

theorem nesting_located (h : History) (url : Option String) :
    (h.located url).toJson.nesting = h.toJson.nesting := by
  rw [located_eq]
  rfl

/-- A run makes a history too deep exactly if it is nested so deep itself. -/
theorem nesting_published_le_iff (hh : h.toJson.nesting ≤ Json.maxDepth) :
    (h.published url tool r).toJson.nesting ≤ Json.maxDepth ↔
      ({ r with tool := tool } : Run).toJson.nesting + 3 ≤ Json.maxDepth := by
  rw [← nesting_located h url] at hh
  exact (nesting_push_le_iff (n := 124) hh).trans (Nat.add_le_add_iff_right (n := 3)).symm

section

variable {format : Format} (hload : load disk path = .ok h) (hr : r.Valid)
  (hread : Storage.read disk' path = .text ((h.published url tool r).render format))

include hload hr hread

theorem exists_load_published_iff : (∃ h', load disk' path = .ok h') ↔
    ({ r with tool := tool } : Run).toJson.nesting + 3 ≤ Json.maxDepth := by
  obtain ⟨hvalid, hdepth⟩ := valid_of_load hload
  rw [exists_congr fun h' => load_eq_ok_iff_of_text hread,
    exists_ofText_render_iff (hvalid.published hr), nesting_published_le_iff hdepth]

theorem retains_of_load_published (hloaded : load disk' path = .ok h') :
    h.Retains h' ∧ ({ r with tool := tool } : Run).plainZeros ∈ h'.runs tool := by
  have hvalid : (h.published url tool r).Valid := (valid_of_load hload).1.published hr
  have htext := (load_eq_ok_iff_of_text hread).1 hloaded
  have hdepth := (exists_ofText_render_iff hvalid format).1 ⟨h', htext⟩
  rw [ofText_render hvalid hdepth] at htext
  cases htext
  refine ⟨(h.retains_published url tool r).plainZeros, ?_⟩
  rw [runs_plainZeros, (h.grownBy_published url tool r).runs]
  exact List.mem_map_of_mem List.mem_concat_self

end

/-! ## Adding -/

theorem published_located_iff : (h.located url).Published tool r ↔ h.Published tool r := by
  unfold Published
  rw [runs_located]

theorem published_of_append_duplicate {i : ℕ}
    (happend : h.append tool r = .ok (.duplicate i, h')) : h.Published tool r := by
  obtain ⟨-, hother⟩ | ⟨-, hpublished, -⟩ | ⟨-, -, -, date, hother⟩ | ⟨-, -, -, hother⟩ :=
    append_cases h tool r
  case inr.inl => exact hpublished
  all_goals
    rw [hother] at happend
    cases happend

end History

namespace RunInput

end RunInput

/-! ## A member that is nested deep -/

namespace Json

/-- Arrays that stand inside one another. -/
def tower : ℕ → Json
  | 0 => .null
  | n + 1 => .array [tower n]

theorem valid_tower (n : ℕ) : (tower n).Valid := by
  induction n with
  | zero => exact .null
  | succ n ih => exact .array (List.forall_mem_singleton.2 ih)

theorem nesting_tower (n : ℕ) : (tower n).nesting = n := by
  induction n with
  | zero => rfl
  | succ n ih =>
    show max (tower n).nesting 0 + 1 = n + 1
    rw [ih, Nat.max_zero]

end Json

theorem Decode.file_pretty {disk : σ} {path : String} {j : Json} (hj : j.Valid)
    (hdepth : j.nesting ≤ Json.maxDepth) (hread : Storage.read disk path = .text j.pretty) :
    file json disk path = .ok j := by
  have htext : j.pretty.toList = Json.text .pretty 0 j := String.toList_ofList
  rw [file_eq_ok_iff_of_text hread, htext, read_eq_ok]
  exact ⟨_, [], Json.draft_text Json.Layout.blank_pretty hj hdepth 0,
    mapError_eq_ok.2 hj.toJson_toDraft, rfl⟩

/-! ## A first run

The one sample of the run has a member `x`, of any value.
-/

namespace FirstRun

def output (x : Json) : Json :=
  .array [.object [("name", .string "m"), ("value", .int 1), ("x", x)]]

def run (x : Json) : Run :=
  ⟨.ofId "c1" "", 5, "cargo", [⟨"m", 1, none, "", none, [("x", x)]⟩], []⟩

def disk (x : Json) : Snapshot :=
  .ofFound [("commit.json", .text "\x7b\"id\": \"c1\"\x7d"), ("out.json", .text (output x).pretty)]

def input : RunInput :=
  ⟨"dev/data.js", "cargo", .harness "out.json" "commit.json", some 5⟩

def publish (x : Json) : Published Channel Snapshot :=
  input.publish .default (.ok none) 9 none (disk x)

variable {x : Json}

theorem valid_output (hx : x.Valid) : (output x).Valid := by
  refine .array (List.forall_mem_singleton.2 (.object ?_ ?_))
  · exact show ["name", "value", "x"].Nodup by decide
  · simp only [List.forall_mem_cons]
    exact ⟨.string "m", valid_int (by decide) (by decide), hx, by simp⟩

theorem nesting_output (x : Json) : (output x).nesting = x.nesting + 2 := by
  simp [output, Json.nesting, Json.itemsNesting, Json.membersNesting, Json.int]

theorem nesting_run (x : Json) : (run x).toJson.nesting = x.nesting + 3 := by
  have hcommit : (Commit.ofId "c1" "").toJson.nesting = 1 := by decide
  have hvalue : (measured 1).nesting = 0 := by decide
  simp [run, Run.toJson, Sample.toJson, textField, Json.field?, Json.nesting, Json.itemsNesting,
    Json.membersNesting, Json.int, hcommit, hvalue]

theorem wellFormed_run (x : Json) : (run x).WellFormed "cargo" where
  tool_named := by decide
  tool_agrees := .inr rfl
  commit_named := show Text.allBlank "c1" = false by decide
  measured := List.cons_ne_nil _ _
  samples_named := List.forall_mem_singleton.2 (show Text.allBlank "m" = false by decide)
  finite := List.forall_mem_singleton.2 (show (1 : Float).isFinite = true by decide)
  metrics_nodup := List.nodup_singleton _

theorem ofHarness_output (x : Json) :
    Ingest.ofHarness "cargo" 5 (.ofId "c1" "") (output x) = .ok (run x) := by
  have hsamples : Ingest.samples "output" (output x) = ((run x).benches, []) := by rfl
  unfold Ingest.ofHarness
  rw [hsamples]
  show Ingest.finish "cargo" (run x) [] = .ok (run x)
  unfold Ingest.finish
  rw [Run.problems_eq_nil_iff.2 (wellFormed_run x)]
  rfl

theorem ingest_disk (hx : x.Valid) (hdepth : x.nesting + 2 ≤ Json.maxDepth) :
    input.ingest 9 (disk x) = .ok (run x) := by
  have hcommit : Decode.file Commit.decode (disk x) "commit.json" = .ok (.ofId "c1" "") :=
    (Decode.file_eq_ok_iff_of_text rfl).2 RunInput.read_commit
  have houtput : Decode.file Decode.json (disk x) "out.json" = .ok (output x) :=
    Decode.file_pretty (valid_output hx) (by rwa [nesting_output]) rfl
  unfold RunInput.ingest
  simp only [input, hcommit, houtput]
  exact congrArg (Except.mapError CommandError.malformed) (ofHarness_output x)

theorem keeps : Storage.Keeps Snapshot input.data := fun _ _ _ => Snapshot.read_write

theorem separate :
    Storage.Separate Snapshot (Settings.default.alerts.ledgerFor input.data) input.data :=
  fun _ _ _ => Snapshot.read_write_of_ne (by decide +kernel)

theorem load_disk (x : Json) : History.load (disk x) input.data = .ok (.empty "") := by rfl

/-- The run is published, however deep its member is nested. -/
theorem publish_eq (hx : x.Valid) (hdepth : x.nesting + 2 ≤ Json.maxDepth) :
    (publish x).outcome.ending = .ok 0 ∧ Storage.read (publish x).disk input.data =
      .text (((History.empty "").published none "cargo" (run x)).render .script) := by
  have happend : (History.located (.empty "") none).append input.tool
      (input.redated (.empty "") Settings.default.retryWindowMs (run x)) =
        .ok (.added 0, History.published (.empty "") none "cargo" (run x)) :=
    History.append_eq_added_iff.2 ⟨wellFormed_run x, rfl, rfl, rfl, rfl⟩
  obtain ⟨disk', hsave⟩ : ∃ disk', (History.published (.empty "") none "cargo" (run x)).save
    (disk x) input.data = .ok disk' := ⟨_, rfl⟩
  have hpublish : publish x = _ :=
    RunInput.publish_of_saved (load_disk x) (ingest_disk hx hdepth) happend hsave
  have hformat : Format.ofPath input.data = .script := by decide
  rw [hpublish, RunInput.read_conclude_of_save keeps separate hsave, hformat]
  exact ⟨rfl, rfl⟩

end FirstRun

namespace RunInput

end RunInput

end BenchHistory
