import BenchHistory.Proofs.Command.Reload
import BenchHistory.Proofs.Detector.Evaluation
import BenchHistory.Proofs.History.Retry

/-!
# What a publication leaves

Publishing a run that can be loaded again leaves a history that has the run: the one that was
there, or that one with the run at the end of its tool's list (`RunInput.Leaves`,
`RunInput.exists_leaves`). The run is judged the same after the one as after the other
(`RunInput.Leaves.evaluate_eq`).
-/

namespace BenchHistory

variable {ρ σ : Type} [Sink ρ] [Storage σ]

/-! ## Reading the same files -/

/-- The files that a run is read from. -/
def RunSource.files : RunSource → List String
  | .harness output commit => [commit, output]
  | .document path => [path]

theorem Decode.file_of_read_eq {α : Type} (decode : Decode.Decoder α) {disk disk' : σ}
    {path : String} (hread : Storage.read disk' path = Storage.read disk path) :
    file decode disk' path = file decode disk path := by
  unfold file
  rw [hread]

namespace RunInput

variable {input : RunInput} {s : Settings} {now now' : ℤ} {url : Option String} {disk disk' : σ}
  {h h' : History} {r : Run}

theorem ingest_of_read_eq
    (hfiles : ∀ path ∈ input.source.files, Storage.read disk' path = Storage.read disk path) :
    input.ingest now disk' = input.ingest now disk := by
  unfold ingest
  cases hsource : input.source with
  | harness output commit =>
    rw [hsource] at hfiles
    obtain ⟨hcommit, houtput⟩ : _ ∧ _ := by simpa [RunSource.files] using hfiles
    simp only [Decode.file_of_read_eq _ hcommit, Decode.file_of_read_eq _ houtput]
  | document path =>
    rw [hsource] at hfiles
    have hpath := hfiles path List.mem_cons_self
    simp only [Decode.file_of_read_eq _ hpath]

def undated (input : RunInput) : RunInput :=
  { input with date := none }

theorem ingest_date_of_harness {output commit : String}
    (hsource : input.source = .harness output commit) (hingest : input.ingest now disk = .ok r)
    (date : Option ℤ) (now' : ℤ) :
    ({ input with date := date } : RunInput).ingest now' disk =
      .ok { r with date := date.getD now' } := by
  unfold ingest at *
  simp only [hsource] at hingest ⊢
  obtain ⟨c, hc, hingest⟩ := bind_eq_ok.1 hingest
  obtain ⟨o, ho, hingest⟩ := bind_eq_ok.1 hingest
  have hdated := Ingest.ofHarness_date (mapError_eq_ok.1 hingest) (date.getD now')
  exact bind_eq_ok.2 ⟨c, hc, bind_eq_ok.2 ⟨o, ho, mapError_eq_ok.2 hdated⟩⟩

theorem ingest_undated_of_harness {output commit : String}
    (hsource : input.source = .harness output commit) (hingest : input.ingest now disk = .ok r)
    (now' : ℤ) : input.undated.ingest now' disk = .ok { r with date := now' } :=
  ingest_date_of_harness hsource hingest none now'

theorem exists_ingest_date (hingest : input.ingest now disk = .ok r) (date : Option ℤ)
    (now' : ℤ) :
    ∃ d, ({ input with date := date } : RunInput).ingest now' disk = .ok { r with date := d } := by
  cases hsource : input.source with
  | harness output commit =>
    rw [← hsource]
    exact ⟨_, ingest_date_of_harness hsource hingest date now'⟩
  | document path =>
    unfold ingest at *
    simp only [hsource] at hingest ⊢
    obtain ⟨j, hj, hingest⟩ := bind_eq_ok.1 hingest
    obtain ⟨d, hdated⟩ := Ingest.ofRun_date (mapError_eq_ok.1 hingest) (date.getD now')
    exact ⟨d, bind_eq_ok.2 ⟨j, hj, mapError_eq_ok.2 hdated⟩⟩

theorem exists_ingest_undated (hingest : input.ingest now disk = .ok r) (now' : ℤ) :
    ∃ date, input.undated.ingest now' disk = .ok { r with date := date } :=
  exists_ingest_date hingest none now'

/-- Publishing writes to the file of the history and to that of the ledger only. -/
theorem read_publish_of_separate {sink : Except CommandError (Option ρ)} {other : String}
    (hdata : Storage.Separate σ input.data other)
    (hledger : Storage.Separate σ (s.alerts.ledgerFor input.data) other) :
    Storage.read (input.publish s sink now url disk).disk other = Storage.read disk other := by
  have hconclude : ∀ (h : History) (r : Run) (disk : σ),
      Storage.read (input.conclude s sink h r disk).disk other = Storage.read disk other := by
    intro h r disk
    unfold conclude
    split
    · rfl
    · exact Settings.read_tell hledger sink _ r disk
  have hways := publishing input s sink now url disk
  generalize input.publish s sink now url disk = p at hways
  cases hways with
  | repeated => exact hconclude _ _ _
  | saved _ _ _ hsave => exact (hconclude _ _ _).trans (hdata disk _ _ hsave)
  | _ => rfl

end RunInput

/-! ## The history afterwards -/

namespace History

variable {h h' : History} {url : Option String} {tool path : String} {r : Run} {disk disk' : σ}

theorem load_published (hload : load disk path = .ok h) (hr : r.Valid)
    (hdepth : (h.published url tool r).toJson.nesting ≤ Json.maxDepth) {format : Format}
    (hread : Storage.read disk' path = .text ((h.published url tool r).render format)) :
    load disk' path = .ok (h.published url tool r).plainZeros :=
  (load_eq_ok_iff_of_text hread).2
    (ofText_render ((valid_of_load hload).1.published hr) hdepth format)

theorem runs_plainZeros_published (hold : ∀ q ∈ h.runs tool, q.plainZeros = q)
    (hnew : r.plainZeros = r) :
    (h.published url tool r).plainZeros.runs tool = h.runs tool ++ [{ r with tool := tool }] := by
  have hstored : ({ r with tool := tool } : Run).plainZeros = { r with tool := tool } :=
    congrArg (fun q : Run => { q with tool := tool }) hnew
  have hruns : (h.runs tool).map Run.plainZeros = (h.runs tool).map id :=
    List.map_congr_left hold
  rw [runs_plainZeros, (h.grownBy_published url tool r).runs, List.map_append, hruns, List.map_id,
    List.map_singleton, hstored]

/-- The file is another one with the run than it was without. -/
theorem read_ne_of_published (hload : load disk path = .ok h) (hr : r.Valid) {format : Format}
    (hread : Storage.read disk' path = .text ((h.published url tool r).render format)) :
    Storage.read disk' path ≠ Storage.read disk path := by
  intro hsame
  have hloaded : load disk' path = .ok h := by
    rw [load_of_read_eq hsame]
    exact hload
  have hdepth := (exists_load_published_iff hload hr hread).1 ⟨h, hloaded⟩
  rw [load_published hload hr ((nesting_published_le_iff (valid_of_load hload).2).2 hdepth) hread]
    at hloaded
  have hlength : ((h.published url tool r).plainZeros.runs tool).length =
      (h.runs tool).length + 1 := by
    rw [runs_plainZeros, List.length_map, (h.grownBy_published url tool r).runs,
      List.length_append, List.length_singleton]
  rw [Except.ok.inj hloaded] at hlength
  exact Nat.succ_ne_self _ hlength.symm

end History

namespace RunInput

variable {input : RunInput} {s : Settings} {h h' : History} {r : Run} {disk : σ}

/-! ## What a publication leaves -/

/-- The history that publishing a run leaves: the same one, which has it, or one with the run. -/
inductive Leaves (tool : String) (h : History) (r dated : Run) (h' : History) : Prop
  | same (hpublished : h.Published tool dated) (hsame : h' = h)
  | grown (hnew : ¬ h.Published tool dated) (hdated : dated = r) (hwf : r.WellFormed tool)
    (hruns : h'.runs tool = h.runs tool ++ [{ r with tool := tool }])

section Leaves

variable {tool : String} {dated : Run} (hleaves : Leaves tool h r dated h')

include hleaves

theorem Leaves.published : h'.Published tool dated := by
  cases hleaves with
  | same hpublished hsame =>
    rw [hsame]
    exact hpublished
  | grown hnew hdated hwf hruns =>
    refine ⟨{ r with tool := tool }, ?_, by rw [hdated]; rfl⟩
    rw [hruns]
    exact List.mem_concat_self

/-- The run is judged as it was before it was published. -/
theorem Leaves.evaluate_eq (c : Detector.Config) :
    Detector.evaluate c h' tool dated = Detector.evaluate c h tool dated := by
  cases hleaves with
  | same hpublished hsame => rw [hsame]
  | grown hnew hdated hwf hruns =>
    rw [hdated] at hnew ⊢
    have hsame : h'.runs tool = (h.push tool { r with tool := tool }).runs tool := by
      rw [hruns, History.runs_push_self]
    rw [Detector.evaluate_congr c hsame]
    exact Detector.evaluate_push c (History.position?_eq_none_iff.2 hnew) rfl

end Leaves

section

variable {sink : Except CommandError (Option ρ)} {now : ℤ} {url : Option String} {status : ℕ}
  (hkeeps : Storage.Keeps σ input.data)
  (hseparate : Storage.Separate σ (s.alerts.ledgerFor input.data) input.data)
  (hlow : -2 ^ 63 ≤ input.defaultDate now) (hhigh : input.defaultDate now < 2 ^ 63)
  (hdone : (input.publish s sink now url disk).outcome.ending = .ok status)

include hkeeps hseparate hlow hhigh hdone

/--
A publication that succeeds has found or added the run, and judged and told it. The history that
it leaves is loaded again if measured zeros have no signs and the run is not nested too deep.
-/
theorem exists_leaves :
    ∃ h r, History.load disk input.data = .ok h ∧ input.ingest now disk = .ok r ∧ r.Valid ∧
      let p := input.publish s sink now url disk
      let dated := input.redated h s.retryWindowMs r
      dated.problems input.tool = [] ∧ (∃ disk', p = input.conclude s sink h dated disk') ∧
        ((∀ q ∈ dated :: h.runs input.tool, q.plainZeros = q) →
          (h.Published input.tool dated ∨
            (h.published url input.tool r).toJson.nesting ≤ Json.maxDepth) →
          ∃ h', History.load p.disk input.data = .ok h' ∧ Leaves input.tool h r dated h') := by
  have hways := publishing input s sink now url disk
  generalize input.publish s sink now url disk = p at hways hdone
  cases hways with
  | unloaded | unread | refused | unsaved => cases hdone
  | @repeated h h' r i hload hingest happend =>
    have hpublished := History.published_located_iff.1
      (History.published_of_append_duplicate happend)
    refine ⟨h, r, hload, hingest, (ingested hlow hhigh hingest).valid,
      History.problems_of_append happend, ⟨disk, rfl⟩, ?_⟩
    intro _ _
    refine ⟨h, ?_, .same hpublished rfl⟩
    rw [← hload]
    exact History.load_of_read_eq (read_conclude hseparate)
  | @saved h h' r i disk' hload hingest happend hsave =>
    obtain ⟨hdated, rfl⟩ := eq_of_append_added happend
    obtain ⟨hwf, hpos, -⟩ := History.append_eq_added_iff.1 happend
    have hr : r.Valid := (ingested hlow hhigh hingest).valid
    have hnew : ¬ h.Published input.tool (input.redated h s.retryWindowMs r) := fun hold =>
      History.position?_eq_none_iff.1 hpos (History.published_located_iff.2 hold)
    refine ⟨h, r, hload, hingest, hr, Run.problems_eq_nil_iff.2 hwf, ⟨disk', rfl⟩, ?_⟩
    intro hzeros hdepth
    obtain ⟨hzero, hzeros⟩ := List.forall_mem_cons.1 hzeros
    have hread : Storage.read (input.conclude s sink h (input.redated h s.retryWindowMs r)
        disk').disk input.data =
          .text ((h.published url input.tool r).render (Format.ofPath input.data)) :=
      read_conclude_of_save hkeeps hseparate hsave
    refine ⟨_, History.load_published hload hr (hdepth.resolve_left hnew) hread, ?_⟩
    rw [hdated] at hzero hwf
    exact .grown hnew hdated hwf (History.runs_plainZeros_published hzeros hzero)

end

end RunInput

end BenchHistory
