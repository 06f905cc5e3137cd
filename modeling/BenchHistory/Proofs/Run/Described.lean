import BenchHistory.Proofs.Run.Carried
import BenchHistory.Proofs.Run.Harness
import BenchHistory.Proofs.Run.Same

/-!
# What the problems are about

The problems that are told when a run is refused are true of what was handed over (`Describes`), but
for three that are about the run as a whole: these are true of the parts of it that could be read
(`DescribesRead`), and so of what was handed over if all its parts could be read
(`describes_of_refused`).
-/

namespace BenchHistory

open Decode

/-- The id of a commit that was read is the one that is written. -/
theorem Commit.id_of_decode {j : Json} (hj : j.Valid) {c : Commit}
    (h : Commit.decode j.toDraft = .ok c) {s : String} (hs : j.get? "id" = some (.string s)) :
    c.id = s := by
  obtain ⟨ms, ns, hms, hns, hnames, -, hfields⟩ :=
    Commit.carries_decode (hj.fits_toDraft le_rfl) h
  have hwritten : ("id", .string c.id) ∈ ns := by
    rw [Commit.toJson_eq, Json.object.injEq] at hns
    rw [← hns]
    exact List.mem_append_left _ (by simp [Commit.own])
  have hread : ("id", .string s) ∈ ms := by
    cases j with
    | object js =>
      rw [Json.toDraft, Json.membersToDraft_eq, Draft.object.injEq] at hms
      rw [← hms]
      exact List.mem_map.2 ⟨_, Keyed.mem_of_get? hs, rfl⟩
    | _ => cases hs
  obtain hnull | ⟨v, hv, hplain⟩ := hfields _ hread Carry.plain rfl
  · cases hnull
  · cases hplain
    -- a name is written once
    have heq : Json.string c.id = .string s :=
      Option.some_inj.1 ((Keyed.get?_of_mem hnames hwritten).symm.trans
        (Keyed.get?_of_mem hnames hv))
    exact Json.string.inj heq

namespace Ingest

/-! ## What is handed over -/

/-- What a job hands over: the output of a harness with the commit, or a complete run. -/
inductive Handed where
  | harness (commit : Commit) (output : Json)
  | run (document : Json)

namespace Handed

/-- A run from what is handed over. -/
def ingest (tool : String) (date : ℤ) : Handed → Except (List Problem) Run
  | .harness commit output => ofHarness tool date commit output
  | .run document => ofRun tool date document

/-- The JSON value in it is valid. -/
def Valid : Handed → Prop
  | .harness _ output => output.Valid
  | .run document => document.Valid

/-- What stands where the samples should be. -/
def list? : Handed → Option Json
  | .harness _ output => some output
  | .run document => document.get? "benches"

def path : Handed → String
  | .harness _ _ => "output"
  | .run _ => "benches"

/-- The elements of the list of samples. -/
def elements (h : Handed) : List Json :=
  match h.list? with
  | some (.array js) => js
  | _ => []

/-- What stands where the commit of a complete run should be. -/
def commit? : Handed → Option Json
  | .harness _ _ => none
  | .run document => document.get? "commit"

def id? : Handed → Option String
  | .harness commit _ => some commit.id
  | .run document => text? ((document.get? "commit").bind fun j => j.get? "id")

end Handed

/-- The element at a place tells the given metric, as an earlier one does. -/
def Repeats (js : List Json) (i : ℕ) (name : String) (extra : Option String) : Prop :=
  (js.map metricOf)[i]? = some (metricMembers (name, extra)) ∧
    ∃ k < i, (js.map metricOf)[k]? = some (metricMembers (name, extra))

/-- What a problem says is true of what was handed over to be stored under a tool. -/
inductive Describes (tool : String) (h : Handed) : Problem → Prop
  | toolEmpty (hblank : Text.allBlank tool = true) : Describes tool h .toolEmpty
  | toolMismatch {j : Json} {found : String} (hrun : h = .run j)
    (hfound : j.get? "tool" = some (.string found)) (hne : found ≠ tool) :
    Describes tool h (.toolMismatch found tool)
  | toolInvalid {j found : Json} (hrun : h = .run j) (hfound : j.get? "tool" = some found)
    (hstring : ∀ s, found ≠ .string s) : Describes tool h (.toolInvalid found.compact)
  | notAnObject {j : Json} (hrun : h = .run j) (hobject : ∀ ms, j ≠ .object ms) :
    Describes tool h .notAnObject
  | dateInvalid {j found : Json} (hrun : h = .run j) (hfound : j.get? "date" = some found)
    (hdate : ∀ n : ℤ, 0 < n → n < 2 ^ 63 → found ≠ .int n) :
    Describes tool h (.dateInvalid found.compact)
  | commitMissing {j : Json} (hrun : h = .run j) (hmissing : j.get? "commit" = none) :
    Describes tool h .commitMissing
  | commitInvalid {j : Json} {e : ReadError} (hcommit : h.commit? = some j)
    (herror : Commit.decode j.toDraft = .error e) : Describes tool h (.commitInvalid e)
  | commitIdEmpty (hid : ∀ id, h.id? = some id → Text.allBlank id = true) :
    Describes tool h .commitIdEmpty
  | benchesMissing {j : Json} (hrun : h = .run j) (hmissing : j.get? "benches" = none) :
    Describes tool h .benchesMissing
  | samplesInvalid {j : Json} (hlist : h.list? = some j) (harray : ∀ js, j ≠ .array js) :
    Describes tool h (.samplesInvalid h.path)
  | benchesEmpty (hempty : h.elements = []) : Describes tool h .benchesEmpty
  | element {i : ℕ} {j : Json} {rule : Rule} {p : Problem} (hj : h.elements[i]? = some j)
    (hrule : rule ∈ rules) (hbreach : Breach h.path i j rule p) : Describes tool h p
  | duplicateMetric {i : ℕ} {name : String} {extra : Option String}
    (hrepeats : Repeats h.elements i name extra) :
    Describes tool h (.duplicateMetric i name extra)

/-- What a problem of the whole run says is true of the parts of it that could be read. -/
inductive DescribesRead (h : Handed) : Problem → Prop
  | commitIdEmpty {j : Json} {e : ReadError} (hcommit : h.commit? = some j)
    (herror : Commit.decode j.toDraft = .error e) : DescribesRead h .commitIdEmpty
  | benchesEmpty (hempty : h.elements.filter readable = []) : DescribesRead h .benchesEmpty
  | duplicateMetric {i : ℕ} {name : String} {extra : Option String}
    (hrepeats : Repeats (h.elements.filter readable) i name extra) :
    DescribesRead h (.duplicateMetric i name extra)

variable {tool : String} {h : Handed} {p : Problem}

theorem describes_commitIdEmpty_iff : Describes tool h .commitIdEmpty ↔
    ∀ id, h.id? = some id → Text.allBlank id = true := by
  refine ⟨fun hd => ?_, .commitIdEmpty⟩
  cases hd with
  | commitIdEmpty hid => exact hid
  | element _ _ hbreach => cases hbreach

theorem describes_benchesEmpty_iff : Describes tool h .benchesEmpty ↔ h.elements = [] := by
  refine ⟨fun hd => ?_, .benchesEmpty⟩
  cases hd with
  | benchesEmpty hempty => exact hempty
  | element _ _ hbreach => cases hbreach

theorem describes_duplicateMetric_iff {i : ℕ} {name : String} {extra : Option String} :
    Describes tool h (.duplicateMetric i name extra) ↔ Repeats h.elements i name extra := by
  refine ⟨fun hd => ?_, .duplicateMetric⟩
  cases hd with
  | duplicateMetric hrepeats => exact hrepeats
  | element _ _ hbreach => cases hbreach

theorem DescribesRead.describes (hd : DescribesRead h p)
    (helements : ∀ j ∈ h.elements, readable j = true)
    (hcommit : ∀ j, h.commit? = some j → ∃ c, Commit.decode j.toDraft = .ok c) :
    Describes tool h p := by
  have hall : h.elements.filter readable = h.elements := List.filter_eq_self.2 helements
  cases hd with
  | commitIdEmpty hj herror =>
    obtain ⟨c, hc⟩ := hcommit _ hj
    rw [herror] at hc
    cases hc
  | benchesEmpty hempty => exact .benchesEmpty (hall ▸ hempty)
  | duplicateMetric hrepeats => exact .duplicateMetric (hall ▸ hrepeats)

/-! ## Problems of the elements -/

theorem forall₂_list {l : Json} (hl : h.list? = some l) :
    List.Forall₂ ReadAs (h.elements.filter readable) (samples h.path l).1 := by
  unfold Handed.elements
  rw [hl]
  cases l with
  | array js => exact forall₂_samples
  | _ => exact .nil

theorem describes_of_mem_samples {l : Json} (hl : h.list? = some l)
    (hp : p ∈ (samples h.path l).2) : Describes tool h p := by
  cases l with
  | array js =>
    obtain ⟨i, j, hj, rule, hrule, hbreach⟩ := mem_samples_iff.1 hp
    refine .element ?_ hrule hbreach
    unfold Handed.elements
    rw [hl]
    exact hj
  | _ =>
    rw [List.mem_singleton.1 hp]
    exact .samplesInvalid hl (by simp)

/-! ## Problems of the whole -/

theorem repeats_of_metric_eq {js : List Json} {ss : List Sample}
    (hread : List.Forall₂ ReadAs js ss) {i k : ℕ} {s t : Sample} (hs : ss[i]? = some s)
    (hk : k < i) (ht : ss[k]? = some t) (hmetric : t.metric = s.metric) :
    Repeats js i s.name s.extra := by
  unfold Repeats
  rw [map_metricOf hread]
  simp only [List.getElem?_map, hs, Option.map_some]
  exact ⟨rfl, k, hk, by rw [ht, Option.map_some, Option.map_some, hmetric]; rfl⟩

/-- Which problems a run can have that was made of what could be read. -/
theorem describesRead_of_mem_problems {r : Run} (hvalid : ∀ s ∈ r.benches, s.Valid)
    (hnamed : ∀ s ∈ r.benches, Text.allBlank s.name = false)
    (hread : List.Forall₂ ReadAs (h.elements.filter readable) r.benches)
    (htool : r.tool ≠ "" → r.tool ≠ tool →
      ∃ j, h = .run j ∧ j.get? "tool" = some (.string r.tool))
    (hid : Text.allBlank r.commit.id = true →
      Describes tool h .commitIdEmpty ∨ DescribesRead h .commitIdEmpty)
    (hp : p ∈ r.problems tool) : Describes tool h p ∨ DescribesRead h p := by
  cases Run.mem_problems_iff.1 hp with
  | toolEmpty hblank => exact .inl (.toolEmpty hblank)
  | toolMismatch hne hother =>
    obtain ⟨j, hrun, hfound⟩ := htool hne hother
    exact .inl (.toolMismatch hrun hfound hother)
  | commitIdEmpty hblank => exact hid hblank
  | benchesEmpty hnone =>
    rw [hnone] at hread
    exact .inr (.benchesEmpty (List.forall₂_nil_right_iff.1 hread))
  | nameEmpty hs hblank =>
    rw [hnamed _ (List.mem_of_getElem? hs)] at hblank
    cases hblank
  | nonFiniteValue hs hvalue =>
    rw [(hvalid _ (List.mem_of_getElem? hs)).finite] at hvalue
    cases hvalue
  | duplicateMetric hs hj ht hname hextra =>
    exact .inr (.duplicateMetric
      (repeats_of_metric_eq hread hs hj ht (Prod.ext hname hextra)))

/-! ## Problems of a complete run -/

section

variable {ms : List (String × Json)}

theorem describes_of_mem_commitOf (hp : p ∈ (commitOf ms).2) :
    Describes tool (.run (.object ms)) p := by
  unfold commitOf at hp
  split at hp
  · next hnone =>
    rw [List.mem_singleton.1 hp]
    exact .commitMissing rfl hnone
  · next j hj =>
    split at hp
    · cases hp
    · next e he =>
      rw [List.mem_singleton.1 hp]
      exact .commitInvalid hj he

theorem describes_of_mem_dateOf {date : ℤ} (hp : p ∈ (dateOf date ms).2) :
    Describes tool (.run (.object ms)) p := by
  unfold dateOf at hp
  split at hp
  · cases hp
  · next n hn =>
    split at hp
    · cases hp
    · next hrange =>
      rw [List.mem_singleton.1 hp]
      refine .dateInvalid rfl hn fun m hlow hhigh heq => ?_
      cases heq
      exact hrange ⟨hlow, hhigh⟩
  · next j hwhole hj =>
    rw [List.mem_singleton.1 hp]
    exact .dateInvalid rfl hj fun n _ _ heq => hwhole n heq

theorem describes_of_mem_toolOf {default : String} (hp : p ∈ (toolOf default ms).2) :
    Describes tool (.run (.object ms)) p := by
  unfold toolOf at hp
  split at hp
  · cases hp
  · cases hp
  · next j hstring hj =>
    rw [List.mem_singleton.1 hp]
    exact .toolInvalid rfl hj hstring

theorem describes_of_mem_benchesOf (hp : p ∈ (benchesOf ms).2) :
    Describes tool (.run (.object ms)) p := by
  unfold benchesOf at hp
  split at hp
  · next hnone =>
    rw [List.mem_singleton.1 hp]
    exact .benchesMissing rfl hnone
  · next j hj => exact describes_of_mem_samples (h := .run (.object ms)) hj hp

theorem forall₂_benchesOf (ms : List (String × Json)) :
    List.Forall₂ ReadAs ((Handed.run (.object ms)).elements.filter readable) (benchesOf ms).1 := by
  unfold benchesOf
  split
  · next hnone =>
    have hlist : (Handed.run (.object ms)).list? = none := hnone
    rw [Handed.elements, hlist]
    exact .nil
  · next j hj => exact forall₂_list (h := .run (.object ms)) hj

theorem named_of_mem_benchesOf {s : Sample} (hs : s ∈ (benchesOf ms).1) :
    Text.allBlank s.name = false := by
  unfold benchesOf at hs
  split at hs
  · cases hs
  · exact named_of_mem_samples hs

theorem get?_of_toolOf (hempty : (toolOf tool ms).1 ≠ "") (hother : (toolOf tool ms).1 ≠ tool) :
    Keyed.get? "tool" ms = some (.string (toolOf tool ms).1) := by
  revert hempty hother
  unfold toolOf
  split
  · exact fun _ hother => absurd rfl hother
  · next s hs => exact fun _ _ => hs
  · exact fun hempty => absurd rfl hempty

theorem describesRead_of_commitOf (hms : ∀ e ∈ ms, e.2.Valid)
    (hblank : Text.allBlank (commitOf ms).1.id = true) :
    Describes tool (.run (.object ms)) .commitIdEmpty ∨
      DescribesRead (.run (.object ms)) .commitIdEmpty := by
  unfold commitOf at hblank
  split at hblank
  · next hnone =>
    refine .inl (.commitIdEmpty fun id hid => ?_)
    have hcommit : (Json.object ms).get? "commit" = none := hnone
    rw [Handed.id?, hcommit] at hid
    cases hid
  · next j hj =>
    split at hblank
    · next c hc =>
      refine .inl (.commitIdEmpty fun id hid => ?_)
      have hcommit : (Json.object ms).get? "commit" = some j := hj
      rw [Handed.id?, hcommit] at hid
      have hsame : c.id = id :=
        Commit.id_of_decode (hms _ (Keyed.mem_of_get? hj)) hc (text?_eq_some_iff.1 hid)
      rwa [hsame] at hblank
    · next e he => exact .inr (.commitIdEmpty hj he)

end

/-! ## All problems -/

theorem describesRead_of_ofHarness {date : ℤ} {commit : Commit} {output : Json}
    (houtput : output.Valid) {ps : List Problem}
    (hps : ofHarness tool date commit output = .error ps) (hp : p ∈ ps) :
    Describes tool (.harness commit output) p ∨ DescribesRead (.harness commit output) p := by
  have hcommit : Text.allBlank commit.id = true →
      Describes tool (.harness commit output) .commitIdEmpty := by
    refine fun hblank => .commitIdEmpty fun id hid => ?_
    cases hid
    exact hblank
  rw [ofHarness_eq] at hps
  obtain hfound | hwhole := (mem_of_finish_error hps).1 hp
  · obtain hid | hsamples := List.mem_append.1 hfound
    · obtain ⟨hblank, rfl⟩ := mem_listIf.1 hid
      exact .inl (hcommit hblank)
    · exact .inl (describes_of_mem_samples (h := .harness commit output) rfl hsamples)
  · exact describesRead_of_mem_problems (valid_of_mem_samples houtput)
      (fun s hs => named_of_mem_samples hs) (forall₂_list (h := .harness commit output) rfl)
      (fun _ hne => absurd rfl hne) (fun hblank => .inl (hcommit hblank)) hwhole

theorem describesRead_of_ofRun {date : ℤ} {j : Json} (hj : j.Valid) {ps : List Problem}
    (hps : ofRun tool date j = .error ps) (hp : p ∈ ps) :
    Describes tool (.run j) p ∨ DescribesRead (.run j) p := by
  cases hj with
  | @object ms hnames hvalues =>
    rw [ofRun_object] at hps
    obtain hfound | hwhole := (mem_of_finish_error hps).1 hp
    · simp only [List.mem_append] at hfound
      obtain ((hcommit | hdate) | htool) | hsamples := hfound
      · exact .inl (describes_of_mem_commitOf hcommit)
      · exact .inl (describes_of_mem_dateOf hdate)
      · exact .inl (describes_of_mem_toolOf htool)
      · exact .inl (describes_of_mem_benchesOf hsamples)
    · refine describesRead_of_mem_problems (valid_of_mem_benchesOf hvalues)
        (fun s hs => named_of_mem_benchesOf hs) (forall₂_benchesOf ms) ?_
        (describesRead_of_commitOf hvalues) hwhole
      exact fun hempty hother => ⟨.object ms, rfl, get?_of_toolOf hempty hother⟩
  | _ =>
    cases hps
    rw [List.mem_singleton.1 hp]
    exact .inl (.notAnObject rfl (by simp))

/--
If what was handed over is refused then every problem that is told is true of it, or is one of the
whole run that is true of the parts that could be read. If all could be read then every problem is
true of what was handed over.
-/
theorem describes_of_refused {tool : String} {date : ℤ} {h : Handed} (hvalid : h.Valid)
    {ps : List Problem} (hps : h.ingest tool date = .error ps) :
    (∀ p ∈ ps, Describes tool h p ∨ DescribesRead h p) ∧
      ((∀ j ∈ h.elements, readable j = true) →
        (∀ j, h.commit? = some j → ∃ c, Commit.decode j.toDraft = .ok c) →
          ∀ p ∈ ps, Describes tool h p) := by
  have htold : ∀ p ∈ ps, Describes tool h p ∨ DescribesRead h p := by
    cases h with
    | harness commit output => exact fun p hp => describesRead_of_ofHarness hvalid hps hp
    | run document => exact fun p hp => describesRead_of_ofRun hvalid hps hp
  exact ⟨htold, fun helements hcommit p hp =>
    (htold p hp).elim id fun hd => hd.describes helements hcommit⟩

/-- Two elements that are read, of which the second one repeats the metric of the first one. -/
theorem describes_of_refused_repeated :
    let measured (n : ℤ) := Json.object [("name", .string "c"), ("value", .int n)]
    let h := Handed.harness (.ofId "abc" "") (.array [measured 3, measured 4])
    h.Valid ∧ h.ingest "t" 1 = .error [.duplicateMetric 1 "c" none] ∧
      (∀ j ∈ h.elements, readable j = true) ∧ Describes "t" h (.duplicateMetric 1 "c" none) := by
  intro measured h
  have hmeasured (n : ℤ) (hlow : -2 ^ 63 ≤ n) (hhigh : n < 2 ^ 64) : (measured n).Valid := by
    refine .object (by simp [Keyed.keys]) ?_
    simp only [List.forall_mem_cons]
    exact ⟨.string "c", .number ⟨hlow, hhigh⟩, by simp⟩
  have hvalid : h.Valid := by
    refine .array ?_
    simp only [List.forall_mem_cons]
    exact ⟨hmeasured 3 (by decide) (by decide), hmeasured 4 (by decide) (by decide), by simp⟩
  have hrefused : h.ingest "t" 1 = .error [.duplicateMetric 1 "c" none] := rfl
  have hreadable : ∀ j ∈ h.elements, readable j = true := by decide
  refine ⟨hvalid, hrefused, hreadable, ?_⟩
  exact (describes_of_refused hvalid hrefused).2 hreadable (fun j hj => by cases hj) _
    (List.mem_singleton_self _)

/--
An element that cannot be read moves the places of those behind it, and a list of such elements
counts as empty; a commit that cannot be read counts as one without an id.
-/
theorem not_describes_of_unreadable :
    let measured (n : ℤ) := Json.object [("name", .string "c"), ("value", .int n)]
    let unreadable := Json.object [("name", .string "a"), ("value", .string "fast")]
    let commit := Json.object [("id", .string "abc"), ("distinct", .int 5)]
    let moved := Handed.harness (.ofId "abc" "") (.array [unreadable, measured 3, measured 4])
    let emptied := Handed.run (.object [("commit", commit), ("benches", .array [unreadable])])
    (moved.ingest "t" 1 = .error [.valueMissing "output" 0 "a", .duplicateMetric 1 "c" none] ∧
      ¬ Describes "t" moved (.duplicateMetric 1 "c" none)) ∧
    emptied.ingest "t" 1 = .error [.commitInvalid (.invalidType (.integer 5) "a boolean"),
      .valueMissing "benches" 0 "a", .commitIdEmpty, .benchesEmpty] ∧
      ¬ Describes "t" emptied .commitIdEmpty ∧ ¬ Describes "t" emptied .benchesEmpty := by
  intro measured unreadable commit moved emptied
  rw [describes_commitIdEmpty_iff, describes_benchesEmpty_iff, describes_duplicateMetric_iff]
  refine ⟨⟨rfl, ?_⟩, rfl, fun hid => ?_, fun hempty => ?_⟩
  · rintro ⟨-, k, hk, hsame⟩
    obtain rfl : k = 0 := by omega
    simp [moved, unreadable, Handed.elements, Handed.list?, metricOf, metricMembers, Json.get?,
      Keyed.get?] at hsame
  · cases hid "abc" rfl
  · cases hempty

end Ingest

end BenchHistory
