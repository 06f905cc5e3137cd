import BenchHistory.Proofs.Json.Reading
import BenchHistory.Proofs.Run.RoundTrip
import BenchHistory.Run.Ingest

/-!
# Runs taken in

A run that was taken in from valid values is of the kind that is read back, whichever way it
came (`valid_of_ofRun`, `valid_of_ofHarness`).
-/

namespace BenchHistory

open Decode

theorem Number.isFinite_toFloat {n : Number} (hn : n.InRange) : n.toFloat.isFinite = true := by
  cases n with
  | whole k =>
    have hrange : -2 ^ 63 ≤ k ∧ k < 2 ^ 64 := hn
    exact isFinite_ofInt (by omega)
  | real x => exact hn

theorem Commit.valid_ofId (id message : String) : (Commit.ofId id message).Valid where
  author := by rintro i ⟨⟩
  committer := by rintro i ⟨⟩
  other := kept_nil _

theorem Commit.valid_of_read {c : Commit}
    (hc : (∃ text, Decode.read Commit.decode text = .ok c) ∨
      ∃ j : Json, j.Valid ∧ Commit.decode j.toDraft = .ok c) : c.Valid := by
  obtain ⟨text, hread⟩ | ⟨j, hj, hdecode⟩ := hc
  · exact (Commit.valid_of_decode (Json.fits_draft text) (decode_of_read hread)).1
  · exact (Commit.valid_of_decode (hj.fits_toDraft (le_refl _)) hdecode).1

namespace Ingest

/-! ## Parts of a run -/

theorem isFinite_valueOf {ms : List (String × Json)} (hms : ∀ e ∈ ms, e.2.Valid) (path : String)
    (index : ℕ) (name : String) : (valueOf ms path index name).1.isFinite = true := by
  unfold valueOf
  split
  · next n hn =>
    cases hms _ (Keyed.mem_of_get? hn) with
    | number hrange => exact Number.isFinite_toFloat hrange
  · exact isFinite_ofNat (Nat.zero_le _)

theorem kept_sampleFields {other : Keyed Json} (h : Kept sampleFields other) :
    Kept Sample.fields other where
  names_nodup := h.names_nodup
  unknown k hk := by
    have hnot := h.unknown k hk
    simp only [sampleFields, Sample.fields, List.mem_cons, List.not_mem_nil, or_false, not_or]
      at hnot ⊢
    obtain ⟨hname, hvalue, hunit, hrange, hextra⟩ := hnot
    exact ⟨hname, hvalue, hrange, hunit, hextra⟩
  valid := h.valid

theorem valid_of_sample {path : String} {index : ℕ} {j : Json} (hj : j.Valid) {s : Sample}
    (h : (sample path index j).1 = some s) : s.Valid := by
  cases hj with
  | @object ms hnames hvalues =>
    unfold sample at h
    simp only at h
    split at h
    · cases h
      exact ⟨isFinite_valueOf hvalues path index _,
        kept_sampleFields (kept_filter hnames hvalues)⟩
    · cases h
  | _ => cases h

theorem valid_of_mem_samplesFrom {path : String} {index : ℕ} {js : List Json}
    (hjs : ∀ j ∈ js, j.Valid) : ∀ s ∈ (samplesFrom path index js).1, s.Valid := by
  induction js generalizing index with
  | nil => rintro s ⟨⟩
  | cons j js ih =>
    intro s hs
    unfold samplesFrom at hs
    obtain hfirst | hmore := List.mem_append.1 hs
    · exact valid_of_sample (hjs j List.mem_cons_self) (Option.mem_toList.1 hfirst)
    · exact ih (fun j' hj' => hjs j' (List.mem_cons_of_mem j hj')) s hmore

theorem valid_of_mem_samples {path : String} {j : Json} (hj : j.Valid) :
    ∀ s ∈ (samples path j).1, s.Valid := by
  cases hj with
  | array hitems => exact valid_of_mem_samplesFrom hitems
  | _ => rintro s ⟨⟩

theorem valid_of_mem_benchesOf {ms : List (String × Json)} (hms : ∀ e ∈ ms, e.2.Valid) :
    ∀ s ∈ (benchesOf ms).1, s.Valid := by
  unfold benchesOf
  split
  · rintro s ⟨⟩
  · next j hj => exact valid_of_mem_samples (hms _ (Keyed.mem_of_get? hj))

theorem valid_commitOf {ms : List (String × Json)} (hms : ∀ e ∈ ms, e.2.Valid) :
    (commitOf ms).1.Valid := by
  unfold commitOf
  split
  · exact Commit.valid_ofId "" ""
  · next j hj =>
    split
    · next c hc =>
      have hfits := (hms _ (Keyed.mem_of_get? hj)).fits_toDraft (le_refl _)
      exact (Commit.valid_of_decode hfits hc).1
    · exact Commit.valid_ofId "" ""

theorem dateOf_range {default : ℤ} (hlow : -2 ^ 63 ≤ default) (hhigh : default < 2 ^ 63)
    (ms : List (String × Json)) :
    -2 ^ 63 ≤ (dateOf default ms).1 ∧ (dateOf default ms).1 < 2 ^ 63 := by
  unfold dateOf
  split
  · exact ⟨hlow, hhigh⟩
  · split
    · next hrange => exact ⟨by omega, hrange.2⟩
    · exact ⟨by omega, by omega⟩
  · exact ⟨by omega, by omega⟩

/-! ## Whole runs -/

theorem eq_of_finish {tool : String} {r r' : Run} {found : List Problem}
    (h : finish tool r found = .ok r') : r' = r := by
  unfold finish at h
  split at h
  · cases h
    rfl
  · cases h

theorem valid_of_ofRun {tool : String} {date : ℤ} {j : Json} {r : Run} (hlow : -2 ^ 63 ≤ date)
    (hhigh : date < 2 ^ 63) (hj : j.Valid) (h : ofRun tool date j = .ok r) : r.Valid := by
  cases hj with
  | @object ms hnames hvalues =>
    obtain ⟨hlow, hhigh⟩ := dateOf_range hlow hhigh ms
    have hr := eq_of_finish h
    rw [hr]
    exact ⟨valid_commitOf hvalues, hlow, hhigh, valid_of_mem_benchesOf hvalues,
      kept_filter hnames hvalues⟩
  | _ => cases h

theorem valid_of_ofHarness {tool : String} {date : ℤ} {c : Commit} {output : Json} {r : Run}
    (hlow : -2 ^ 63 ≤ date) (hhigh : date < 2 ^ 63) (hc : c.Valid) (houtput : output.Valid)
    (h : ofHarness tool date c output = .ok r) : r.Valid := by
  have hr := eq_of_finish h
  rw [hr]
  exact ⟨hc, hlow, hhigh, valid_of_mem_samples houtput, kept_nil _⟩

/-! ## Dates -/

/-- Where the date of a run comes from: it brings a positive one, or it has the default one. -/
inductive Dated (default : ℤ) : Option Json → ℤ → Prop
  | own {date : ℤ} (hpos : 0 < date) (hlt : date < 2 ^ 63) : Dated default (some (.int date)) date
  | default : Dated default none default

theorem dated_dateOf {default : ℤ} {ms : List (String × Json)} (h : (dateOf default ms).2 = []) :
    Dated default (Keyed.get? "date" ms) (dateOf default ms).1 := by
  unfold dateOf at h ⊢
  generalize Keyed.get? "date" ms = own at h ⊢
  split at h
  · exact .default
  · next n =>
    by_cases hrange : 0 < n ∧ n < 0x8000000000000000
    · simp only [if_pos hrange]
      exact .own hrange.1 hrange.2
    · rw [if_neg hrange] at h
      cases h
  · cases h

namespace Dated

variable {default date : ℤ} {own : Option Json}

theorem pos_or (h : Dated default own date) : 0 < date ∨ own = none ∧ date = default := by
  cases h with
  | own hpos => exact .inl hpos
  | default => exact .inr ⟨rfl, rfl⟩

theorem pos_iff (h : Dated default own date) : 0 < date ↔ own.isSome ∨ 0 < default := by
  cases h with
  | own hpos => simp [hpos]
  | default => simp

theorem eq_default_iff (h : Dated default own date) :
    date = default ↔ ∀ j ∈ own, j = .int default := by
  cases h with
  | own => simp [Json.int]
  | default => simp

end Dated

/-! ## Another date -/

theorem finish_date {tool : String} {r r' : Run} {found : List Problem}
    (h : finish tool r found = .ok r') (date : ℤ) :
    finish tool { r with date := date } found = .ok { r' with date := date } := by
  have hproblems : ({ r with date := date } : Run).problems tool = r.problems tool := rfl
  unfold finish at h ⊢
  rw [hproblems]
  split at h
  · cases h
    rfl
  · cases h

theorem ofHarness_date {tool : String} {date : ℤ} {c : Commit} {output : Json} {r : Run}
    (h : ofHarness tool date c output = .ok r) (date' : ℤ) :
    ofHarness tool date' c output = .ok { r with date := date' } :=
  finish_date h date'

theorem dateOf_problems (default default' : ℤ) (ms : List (String × Json)) :
    (dateOf default ms).2 = (dateOf default' ms).2 := by
  unfold dateOf
  split <;> rfl

theorem ofRun_object (tool : String) (date : ℤ) (ms : List (String × Json)) :
    ofRun tool date (.object ms) =
      finish tool ⟨(commitOf ms).1, (dateOf date ms).1, (toolOf tool ms).1, (benchesOf ms).1,
        others runFields ms⟩
        ((commitOf ms).2 ++ (dateOf date ms).2 ++ (toolOf tool ms).2 ++ (benchesOf ms).2) := rfl

theorem ofRun_date {tool : String} {date : ℤ} {j : Json} {r : Run}
    (h : ofRun tool date j = .ok r) (date' : ℤ) :
    ∃ d, ofRun tool date' j = .ok { r with date := d } := by
  cases j with
  | object ms =>
    rw [ofRun_object, dateOf_problems date date' ms] at h
    exact ⟨(dateOf date' ms).1, finish_date h _⟩
  | _ => cases h

end Ingest

/--
A run that was taken in: a complete run, or the output of a harness with a commit that was read
from a text or from a value.
-/
inductive Ingested : Run → Prop
  | run {tool : String} {date : ℤ} {j : Json} {r : Run} (hlow : -2 ^ 63 ≤ date)
      (hhigh : date < 2 ^ 63) (hj : j.Valid) (h : Ingest.ofRun tool date j = .ok r) : Ingested r
  | harness {tool : String} {date : ℤ} {c : Commit} {output : Json} {r : Run}
      (hlow : -2 ^ 63 ≤ date) (hhigh : date < 2 ^ 63)
      (hcommit : (∃ text, Decode.read Commit.decode text = .ok c) ∨
        ∃ j : Json, j.Valid ∧ Commit.decode j.toDraft = .ok c)
      (houtput : output.Valid) (h : Ingest.ofHarness tool date c output = .ok r) : Ingested r

theorem Ingested.valid {r : Run} (hr : Ingested r) : r.Valid := by
  cases hr with
  | run hlow hhigh hj h => exact Ingest.valid_of_ofRun hlow hhigh hj h
  | harness hlow hhigh hcommit houtput h =>
    exact Ingest.valid_of_ofHarness hlow hhigh (Commit.valid_of_read hcommit) houtput h

end BenchHistory
