import BenchHistory.Proofs.History.Outcome
import BenchHistory.Proofs.Run.Same

/-!
# Recognising a second attempt

A run that comes in without a date of its own is a second attempt if it repeats the latest run of
its tool (`Run.Repeats`) soon enough (`History.retried?_eq_some_iff`).
-/

namespace BenchHistory

namespace Run

/-- The first run measured the same commit as the second, and has the same samples. -/
structure Repeats (last r : Run) : Prop where
  id : last.commit.id = r.commit.id
  length : last.benches.length = r.benches.length
  samples : ∀ p ∈ last.benches.zip r.benches, p.1.same p.2 = true

theorem Repeats.date {last r : Run} (h : last.Repeats r) (date : ℤ) :
    last.Repeats { r with date := date } :=
  ⟨h.id, h.length, h.samples⟩

theorem Valid.repeats_self {r : Run} (hr : r.Valid) : r.Repeats r where
  id := rfl
  length := rfl
  samples := by
    rintro ⟨s, t⟩ hmem
    obtain ⟨i, hi⟩ := List.mem_iff_getElem?.1 hmem
    obtain ⟨hs, ht⟩ := List.getElem?_zip_eq_some.1 hi
    obtain rfl : s = t := Option.some.inj (hs.symm.trans ht)
    exact (hr.benches s (List.mem_of_getElem? hs)).same_self

end Run

namespace History

variable {h : History} {tool : String} {r last : Run} {windowMs : ℤ}

/-- A run is a second attempt if the latest run is repeated, no later than the window allows. -/
theorem retried?_eq_some_iff :
    h.retried? tool r windowMs = some last ↔
      (h.runs tool).getLast? = some last ∧ last.Repeats r ∧
        0 ≤ r.date - last.date ∧ r.date - last.date ≤ windowMs := by
  unfold retried?
  simp only [Option.filter_eq_some_iff, Bool.and_eq_true, beq_iff_eq, List.all_eq_true,
    decide_eq_true_eq]
  constructor
  · rintro ⟨hlast, ⟨⟨hid, hlength⟩, hsamples⟩, hwindow⟩
    exact ⟨hlast, ⟨hid, hlength, hsamples⟩, hwindow⟩
  · rintro ⟨hlast, ⟨hid, hlength, hsamples⟩, hwindow⟩
    exact ⟨hlast, ⟨⟨hid, hlength⟩, hsamples⟩, hwindow⟩

theorem append_of_published (hp : r.problems tool = []) (hpublished : h.Published tool r) :
    ∃ i, h.append tool r = .ok (.duplicate i, h) := by
  obtain ⟨i, hi⟩ := exists_position?_iff.2 hpublished
  exact ⟨i, append_of_position hp hi⟩

theorem problems_of_append {a : Appended} {h' : History}
    (happend : h.append tool r = .ok (a, h')) : r.problems tool = [] := by
  by_contra hp
  rw [append_of_problems hp] at happend
  cases happend

end History

end BenchHistory
