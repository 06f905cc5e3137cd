import BenchHistory.Proofs.Run.Problems
import BenchHistory.Run.Ingest
import Mathlib.Algebra.Order.Ring.Nat

/-!
# The violations of a run

A run is checked in one pass that remembers which metrics it has seen. What the pass finds can be
said without it (`Violation`): a sample repeats another one if that has the same name and label and
stands before it. The problems of a run are just its violations, each told once, first those of the
run as a whole and then sample by sample (`Run.problems_eq_iff`).
-/

namespace BenchHistory

/--
The turn at which a problem of a run is told: one for each of those of the run as a whole, and then
three for each sample. What was met in reading the run comes before.
-/
def Problem.turn : Problem → ℕ
  | .toolEmpty => 1
  | .toolMismatch _ _ => 2
  | .commitIdEmpty => 3
  | .benchesEmpty => 4
  | .nameEmpty _ i => 5 + 3 * i
  | .nonFiniteValue i _ _ => 6 + 3 * i
  | .duplicateMetric i _ _ => 7 + 3 * i
  | _ => 0

/-- What is wrong with a run that is to be stored under a tool, with the problem that tells it. -/
inductive Violation (tool : String) (r : Run) : Problem → Prop
  | toolEmpty (hblank : Text.allBlank tool = true) : Violation tool r .toolEmpty
  | toolMismatch (hnamed : r.tool ≠ "") (hother : r.tool ≠ tool) :
    Violation tool r (.toolMismatch r.tool tool)
  | commitIdEmpty (hblank : Text.allBlank r.commit.id = true) : Violation tool r .commitIdEmpty
  | benchesEmpty (hempty : r.benches = []) : Violation tool r .benchesEmpty
  | nameEmpty {i : ℕ} {s : Sample} (hs : r.benches[i]? = some s)
    (hblank : Text.allBlank s.name = true) : Violation tool r (.nameEmpty "benches" i)
  | nonFiniteValue {i : ℕ} {s : Sample} (hs : r.benches[i]? = some s)
    (hvalue : s.value.isFinite = false) : Violation tool r (.nonFiniteValue i s.name s.value)
  | duplicateMetric {i j : ℕ} {s t : Sample} (hs : r.benches[i]? = some s) (hj : j < i)
    (ht : r.benches[j]? = some t) (hname : t.name = s.name) (hextra : t.extra = s.extra) :
    Violation tool r (.duplicateMetric i s.name s.extra)

/-! ## Samples, one after the other -/

namespace Sample

variable {index : ℕ} {seen : List (String × Option String)} {s : Sample} {ss : List Sample}
  {p : Problem}

theorem turn_of_mem_problems (hp : p ∈ s.problems index seen) :
    5 + 3 * index ≤ p.turn ∧ p.turn ≤ 7 + 3 * index := by
  unfold problems at hp
  simp only [List.mem_append, mem_listIf] at hp
  obtain (⟨-, rfl⟩ | ⟨-, rfl⟩) | ⟨-, rfl⟩ := hp <;> simp only [Problem.turn] <;> omega

theorem pairwise_turn_problems (index : ℕ) (seen : List (String × Option String)) (s : Sample) :
    (s.problems index seen).Pairwise fun p q => p.turn < q.turn := by
  unfold problems listIf
  split_ifs <;> simp [Problem.turn]

/-- Each sample is looked at after those that stand before it. -/
theorem mem_problemsFrom_iff : p ∈ problemsFrom index seen ss ↔
    ∃ (i : ℕ) (s : Sample), ss[i]? = some s ∧
      p ∈ s.problems (index + i) (((ss.take i).map metric).reverse ++ seen) := by
  induction ss generalizing index seen with
  | nil => simp [problemsFrom]
  | cons first rest ih =>
    unfold problemsFrom
    rw [List.mem_append, ih]
    -- the pass has seen the first sample when it comes to the others
    have hseen (i : ℕ) : ((rest.take i).map metric).reverse ++ first.metric :: seen =
        (((first :: rest).take (i + 1)).map metric).reverse ++ seen := by
      rw [List.take_succ_cons, List.map_cons, List.reverse_cons, List.append_assoc,
        List.singleton_append]
    have hplace (i : ℕ) : index + 1 + i = index + (i + 1) := by omega
    simp only [hseen, hplace]
    constructor
    · rintro (hp | ⟨i, s, hs, hp⟩)
      · exact ⟨0, first, rfl, hp⟩
      · exact ⟨i + 1, s, hs, hp⟩
    · rintro ⟨i, s, hs, hp⟩
      cases i with
      | zero =>
        obtain rfl : first = s := Option.some_inj.1 hs
        exact .inl hp
      | succ i => exact .inr ⟨i, s, hs, hp⟩

theorem pairwise_turn_problemsFrom (index : ℕ) (seen : List (String × Option String))
    (ss : List Sample) : (problemsFrom index seen ss).Pairwise fun p q => p.turn < q.turn := by
  induction ss generalizing index seen with
  | nil => exact .nil
  | cons first rest ih =>
    unfold problemsFrom
    refine List.pairwise_append.2 ⟨pairwise_turn_problems index seen first, ih _ _, ?_⟩
    intro p hp q hq
    obtain ⟨i, s, -, hq⟩ := mem_problemsFrom_iff.1 hq
    have hle := (turn_of_mem_problems hp).2
    have hge := (turn_of_mem_problems hq).1
    omega

theorem mem_metrics_take_iff {m : String × Option String} {i : ℕ} :
    m ∈ (ss.take i).map metric ↔
      ∃ (j : ℕ) (t : Sample), j < i ∧ ss[j]? = some t ∧ t.metric = m := by
  rw [List.mem_map]
  constructor
  · rintro ⟨t, ht, hm⟩
    obtain ⟨j, hj⟩ := List.mem_iff_getElem?.1 ht
    rw [List.getElem?_take] at hj
    split at hj
    · next hlt => exact ⟨j, t, hlt, hj, hm⟩
    · cases hj
  · rintro ⟨j, t, hlt, hj, hm⟩
    refine ⟨t, List.mem_iff_getElem?.2 ⟨j, ?_⟩, hm⟩
    rw [List.getElem?_take_of_lt hlt, hj]

end Sample

/-! ## The run -/

namespace Run

variable {tool : String} {r : Run} {p : Problem}

theorem violation_of_mem_problemsFrom (hp : p ∈ Sample.problemsFrom 0 [] r.benches) :
    Violation tool r p := by
  obtain ⟨i, s, hs, hp⟩ := Sample.mem_problemsFrom_iff.1 hp
  rw [Nat.zero_add, List.append_nil] at hp
  unfold Sample.problems at hp
  simp only [List.mem_append, mem_listIf, List.mem_reverse, Sample.mem_metrics_take_iff] at hp
  obtain (⟨hblank, rfl⟩ | ⟨hvalue, rfl⟩) | ⟨⟨j, t, hj, ht, hmetric⟩, rfl⟩ := hp
  · exact .nameEmpty hs hblank
  · exact .nonFiniteValue hs hvalue
  · obtain ⟨hname, hextra⟩ := Prod.mk.inj hmetric
    exact .duplicateMetric hs hj ht hname hextra

theorem mem_problems_of_sample {i : ℕ} {s : Sample} (hs : r.benches[i]? = some s)
    (hp : p ∈ s.problems i ((r.benches.take i).map Sample.metric).reverse) :
    p ∈ r.problems tool := by
  refine List.mem_append_right _ (Sample.mem_problemsFrom_iff.2 ⟨i, s, hs, ?_⟩)
  rwa [Nat.zero_add, List.append_nil]

/-- What is told of a run is what is wrong with it. -/
theorem mem_problems_iff : p ∈ r.problems tool ↔ Violation tool r p := by
  constructor
  · intro hp
    unfold problems at hp
    rw [List.mem_append] at hp
    obtain hwhole | hsamples := hp
    · simp only [List.mem_append, mem_listIf] at hwhole
      obtain ((⟨hblank, rfl⟩ | ⟨⟨hnamed, hother⟩, rfl⟩) | ⟨hblank, rfl⟩) | ⟨hempty, rfl⟩ := hwhole
      · exact .toolEmpty hblank
      · exact .toolMismatch hnamed hother
      · exact .commitIdEmpty hblank
      · exact .benchesEmpty hempty
    · exact violation_of_mem_problemsFrom hsamples
  · intro hp
    cases hp with
    | toolEmpty hblank => simp [problems, mem_listIf, hblank]
    | toolMismatch hnamed hother => simp [problems, mem_listIf, hnamed, hother]
    | commitIdEmpty hblank => simp [problems, mem_listIf, hblank]
    | benchesEmpty hempty => simp [problems, mem_listIf, hempty]
    | nameEmpty hs hblank =>
      exact mem_problems_of_sample hs (by simp [Sample.problems, mem_listIf, hblank])
    | nonFiniteValue hs hvalue =>
      exact mem_problems_of_sample hs (by simp [Sample.problems, mem_listIf, hvalue])
    | @duplicateMetric i j s t hs hj ht hname hextra =>
      have hseen : s.metric ∈ ((r.benches.take i).map Sample.metric).reverse := by
        rw [List.mem_reverse, Sample.mem_metrics_take_iff]
        exact ⟨j, t, hj, ht, Prod.ext hname hextra⟩
      exact mem_problems_of_sample hs (List.mem_append_right _ (mem_listIf.2 ⟨hseen, rfl⟩))

theorem pairwise_turn_problems (tool : String) (r : Run) :
    (r.problems tool).Pairwise fun p q => p.turn < q.turn := by
  unfold problems
  refine List.pairwise_append.2 ⟨?_, Sample.pairwise_turn_problemsFrom 0 [] _, ?_⟩
  · unfold listIf
    split_ifs <;> simp [Problem.turn]
  · intro p hp q hq
    obtain ⟨i, s, -, hq⟩ := Sample.mem_problemsFrom_iff.1 hq
    have hge := (Sample.turn_of_mem_problems hq).1
    have hle : p.turn ≤ 4 := by
      simp only [List.mem_append, mem_listIf] at hp
      obtain ((⟨-, rfl⟩ | ⟨-, rfl⟩) | ⟨-, rfl⟩) | ⟨-, rfl⟩ := hp <;> simp [Problem.turn]
    omega

theorem nodup_of_pairwise_turn {ps : List Problem}
    (h : ps.Pairwise fun p q => p.turn < q.turn) : ps.Nodup :=
  h.imp fun hlt heq => absurd (congrArg Problem.turn heq) hlt.ne

theorem nodup_problems (tool : String) (r : Run) : (r.problems tool).Nodup :=
  nodup_of_pairwise_turn (pairwise_turn_problems tool r)

/-- The violations at their turns make one list only. -/
theorem problems_eq_iff {ps : List Problem} : r.problems tool = ps ↔
    (∀ p, p ∈ ps ↔ Violation tool r p) ∧ ps.Pairwise fun p q => p.turn < q.turn := by
  constructor
  · rintro rfl
    exact ⟨fun p => mem_problems_iff, pairwise_turn_problems tool r⟩
  · rintro ⟨hmem, hturn⟩
    have hperm : (r.problems tool).Perm ps :=
      (List.perm_ext_iff_of_nodup (nodup_problems tool r) (nodup_of_pairwise_turn hturn)).2
        fun p => mem_problems_iff.trans (hmem p).symm
    -- of two problems only one has the earlier turn, so the order is the same
    exact hperm.eq_of_pairwise (fun p q _ _ hlt hgt => absurd hgt hlt.asymm)
      (pairwise_turn_problems tool r) hturn

theorem checked_eq_ok_iff : Ingest.checked tool r = .ok r ↔ r.problems tool = [] := by
  unfold Ingest.checked
  split <;> simp_all

theorem checked_eq_error_iff :
    Ingest.checked tool r = .error (r.problems tool) ↔ r.problems tool ≠ [] := by
  unfold Ingest.checked
  split <;> simp_all

theorem problems_eq_nil_iff_not_violation : r.problems tool = [] ↔ ∀ p, ¬ Violation tool r p := by
  simp only [List.eq_nil_iff_forall_not_mem, mem_problems_iff]

/--
The problems of a run are its violations, each told once and at its turn, and nothing else. A run
passes if and only if it has none, and otherwise all of them are told.
-/
theorem problems_at_their_turns (tool : String) (r : Run) :
    (∀ ps, r.problems tool = ps ↔
      (∀ p, p ∈ ps ↔ Violation tool r p) ∧ ps.Pairwise fun p q => p.turn < q.turn) ∧
      (Ingest.checked tool r = .ok r ↔ ∀ p, ¬ Violation tool r p) ∧
      (Ingest.checked tool r = .error (r.problems tool) ↔ ∃ p, Violation tool r p) := by
  refine ⟨fun ps => problems_eq_iff, ?_, ?_⟩
  · rw [← problems_eq_nil_iff_not_violation, checked_eq_ok_iff]
  · rw [← not_forall_not, ← problems_eq_nil_iff_not_violation, checked_eq_error_iff]

/-- A sample with two faults, and a metric that comes three times. -/
example :
    let infinite := Float.ofBits 0x7FF0000000000000
    let sample (name : String) (value : Float) : Sample := ⟨name, value, none, "", some "", []⟩
    let r : Run := ⟨.ofId "c1" "", 1, "u", [sample " " infinite, sample "m" 1, sample "m" 2,
      { sample "m" 3 with extra := none }, sample "m" 4], []⟩
    r.problems "t" = [.toolMismatch "u" "t", .nameEmpty "benches" 0, .nonFiniteValue 0 " " infinite,
      .duplicateMetric 2 "m" (some ""), .duplicateMetric 4 "m" (some "")] := by
  decide

end Run

end BenchHistory
