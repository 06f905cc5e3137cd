import BenchHistory.Proofs.History.Series
import Mathlib.Data.List.Induction

/-!
# All samples of a tool in their order

The samples of runs, put one after the other, are a list of observations under the keys of their
series (`measurementsFrom`). In runs that measure no metric twice a series is what stands under its
key (`observationsFrom_eq_under`), and no key is lost when the list is taken apart by keys
(`flatMap_filter_perm`).
-/

open scoped List

namespace BenchHistory

/-! ## The samples of runs -/

/-- The observations that the samples of the run at a place make, each under its series. -/
def Run.measurements (tool : String) (index : ℕ) (r : Run) : List (SeriesKey × Observation) :=
  r.benches.map fun s => (s.key tool, ⟨r.date, r.commit.id, s.value, s.unit, index⟩)

/-- The observations that the samples of runs from a place on make, each under its series. -/
def measurementsFrom (tool : String) (index : ℕ) : List Run → List (SeriesKey × Observation)
  | [] => []
  | r :: rs => r.measurements tool index ++ measurementsFrom tool (index + 1) rs

/-- The observations under a key. -/
def under (k : SeriesKey) (ms : List (SeriesKey × Observation)) : List Observation :=
  (ms.filter (·.1 = k)).map (·.2)

variable {tool : String} {index : ℕ} {k : SeriesKey}

theorem under_append (k : SeriesKey) (ms later : List (SeriesKey × Observation)) :
    under k (ms ++ later) = under k ms ++ under k later := by
  simp only [under, List.filter_append, List.map_append]

theorem map_fst_measurementsFrom (tool : String) (index : ℕ) (rs : List Run) :
    (measurementsFrom tool index rs).map (·.1) =
      rs.flatMap fun r => r.benches.map (·.key tool) := by
  induction rs generalizing index with
  | nil => rfl
  | cons r rs ih =>
    rw [measurementsFrom, List.map_append, ih, Run.measurements, List.map_map, List.flatMap_cons]
    rfl

theorem mem_measurementsFrom_iff {rs : List Run} {e : SeriesKey × Observation} :
    e ∈ measurementsFrom tool index rs ↔
      ∃ i r s, rs[i]? = some r ∧ s ∈ r.benches ∧
        e = (s.key tool, ⟨r.date, r.commit.id, s.value, s.unit, index + i⟩) := by
  induction rs generalizing index with
  | nil => simp [measurementsFrom]
  | cons r rs ih =>
    rw [measurementsFrom, List.mem_append, ih, Run.measurements, List.mem_map]
    constructor
    · rintro (⟨s, hs, rfl⟩ | ⟨i, r', s, hr, hs, rfl⟩)
      · exact ⟨0, r, s, rfl, hs, rfl⟩
      · exact ⟨i + 1, r', s, hr, hs, by rw [Nat.add_right_comm, Nat.add_assoc]⟩
    · rintro ⟨_ | i, r', s, hr, hs, rfl⟩
      · cases hr
        exact .inl ⟨s, hs, rfl⟩
      · exact .inr ⟨i, r', s, hr, hs, by rw [Nat.add_right_comm, Nat.add_assoc]⟩

/-! ## Reading a series off the samples -/

theorem filter_eq_find?_of_nodup {α β : Type} [DecidableEq β] {f : α → β} {xs : List α}
    (hunique : (xs.map f).Nodup) (b : β) :
    xs.filter (f · = b) = (xs.find? (f · = b)).toList := by
  induction xs with
  | nil => rfl
  | cons x xs ih =>
    obtain ⟨hnew, hunique⟩ := List.nodup_cons.1 hunique
    by_cases hx : f x = b
    · have hrest : ∀ y ∈ xs, ¬ f y = b := fun y hy heq =>
        hnew (List.mem_map.2 ⟨y, hy, heq.trans hx.symm⟩)
      simpa [hx] using hrest
    · simpa [hx] using ih hunique

theorem Run.observation?_eq_under {r : Run} (hunique : (r.benches.map Sample.metric).Nodup)
    (index : ℕ) (k : SeriesKey) :
    (r.observation? index k.name k.extra).toList = under k (r.measurements k.tool index) := by
  have hkey : ∀ s : Sample, (s.key k.tool = k) = (s.metric = (k.name, k.extra)) := by
    intro s
    cases k
    simp [Sample.metric, Sample.key]
  unfold observation? sample? measurements under
  rw [List.filter_map, List.map_map, Option.toList_map, ← filter_eq_find?_of_nodup hunique]
  simp only [Function.comp_def, hkey]

/-- The observations of a series are those under its key. -/
theorem observationsFrom_eq_under {rs : List Run}
    (hunique : ∀ r ∈ rs, (r.benches.map Sample.metric).Nodup) (index : ℕ) (k : SeriesKey) :
    observationsFrom index k.name k.extra rs = under k (measurementsFrom k.tool index rs) := by
  induction rs generalizing index with
  | nil => rfl
  | cons r rs ih =>
    obtain ⟨hr, hrs⟩ := List.forall_mem_cons.1 hunique
    rw [observationsFrom, measurementsFrom, under_append, Run.observation?_eq_under hr, ih hrs]

/-! ## Keys in the order of their first appearance -/

section Keys

variable {α : Type} [DecidableEq α]

theorem eraseDups_concat (xs : List α) (x : α) :
    (xs ++ [x]).eraseDups = if x ∈ xs then xs.eraseDups else xs.eraseDups ++ [x] := by
  rw [List.eraseDups_append]
  split <;> simp_all [List.removeAll, List.eraseDups_cons]

/-- Without repetitions a list is in the order of first appearance. -/
theorem pairwise_idxOf_eraseDups (xs : List α) :
    xs.eraseDups.Pairwise fun a b => xs.idxOf a < xs.idxOf b := by
  induction xs using List.reverseRecOn with
  | nil => exact List.Pairwise.nil
  | append_singleton xs x ih =>
    have hold : ∀ a ∈ xs.eraseDups, (xs ++ [x]).idxOf a = xs.idxOf a := fun a ha =>
      List.idxOf_append_of_mem (List.mem_eraseDups.1 ha)
    have hprev : xs.eraseDups.Pairwise fun a b => (xs ++ [x]).idxOf a < (xs ++ [x]).idxOf b :=
      ih.imp_of_mem fun ha hb hlt => by rwa [hold _ ha, hold _ hb]
    rw [eraseDups_concat]
    split
    · exact hprev
    · next hnew =>
      refine List.pairwise_append.2 ⟨hprev, List.pairwise_singleton _ _, ?_⟩
      intro a ha b hb
      rw [List.mem_singleton.1 hb, hold a ha, List.idxOf_append_of_notMem hnew,
        List.idxOf_cons_self]
      exact List.idxOf_lt_length_of_mem (List.mem_eraseDups.1 ha)

theorem nodup_eraseDups (xs : List α) : xs.eraseDups.Nodup :=
  (pairwise_idxOf_eraseDups xs).imp fun hlt heq => by
    rw [heq] at hlt
    exact lt_irrefl _ hlt

/-- Entries taken apart by their keys are the entries, in another order. -/
theorem flatMap_filter_perm {β : Type} {keys : List α} (hkeys : keys.Nodup) {es : List (α × β)}
    (hall : ∀ e ∈ es, e.1 ∈ keys) : (keys.flatMap fun k => es.filter (·.1 = k)) ~ es := by
  induction keys generalizing es with
  | nil =>
    have hnone : es = [] := List.eq_nil_iff_forall_not_mem.2 fun e he => by cases hall e he
    rw [hnone]
    rfl
  | cons k keys ih =>
    obtain ⟨hk, hkeys⟩ := List.nodup_cons.1 hkeys
    have hothers : ∀ j ∈ keys, es.filter (·.1 = j) =
        (es.filter fun e => ¬ e.1 = k).filter (·.1 = j) := by
      intro j hj
      rw [List.filter_filter]
      refine List.filter_congr fun e _ => ?_
      have hjk : j ≠ k := fun heq => hk (heq ▸ hj)
      by_cases he : e.1 = j <;> simp [he, hjk]
    have hrest : (keys.flatMap fun j => es.filter (·.1 = j)) ~ es.filter fun e => ¬ e.1 = k := by
      rw [List.flatMap_congr hothers]
      refine ih hkeys fun e he => ?_
      obtain ⟨hmem, hne⟩ := List.mem_filter.1 he
      exact (List.mem_cons.1 (hall e hmem)).resolve_left (by simpa using hne)
    rw [List.flatMap_cons]
    calc es.filter (·.1 = k) ++ (keys.flatMap fun j => es.filter (·.1 = j))
        _ ~ es.filter (·.1 = k) ++ es.filter fun e => ¬ e.1 = k := hrest.append_left _
        _ ~ es := by simpa using List.filter_append_perm (fun e => decide (e.1 = k)) es

end Keys

end BenchHistory
