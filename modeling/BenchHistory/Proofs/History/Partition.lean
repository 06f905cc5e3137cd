import BenchHistory.Proofs.History.Invariant
import BenchHistory.Proofs.History.Measurements
import Mathlib.Algebra.GroupWithZero.Nat

/-!
# The series of a tool share out its samples

In a history that was built from nothing every sample stands in the series of its key and in no
other (`query_partition`): a series has one observation for each run that measures it, in the order
of the runs, and what was observed before a run is the part with smaller indices.
-/

open scoped List

namespace BenchHistory

theorem mem_under_iff {k : SeriesKey} {ms : List (SeriesKey × Observation)} {o : Observation} :
    o ∈ under k ms ↔ (k, o) ∈ ms := by
  unfold under
  simp only [List.mem_map, List.mem_filter, decide_eq_true_eq]
  constructor
  · rintro ⟨e, ⟨he, rfl⟩, rfl⟩
    exact he
  · intro h
    exact ⟨(k, o), ⟨h, rfl⟩, rfl⟩

theorem map_under (k : SeriesKey) (ms : List (SeriesKey × Observation)) :
    (under k ms).map (fun o => (k, o)) = ms.filter (·.1 = k) := by
  have hid : ∀ e ∈ ms.filter (·.1 = k), (k, e.2) = id e := by
    intro e he
    obtain ⟨-, hk⟩ := List.mem_filter.1 he
    rw [← of_decide_eq_true hk]
    rfl
  rw [under, List.map_map]
  exact (List.map_congr_left hid).trans (List.map_id _)

/-! ## Indices -/

section Indices

variable {index : ℕ} {name : String} {extra : Option String} {rs : List Run}

theorem runIndex_of_mem_observation? {r : Run} {o : Observation}
    (ho : o ∈ (r.observation? index name extra).toList) : o.runIndex = index := by
  unfold Run.observation? at ho
  obtain ⟨s, -, rfl⟩ := Option.map_eq_some_iff.1 (Option.mem_toList.1 ho)
  rfl

theorem runIndex_bounds {o : Observation} (ho : o ∈ observationsFrom index name extra rs) :
    index ≤ o.runIndex ∧ o.runIndex < index + rs.length := by
  induction rs generalizing index with
  | nil => cases ho
  | cons r rs ih =>
    rw [List.length_cons]
    obtain hfirst | hrest := List.mem_append.1 ho
    · have hindex := runIndex_of_mem_observation? hfirst
      omega
    · have hbounds := ih hrest
      omega

/-- No run makes two observations of a series, and later runs have greater indices. -/
theorem pairwise_runIndex (index : ℕ) (name : String) (extra : Option String) (rs : List Run) :
    (observationsFrom index name extra rs).Pairwise fun a b => a.runIndex < b.runIndex := by
  induction rs generalizing index with
  | nil => exact List.Pairwise.nil
  | cons r rs ih =>
    have hone : (r.observation? index name extra).toList.Pairwise fun a b =>
        a.runIndex < b.runIndex := by
      cases r.observation? index name extra with
      | none => exact List.Pairwise.nil
      | some o => exact List.pairwise_singleton _ o
    refine List.pairwise_append.2 ⟨hone, ih (index + 1), ?_⟩
    intro a ha b hb
    rw [runIndex_of_mem_observation? ha]
    exact (runIndex_bounds hb).1

/-- What the first runs observe has the smaller indices. -/
theorem observationsFrom_take (index n : ℕ) (name : String) (extra : Option String)
    (rs : List Run) :
    observationsFrom index name extra (rs.take n) =
      (observationsFrom index name extra rs).filter (·.runIndex < index + n) := by
  have hfirst : ∀ o ∈ observationsFrom index name extra (rs.take n), o.runIndex < index + n := by
    intro o ho
    have hbounds := runIndex_bounds ho
    have hlen := List.length_take_le n rs
    omega
  have hlater : ∀ o ∈ observationsFrom (index + (rs.take n).length) name extra (rs.drop n),
      ¬ o.runIndex < index + n := by
    intro o ho
    have hbounds := runIndex_bounds ho
    rw [List.length_take, List.length_drop] at hbounds
    omega
  conv_rhs => rw [← List.take_append_drop n rs, observationsFrom_append, List.filter_append]
  rw [List.filter_eq_self.2 fun o ho => decide_eq_true (hfirst o ho),
    List.filter_eq_nil_iff.2 fun o ho => by simpa using hlater o ho, List.append_nil]

end Indices

/-! ## Queries -/

namespace History

variable {h : History} {tool : String} {k : SeriesKey}

theorem Sound.metrics_nodup (hs : h.Sound) (tool : String) :
    ∀ r ∈ h.runs tool, (r.benches.map Sample.metric).Nodup :=
  fun r hr => (hs.wellFormed tool r hr).metrics_nodup

theorem Sound.query_eq_under (hs : h.Sound) (k : SeriesKey) :
    h.query k = under k (measurementsFrom k.tool 0 (h.runs k.tool)) :=
  observationsFrom_eq_under (hs.metrics_nodup k.tool) 0 k

theorem Sound.mem_query_iff (hs : h.Sound) (htool : k.tool = tool) {o : Observation} :
    o ∈ h.query k ↔ ∃ i r s, (h.runs tool)[i]? = some r ∧ s ∈ r.benches ∧ s.key tool = k ∧
      o = ⟨r.date, r.commit.id, s.value, s.unit, i⟩ := by
  subst htool
  rw [hs.query_eq_under, mem_under_iff, mem_measurementsFrom_iff]
  constructor
  · rintro ⟨i, r, s, hr, hmem, heq⟩
    obtain ⟨hk, ho⟩ := Prod.mk.inj heq
    rw [Nat.zero_add] at ho
    exact ⟨i, r, s, hr, hmem, hk.symm, ho⟩
  · rintro ⟨i, r, s, hr, hmem, hk, rfl⟩
    exact ⟨i, r, s, hr, hmem, by rw [hk, Nat.zero_add]⟩

theorem seriesKeys_eq (h : History) (tool : String) :
    h.seriesKeys tool = ((measurementsFrom tool 0 (h.runs tool)).map (·.1)).eraseDups := by
  rw [map_fst_measurementsFrom]
  rfl

theorem mem_seriesKeys_iff :
    k ∈ h.seriesKeys tool ↔ ∃ r ∈ h.runs tool, ∃ s ∈ r.benches, s.key tool = k := by
  unfold seriesKeys
  simp only [List.mem_eraseDups, List.mem_flatMap, List.mem_map]

theorem tool_of_mem_seriesKeys (hk : k ∈ h.seriesKeys tool) : k.tool = tool := by
  obtain ⟨r, -, s, -, rfl⟩ := mem_seriesKeys_iff.1 hk
  rfl

theorem Orderly.pairwise_query (ho : h.Orderly) (k : SeriesKey) :
    (h.query k).Pairwise fun a b => a.runIndex < b.runIndex ∧ a.date ≤ b.date := by
  refine (pairwise_runIndex 0 k.name k.extra (h.runs k.tool)).imp_of_mem fun {a b} ha hb hlt => ?_
  obtain ⟨i, r, s, hr, -, -, rfl⟩ := (ho.toSound.mem_query_iff rfl).1 ha
  obtain ⟨j, r', s', hr', -, -, rfl⟩ := (ho.toSound.mem_query_iff rfl).1 hb
  obtain ⟨hi, rfl⟩ := List.getElem?_eq_some_iff.1 hr
  obtain ⟨hj, rfl⟩ := List.getElem?_eq_some_iff.1 hr'
  exact ⟨hlt, (List.pairwise_map.1 (ho.dates_sorted k.tool)).rel_get_of_lt
    (a := ⟨i, hi⟩) (b := ⟨j, hj⟩) hlt⟩

theorem Sound.flatMap_query_perm (hs : h.Sound) (tool : String) :
    ((h.seriesKeys tool).flatMap fun k => (h.query k).map fun o => (k, o)) ~
      measurementsFrom tool 0 (h.runs tool) := by
  have hseries : ∀ k ∈ h.seriesKeys tool, (h.query k).map (fun o => (k, o)) =
      (measurementsFrom tool 0 (h.runs tool)).filter (·.1 = k) := by
    intro k hk
    rw [hs.query_eq_under, tool_of_mem_seriesKeys hk, map_under]
  rw [List.flatMap_congr hseries, seriesKeys_eq]
  exact flatMap_filter_perm (nodup_eraseDups _) fun e he =>
    List.mem_eraseDups.2 (List.mem_map_of_mem he)

theorem Sound.sum_length_query (hs : h.Sound) (tool : String) :
    ((h.seriesKeys tool).map fun k => (h.query k).length).sum =
      ((h.runs tool).map fun r => r.benches.length).sum := by
  have hlength := ((hs.flatMap_query_perm tool).map (·.1)).length_eq
  rw [map_fst_measurementsFrom] at hlength
  simpa only [List.length_flatMap, List.length_map] using hlength

/--
Whatever is done to a history that was empty at first, the series of a tool share out its samples.
The keys are those of the stored samples, without repetition and in the order of their first
appearance. A series has an observation for each run with a sample of its key, which says what the
run and the sample say; no run has two of them, they stand in the order of the runs, and dates do
not decrease. A key that is not listed has none. The first runs observe what has a smaller index.
All series together hold every sample once.
-/
theorem query_partition (url : String) (cs : List Change) (tool : String) :
    let h := (empty url).changes cs
    let keys := h.seriesKeys tool
    let stored := (h.runs tool).flatMap fun r => r.benches.map (·.key tool)
    (keys.Nodup ∧ (∀ k, k ∈ keys ↔ ∃ r ∈ h.runs tool, ∃ s ∈ r.benches, s.key tool = k) ∧
        keys.Pairwise fun a b => stored.idxOf a < stored.idxOf b) ∧
      (∀ k, k.tool = tool →
        (∀ o, o ∈ h.query k ↔ ∃ i r s, (h.runs tool)[i]? = some r ∧ s ∈ r.benches ∧
            s.key tool = k ∧ o = ⟨r.date, r.commit.id, s.value, s.unit, i⟩) ∧
          ((h.query k).Pairwise fun a b => a.runIndex < b.runIndex ∧ a.date ≤ b.date) ∧
          (k ∉ keys → h.query k = []) ∧
          ∀ n, h.queryBefore k n = (h.query k).filter (·.runIndex < n)) ∧
      (keys.flatMap fun k => (h.query k).map fun o => (k, o)) ~
        measurementsFrom tool 0 (h.runs tool) ∧
      (keys.map fun k => (h.query k).length).sum =
        ((h.runs tool).map fun r => r.benches.length).sum := by
  intro h keys stored
  have ho : h.Orderly := (orderly_empty url).changes cs
  refine ⟨⟨nodup_eraseDups _, fun k => mem_seriesKeys_iff, pairwise_idxOf_eraseDups stored⟩,
    fun k htool => ⟨fun o => ho.toSound.mem_query_iff htool, ho.pairwise_query k, ?_, fun n => ?_⟩,
    ho.toSound.flatMap_query_perm tool, ho.toSound.sum_length_query tool⟩
  · intro hk
    refine List.eq_nil_iff_forall_not_mem.2 fun o hmem => hk ?_
    obtain ⟨i, r, s, hr, hs, hkey, -⟩ := (ho.toSound.mem_query_iff htool).1 hmem
    exact mem_seriesKeys_iff.2 ⟨r, List.mem_of_getElem? hr, s, hs, hkey⟩
  · have htake := observationsFrom_take 0 n k.name k.extra (h.runs k.tool)
    rwa [Nat.zero_add] at htake

end History

end BenchHistory
