import BenchHistory.Proofs.History.Append

/-!
# Reading series off runs

The observations of a series follow the runs: those of runs put together are those of the parts
(`observationsFrom_append`), one for each run that measures the series
(`length_observationsFrom`).
-/

namespace BenchHistory

/-- Whether a run that is stored under the tool of a series has a sample of it. -/
def Run.measures (k : SeriesKey) (r : Run) : Bool :=
  r.benches.any fun s => s.key k.tool = k

theorem Run.isSome_sample? (k : SeriesKey) (r : Run) :
    (r.sample? k.name k.extra).isSome = r.measures k := by
  have hsame : ∀ s : Sample, (s.metric = (k.name, k.extra)) = (s.key k.tool = k) := by
    intro s
    cases k
    simp [Sample.metric, Sample.key]
  unfold Run.sample? Run.measures
  rw [Bool.eq_iff_iff, List.find?_isSome, List.any_eq_true]
  simp only [hsame]

theorem observationsFrom_append (index : ℕ) (name : String) (extra : Option String)
    (rs later : List Run) :
    observationsFrom index name extra (rs ++ later) =
      observationsFrom index name extra rs ++
        observationsFrom (index + rs.length) name extra later := by
  induction rs generalizing index with
  | nil => rfl
  | cons r rs ih =>
    have hindex : index + 1 + rs.length = index + (r :: rs).length := by
      rw [List.length_cons]
      omega
    rw [List.cons_append, observationsFrom, observationsFrom, ih, hindex, List.append_assoc]

theorem length_observationsFrom (index : ℕ) (k : SeriesKey) (rs : List Run) :
    (observationsFrom index k.name k.extra rs).length = rs.countP (Run.measures k) := by
  induction rs generalizing index with
  | nil => rfl
  | cons r rs ih =>
    have hone : (r.observation? index k.name k.extra).toList.length =
        if r.measures k = true then 1 else 0 := by
      unfold Run.observation?
      rw [← Run.isSome_sample?]
      cases r.sample? k.name k.extra <;> rfl
    rw [observationsFrom, List.length_append, ih, hone, List.countP_cons]
    omega

namespace History

theorem queryBefore_of_extends {h h' : History} {k : SeriesKey} {n : ℕ}
    (hext : h.runs k.tool <+: h'.runs k.tool) (hn : n ≤ (h.runs k.tool).length) :
    h'.queryBefore k n = h.queryBefore k n := by
  obtain ⟨later, hlater⟩ := hext
  unfold queryBefore
  rw [← hlater, List.take_append_of_le_length hn]

/-- A run that measures a series puts its observation between those before and those after. -/
theorem query_eq_of_getElem? {h : History} {k : SeriesKey} {i : ℕ} {r : Run} {s : Sample}
    (hr : (h.runs k.tool)[i]? = some r) (hs : r.sample? k.name k.extra = some s) :
    h.query k = h.queryBefore k i ++
      ⟨r.date, r.commit.id, s.value, s.unit, i⟩ ::
        observationsFrom (i + 1) k.name k.extra ((h.runs k.tool).drop (i + 1)) := by
  obtain ⟨hi, hget⟩ := List.getElem?_eq_some_iff.1 hr
  have hsplit : h.runs k.tool =
      (h.runs k.tool).take i ++ r :: (h.runs k.tool).drop (i + 1) := by
    rw [← hget, ← List.drop_eq_getElem_cons hi, List.take_append_drop]
  have hlen : ((h.runs k.tool).take i).length = i := List.length_take_of_le hi.le
  unfold query queryBefore
  conv_lhs => rw [hsplit]
  rw [observationsFrom_append, hlen, observationsFrom, Run.observation?, hs]
  simp only [Nat.zero_add, Option.map_some, Option.toList_some, List.singleton_append]

end History

end BenchHistory
