import BenchHistory.History.Schema
import BenchHistory.Proofs.History.Partition
import Mathlib.Data.List.Defs

/-!
# The changes of a tool's metrics, series by series

The table that goes through all samples of all runs at once tells of each series what its own
observations tell (`ofRuns_series`): what it shows of the samples so far (`Shows`) is kept by one
more sample (`Shows.step`), and sorting what has disappeared by the last run keeps the order of
appearance (`filter_mergeSort`).
-/

open scoped List

namespace BenchHistory

/-! ## Sorting keeps the order of equals -/

section Sorting

variable {α : Type} {le : α → α → Bool}

/-- Entries that are in order with each other stand as they stood before the sorting. -/
theorem filter_mergeSort (trans : ∀ a b c, le a b = true → le b c = true → le a c = true)
    (total : ∀ a b, (le a b || le b a) = true) {p : α → Bool} {l : List α}
    (hp : ∀ a ∈ l, ∀ b ∈ l, p a = true → p b = true → le a b = true) :
    (l.mergeSort le).filter p = l.filter p := by
  have hsorted : (l.filter p).Pairwise fun a b => le a b = true := by
    refine List.pairwise_of_forall_mem_list fun a ha b hb => ?_
    obtain ⟨ha, hpa⟩ := List.mem_filter.1 ha
    obtain ⟨hb, hpb⟩ := List.mem_filter.1 hb
    exact hp a ha b hb hpa hpb
  have hkept : (l.filter p).filter p <+ (l.mergeSort le).filter p :=
    (List.sublist_mergeSort trans total hsorted List.filter_sublist).filter p
  rw [List.filter_filter] at hkept
  simp only [Bool.and_self] at hkept
  exact (hkept.eq_of_length ((List.mergeSort_perm l le).filter p).length_eq.symm).symm

/-- A list in some order stays so among equals when it is sorted by something else. -/
theorem pairwise_mergeSort_of_pairwise
    (trans : ∀ a b c, le a b = true → le b c = true → le a c = true)
    (total : ∀ a b, (le a b || le b a) = true) {r : α → α → Prop} {l : List α}
    (hl : l.Pairwise r) :
    (l.mergeSort le).Pairwise fun a b => le a b = true ∧ (le b a = true → r a b) := by
  refine (List.pairwise_mergeSort trans total l).and ?_
  rw [List.pairwise_iff_forall_sublist]
  intro a b hsub hba
  have hab : le a b = true :=
    (List.pairwise_iff_forall_sublist.1 (List.pairwise_mergeSort trans total l)) hsub
  have hrefl : ∀ c, le c c = true := fun c => by simpa using total c c
  -- both belong to the entries that are equal to the first
  have hequal : [a, b] <+ (l.mergeSort le).filter fun c => le a c && le c a := by
    have hfilter := hsub.filter fun c => le a c && le c a
    simpa [hab, hba, hrefl] using hfilter
  rw [filter_mergeSort trans total] at hequal
  · exact (List.pairwise_iff_forall_sublist.1 hl) (hequal.trans List.filter_sublist)
  · intro c _ d _ hc hd
    simp only [Bool.and_eq_true] at hc hd
    exact trans c a d hc.2 hd.1

end Sorting

/-! ## One series -/

namespace SchemaChange

/-- The run in which a change shows; for a series that has disappeared the last one it was in. -/
def runIndex : SchemaChange → ℕ
  | .added _ i _ => i
  | .unitChanged _ _ _ i => i
  | .retired _ i => i

def isRetired : SchemaChange → Bool
  | .retired _ _ => true
  | _ => false

/-- The change of unit from one observation to the next, if there is one. -/
def unitChange (k : SeriesKey) (before after : Observation) : List SchemaChange :=
  listIf (before.unit ≠ after.unit) (.unitChanged k before.unit after.unit after.runIndex)

/-- What observations of a series tell: it appears, and then its unit changes. -/
def whileMeasured (k : SeriesKey) (os : List Observation) : List SchemaChange :=
  (os.head?.map fun o => .added k o.runIndex o.unit).toList ++
    os.consecutivePairs.flatMap fun p => unitChange k p.1 p.2

/-- The changes of one series over runs of its tool; it has disappeared if the last run lacks it. -/
def ofSeries (k : SeriesKey) (runs : List Run) : List SchemaChange :=
  let os := observationsFrom 0 k.name k.extra runs
  whileMeasured k os ++
    if runs.getLast?.any (Run.measures k) then []
    else (os.getLast?.map fun o => .retired k o.runIndex).toList

variable {k : SeriesKey}

theorem whileMeasured_nil (k : SeriesKey) : whileMeasured k [] = [] := rfl

theorem whileMeasured_singleton (k : SeriesKey) (o : Observation) :
    whileMeasured k [o] = [.added k o.runIndex o.unit] := rfl

theorem consecutivePairs_concat (earlier : List Observation) (last o : Observation) :
    (earlier ++ [last] ++ [o]).consecutivePairs =
      (earlier ++ [last]).consecutivePairs ++ [(last, o)] := by
  induction earlier with
  | nil => rfl
  | cons a earlier ih =>
    cases earlier with
    | nil => rfl
    | cons b earlier => exact congrArg ((a, b) :: ·) ih

theorem whileMeasured_concat {os : List Observation} {last : Observation}
    (hlast : os.getLast? = some last) (o : Observation) :
    whileMeasured k (os ++ [o]) = whileMeasured k os ++ unitChange k last o := by
  obtain ⟨earlier, rfl⟩ := List.getLast?_eq_some_iff.1 hlast
  have hhead : (earlier ++ [last] ++ [o]).head? = (earlier ++ [last]).head? := by
    cases earlier <;> rfl
  unfold whileMeasured
  rw [hhead, consecutivePairs_concat, List.flatMap_append, List.flatMap_singleton,
    List.append_assoc]

theorem under_concat (k : SeriesKey) (ms : List (SeriesKey × Observation))
    (e : SeriesKey × Observation) :
    under k (ms ++ [e]) = if e.1 = k then under k ms ++ [e.2] else under k ms := by
  rw [under_append]
  unfold under
  split <;> simp_all

/-! ## The table of series -/

/-- What the table shows after samples: what each series tells, and where it was last. -/
structure Shows (ms : List (SeriesKey × Observation)) (s : State) : Prop where
  changes : ∀ k, s.changes.filter (·.key = k) = whileMeasured k (under k ms)
  seen : ∀ k, s.find? k = (under k ms).getLast?.map fun o => ⟨k, o.runIndex, o.unit⟩
  keys : s.seen.map (·.key) = (ms.map (·.1)).eraseDups
  order : s.changes.map (fun c => (c.runIndex, c.key)) <+ ms.map fun e => (e.2.runIndex, e.1)
  measured : ∀ c ∈ s.changes, c.isRetired = false

theorem shows_nil : Shows [] ⟨[], []⟩ where
  changes _ := rfl
  seen _ := rfl
  keys := rfl
  order := List.Sublist.refl _
  measured := by rintro c ⟨⟩

variable {ms : List (SeriesKey × Observation)} {s : State}

theorem Shows.mem_keys_iff (h : Shows ms s) (k : SeriesKey) :
    k ∈ ms.map (·.1) ↔ (s.find? k).isSome = true := by
  rw [h.seen k, Option.isSome_map, List.getLast?_isSome]
  unfold under
  simp

/-- An entry that takes the place of the one of its key is found there, and the others as before. -/
theorem find?_replaced {seen : List Seen} {e p : Seen}
    (hp : (seen.find? fun q => q.key = e.key) = some p) (j : SeriesKey) :
    ((seen.map fun q => if q.key = e.key then e else q).find? fun q => q.key = j) =
      if e.key = j then some e else seen.find? fun q => q.key = j := by
  have hsame : ((fun q : Seen => decide (q.key = j)) ∘ fun q => if q.key = e.key then e else q) =
      fun q => decide (q.key = j) := by
    funext q
    by_cases hq : q.key = e.key <;> simp [hq]
  rw [List.find?_map, hsame]
  by_cases hj : e.key = j
  · subst hj
    have hkey : p.key = e.key := of_decide_eq_true (List.find?_some hp :)
    rw [if_pos rfl, hp, Option.map_some, if_pos hkey]
  · rw [if_neg hj]
    cases hq : seen.find? fun q => q.key = j with
    | none => rfl
    | some q =>
      have hqj : q.key = j := of_decide_eq_true (List.find?_some hq :)
      have hne : q.key ≠ e.key := fun heq => hj (heq.symm.trans hqj)
      rw [Option.map_some, if_neg hne]

/-- A series that is measured for the first time appears. -/
theorem Shows.appears (h : Shows ms s) {k : SeriesKey} (hfind : s.find? k = none)
    (o : Observation) :
    Shows (ms ++ [(k, o)])
      ⟨s.changes ++ [.added k o.runIndex o.unit], s.seen ++ [⟨k, o.runIndex, o.unit⟩]⟩ := by
  have hnone : under k ms = [] := by simpa [hfind] using h.seen k
  have hnew : k ∉ ms.map (·.1) := by
    rw [h.mem_keys_iff, hfind]
    simp
  refine ⟨fun j => ?_, fun j => ?_, ?_, ?_, ?_⟩
  · rw [under_concat, List.filter_append, h.changes j]
    by_cases hj : k = j
    · subst hj
      simp [hnone, whileMeasured_nil, whileMeasured_singleton, SchemaChange.key]
    · simp [hj, SchemaChange.key]
  · have hold := h.seen j
    unfold State.find? at hold ⊢
    rw [under_concat, List.find?_append, hold]
    by_cases hj : k = j
    · subst hj
      simp [hnone]
    · simp [hj]
  · simp only [List.map_append, List.map_singleton, eraseDups_concat, if_neg hnew, h.keys]
  · rw [List.map_append, List.map_append]
    exact h.order.append (List.Sublist.refl _)
  · rw [List.forall_mem_append, List.forall_mem_singleton]
    exact ⟨h.measured, rfl⟩

theorem of_mem_unitChange {k : SeriesKey} {before after : Observation} {c : SchemaChange}
    (hc : c ∈ unitChange k before after) :
    c.key = k ∧ c.runIndex = after.runIndex ∧ c.isRetired = false := by
  unfold unitChange listIf at hc
  split at hc
  · rw [List.mem_singleton.1 hc]
    exact ⟨rfl, rfl, rfl⟩
  · cases hc

/-- A series that was measured before may have changed its unit since. -/
theorem Shows.recurs (h : Shows ms s) {k : SeriesKey} {last : Observation}
    (hlast : (under k ms).getLast? = some last) (o : Observation) :
    Shows (ms ++ [(k, o)])
      ⟨s.changes ++ unitChange k last o,
        s.seen.map fun e => if e.key = k then ⟨k, o.runIndex, o.unit⟩ else e⟩ := by
  have hfind : s.find? k = some ⟨k, last.runIndex, last.unit⟩ := by rw [h.seen k, hlast]; rfl
  have hold : k ∈ ms.map (·.1) := by
    rw [h.mem_keys_iff, hfind]
    rfl
  refine ⟨fun j => ?_, fun j => ?_, ?_, ?_, ?_⟩
  · rw [under_concat, List.filter_append, h.changes j]
    by_cases hj : k = j
    · subst hj
      rw [if_pos rfl, whileMeasured_concat hlast, List.filter_eq_self.2]
      exact fun c hc => decide_eq_true (of_mem_unitChange hc).1
    · rw [if_neg hj, List.filter_eq_nil_iff.2, List.append_nil]
      intro c hc
      rw [(of_mem_unitChange hc).1]
      simpa using hj
  · rw [under_concat]
    refine (find?_replaced (e := ⟨k, o.runIndex, o.unit⟩) hfind j).trans ?_
    by_cases hj : k = j
    · subst hj
      simp
    · rw [if_neg hj, if_neg hj]
      exact h.seen j
  · have hkeys : (s.seen.map fun e => if e.key = k then ⟨k, o.runIndex, o.unit⟩ else e).map
        (·.key) = s.seen.map (·.key) := by
      rw [List.map_map]
      refine List.map_congr_left fun e _ => ?_
      by_cases he : e.key = k <;> simp [he]
    simp only [List.map_append, List.map_singleton, eraseDups_concat, if_pos hold, hkeys, h.keys]
  · rw [List.map_append, List.map_append]
    refine h.order.append ?_
    unfold unitChange listIf
    split <;> simp [runIndex, SchemaChange.key]
  · rw [List.forall_mem_append]
    exact ⟨h.measured, fun c hc => (of_mem_unitChange hc).2.2⟩

/-- What the table shows stays right with one more sample. -/
theorem Shows.step (h : Shows ms s) (tool : String) (b : Sample) {o : Observation}
    (hunit : o.unit = b.unit) :
    Shows (ms ++ [(b.key tool, o)]) (s.step tool o.runIndex b) := by
  unfold State.step
  rw [← hunit]
  cases hfind : s.find? (b.key tool) with
  | none =>
    simp only [hfind]
    exact h.appears hfind o
  | some p =>
    obtain ⟨last, hlast, rfl⟩ := Option.map_eq_some_iff.1 ((h.seen _).symm.trans hfind)
    have htold : (if last.unit = o.unit then []
        else [.unitChanged (b.key tool) last.unit o.unit o.runIndex]) =
          unitChange (b.key tool) last o := by
      unfold unitChange listIf
      split <;> simp_all
    simp only [hfind, htold]
    exact h.recurs hlast o

theorem Shows.samples (h : Shows ms s) (tool : String) (index : ℕ) (date : ℤ) (commitId : String)
    (bs : List Sample) :
    Shows (ms ++ bs.map fun b => (b.key tool, ⟨date, commitId, b.value, b.unit, index⟩))
      (bs.foldl (fun s b => s.step tool index b) s) := by
  induction bs generalizing ms s with
  | nil => simpa using h
  | cons b bs ih =>
    have hstep := h.step tool b (o := ⟨date, commitId, b.value, b.unit, index⟩) rfl
    simpa using ih hstep

theorem Shows.run (h : Shows ms s) (tool : String) (index : ℕ) (runs : List Run) :
    Shows (ms ++ measurementsFrom tool index runs) (s.run tool index runs) := by
  induction runs generalizing ms s index with
  | nil => simpa [measurementsFrom, State.run] using h
  | cons r rs ih =>
    have hfirst := h.samples tool index r.date r.commit.id r.benches
    rw [measurementsFrom, ← List.append_assoc]
    exact ih hfirst (index + 1)

/-! ## What has disappeared -/

theorem lastRun_trans : ∀ a b c : Seen, decide (a.lastRun ≤ b.lastRun) = true →
    decide (b.lastRun ≤ c.lastRun) = true → decide (a.lastRun ≤ c.lastRun) = true := by
  intro a b c hab hbc
  simp only [decide_eq_true_eq] at hab hbc ⊢
  exact hab.trans hbc

theorem lastRun_total : ∀ a b : Seen,
    (decide (a.lastRun ≤ b.lastRun) || decide (b.lastRun ≤ a.lastRun)) = true := by
  intro a b
  simpa using Nat.le_total a.lastRun b.lastRun

/-- A series has disappeared with the last observation if that is not of the last run. -/
theorem Shows.filter_retired (h : Shows ms s) (n : ℕ) (k : SeriesKey) :
    (s.retired n).filter (·.key = k) =
      (((under k ms).getLast?.filter fun o => o.runIndex + 1 < n).map fun o =>
        .retired k o.runIndex).toList := by
  have hunique : (s.seen.map (·.key)).Nodup := h.keys ▸ nodup_eraseDups _
  have hfind : s.seen.filter (·.key = k) =
      ((under k ms).getLast?.map fun o => (⟨k, o.runIndex, o.unit⟩ : Seen)).toList := by
    rw [filter_eq_find?_of_nodup hunique, ← h.seen k]
    rfl
  have hone : ∀ a ∈ s.seen.filter (fun e => e.lastRun + 1 < n), ∀ b ∈ s.seen.filter
      (fun e => e.lastRun + 1 < n), decide (a.key = k) = true → decide (b.key = k) = true →
        decide (a.lastRun ≤ b.lastRun) = true := by
    intro a ha b hb hak hbk
    have hab : a = b := List.inj_on_of_nodup_map hunique (List.mem_of_mem_filter ha)
      (List.mem_of_mem_filter hb) ((of_decide_eq_true hak).trans (of_decide_eq_true hbk).symm)
    simp [hab]
  unfold State.retired
  have hmap : (fun c : SchemaChange => decide (c.key = k)) ∘
      (fun e : Seen => .retired e.key e.lastRun) = fun e => decide (e.key = k) := rfl
  rw [List.filter_map, hmap, filter_mergeSort lastRun_trans lastRun_total hone,
    List.filter_comm, hfind]
  cases (under k ms).getLast? with
  | none => rfl
  | some o => by_cases ho : o.runIndex + 1 < n <;> simp [Option.filter, ho]

/-- A series that is not measured by the last run was measured last before it. -/
theorem getLast?_observationsFrom (k : SeriesKey) {runs : List Run} {o : Observation}
    (ho : (observationsFrom 0 k.name k.extra runs).getLast? = some o) :
    o.runIndex + 1 < runs.length ↔ runs.getLast?.any (Run.measures k) = false := by
  rcases List.eq_nil_or_concat' runs with rfl | ⟨earlier, r, rfl⟩
  · cases ho
  · have hlater : observationsFrom (0 + earlier.length) k.name k.extra [r] =
        (r.observation? earlier.length k.name k.extra).toList := by
      rw [Nat.zero_add]
      exact List.append_nil _
    rw [observationsFrom_append, hlater, List.getLast?_append] at ho
    have hmeasures := Run.isSome_sample? k r
    rw [List.length_append, List.length_singleton, List.getLast?_concat, Option.any_some,
      ← hmeasures]
    unfold Run.observation? at ho
    cases hs : r.sample? k.name k.extra with
    | none =>
      simp only [hs, Option.map_none, Option.toList_none, List.getLast?_nil, Option.none_or] at ho
      have hbounds := runIndex_bounds (List.mem_of_getLast? ho)
      simp only [Option.isSome_none, iff_true]
      omega
    | some b =>
      simp only [hs, Option.map_some, Option.toList_some, List.getLast?_singleton,
        Option.some_or, Option.some.injEq] at ho
      subst ho
      simp

/-! ## The order of all changes -/

/-- The place of a series among the samples of the run at an index. -/
def placeIn (tool : String) (runs : List Run) (index : ℕ) (k : SeriesKey) : ℕ :=
  ((runs[index]?.toList.flatMap Run.benches).map (·.key tool)).idxOf k

theorem nodup_keys {r : Run} (hunique : (r.benches.map Sample.metric).Nodup) (tool : String) :
    (r.benches.map (·.key tool)).Nodup := by
  have hfactor : r.benches.map Sample.metric =
      (r.benches.map (·.key tool)).map fun k => (k.name, k.extra) := by
    rw [List.map_map]
    rfl
  rw [hfactor] at hunique
  exact hunique.of_map _

theorem placeIn_getElem (tool : String) {runs : List Run} {index : ℕ} {r : Run}
    (hr : runs[index]? = some r) (hunique : (r.benches.map Sample.metric).Nodup) {m : ℕ}
    (hm : m < r.benches.length) : placeIn tool runs index (r.benches[m].key tool) = m := by
  have hget := (nodup_keys hunique tool).idxOf_getElem m (by simpa using hm)
  rw [List.getElem_map] at hget
  unfold placeIn
  simpa [hr] using hget

/-- The samples of all runs stand in the order of the runs, and in each run in its order. -/
theorem pairwise_measurementsFrom (tool : String) (earlier : List Run) {rs : List Run}
    (hunique : ∀ r ∈ rs, (r.benches.map Sample.metric).Nodup) :
    (measurementsFrom tool earlier.length rs).Pairwise fun a b =>
      a.2.runIndex < b.2.runIndex ∨ a.2.runIndex = b.2.runIndex ∧
        placeIn tool (earlier ++ rs) a.2.runIndex a.1 <
          placeIn tool (earlier ++ rs) b.2.runIndex b.1 := by
  induction rs generalizing earlier with
  | nil => exact List.Pairwise.nil
  | cons r rs ih =>
    obtain ⟨hr, hrs⟩ := List.forall_mem_cons.1 hunique
    have hrest := ih (earlier ++ [r]) hrs
    rw [List.append_assoc, List.singleton_append, List.length_append, List.length_singleton]
      at hrest
    have hhere : (earlier ++ r :: rs)[earlier.length]? = some r := by simp
    refine List.pairwise_append.2 ⟨?_, hrest, ?_⟩
    · unfold Run.measurements
      refine List.pairwise_map.2 (List.pairwise_iff_getElem.2 fun i j hi hj hij => .inr ⟨rfl, ?_⟩)
      rwa [placeIn_getElem tool hhere hr hi, placeIn_getElem tool hhere hr hj]
    · intro a ha b hb
      obtain ⟨s, -, rfl⟩ := List.mem_map.1 ha
      obtain ⟨i, r', s', -, -, rfl⟩ := mem_measurementsFrom_iff.1 hb
      refine .inl ?_
      show earlier.length < earlier.length + 1 + i
      omega

theorem Shows.pairwise_changes {tool : String} {runs : List Run}
    (h : Shows (measurementsFrom tool 0 runs) s)
    (hunique : ∀ r ∈ runs, (r.benches.map Sample.metric).Nodup) :
    s.changes.Pairwise fun a b => a.runIndex < b.runIndex ∨ a.runIndex = b.runIndex ∧
      placeIn tool runs a.runIndex a.key < placeIn tool runs b.runIndex b.key := by
  have hsamples := pairwise_measurementsFrom tool [] hunique
  have hplaces : (measurementsFrom tool 0 runs |>.map fun e => (e.2.runIndex, e.1)).Pairwise
      fun p q => p.1 < q.1 ∨ p.1 = q.1 ∧ placeIn tool runs p.1 p.2 < placeIn tool runs q.1 q.2 :=
    List.pairwise_map.2 hsamples
  exact List.pairwise_map.1 (hplaces.sublist h.order)

theorem Shows.pairwise_retired (h : Shows ms s) (n : ℕ) :
    (s.retired n).Pairwise fun a b => a.runIndex < b.runIndex ∨ a.runIndex = b.runIndex ∧
      (ms.map (·.1)).idxOf a.key < (ms.map (·.1)).idxOf b.key := by
  have hkeys : (s.seen.map (·.key)).Pairwise fun j k =>
      (ms.map (·.1)).idxOf j < (ms.map (·.1)).idxOf k := h.keys ▸ pairwise_idxOf_eraseDups _
  rw [List.pairwise_map] at hkeys
  have hsorted := pairwise_mergeSort_of_pairwise lastRun_trans lastRun_total
    (hkeys.filter fun e => e.lastRun + 1 < n)
  refine List.pairwise_map.2 (hsorted.imp fun {a b} hab => ?_)
  obtain ⟨hle, hties⟩ := hab
  rcases (of_decide_eq_true hle).lt_or_eq with hlt | heq
  · exact .inl hlt
  · exact .inr ⟨heq, hties (decide_eq_true heq.ge)⟩

theorem isRetired_of_mem_retired {n : ℕ} {c : SchemaChange} (hc : c ∈ s.retired n) :
    c.isRetired = true := by
  obtain ⟨e, -, rfl⟩ := List.mem_map.1 hc
  rfl

/--
The changes of a tool's metrics are, for each series, those of its own observations: it appears
with the first one, its unit changes wherever two consecutive ones differ, and it has disappeared
after the last one if the last run lacks it. What no run measures has no change. Changes while
series are measured come first, in the order of the runs and of their samples; what has
disappeared comes in the order of the last runs, and of first appearance where these agree.
-/
theorem ofRuns_series (tool : String) {runs : List Run}
    (hunique : ∀ r ∈ runs, (r.benches.map fun b => (b.name, b.extra)).Nodup) :
    let keys := runs.flatMap fun r => r.benches.map (·.key tool)
    (∀ k, k.tool = tool → (ofRuns tool runs).filter (·.key = k) = ofSeries k runs) ∧
      (∀ k ∉ keys, (ofRuns tool runs).filter (·.key = k) = []) ∧
      ∃ measured retired, ofRuns tool runs = measured ++ retired ∧
        (∀ c ∈ measured, c.isRetired = false) ∧ (∀ c ∈ retired, c.isRetired = true) ∧
        (measured.Pairwise fun a b => a.runIndex < b.runIndex ∨ a.runIndex = b.runIndex ∧
          placeIn tool runs a.runIndex a.key < placeIn tool runs b.runIndex b.key) ∧
        retired.Pairwise fun a b => a.runIndex < b.runIndex ∨ a.runIndex = b.runIndex ∧
          keys.idxOf a.key < keys.idxOf b.key := by
  intro keys
  have hkeys : (measurementsFrom tool 0 runs).map (·.1) = keys :=
    map_fst_measurementsFrom tool 0 runs
  have hshows : Shows (measurementsFrom tool 0 runs) (State.run tool ⟨[], []⟩ 0 runs) :=
    shows_nil.run tool 0 runs
  have hfilter : ∀ k, (ofRuns tool runs).filter (·.key = k) =
      whileMeasured k (under k (measurementsFrom tool 0 runs)) ++
        (((under k (measurementsFrom tool 0 runs)).getLast?.filter fun o =>
          o.runIndex + 1 < runs.length).map fun o => .retired k o.runIndex).toList := by
    intro k
    unfold ofRuns
    rw [List.filter_append, hshows.changes k, hshows.filter_retired]
  refine ⟨fun k htool => ?_, fun k hk => ?_, _, _, rfl, hshows.measured,
    fun c hc => isRetired_of_mem_retired hc, hshows.pairwise_changes hunique, ?_⟩
  · subst htool
    rw [hfilter, ← observationsFrom_eq_under hunique]
    unfold ofSeries
    congr 1
    cases hlast : (observationsFrom 0 k.name k.extra runs).getLast? with
    | none => simp
    | some o =>
      have hlacks := getLast?_observationsFrom k hlast
      cases hany : runs.getLast?.any (Run.measures k) with
      | true =>
        have hlate : ¬ o.runIndex + 1 < runs.length := by simp [hlacks, hany]
        simp [Option.filter, hlate]
      | false =>
        have hearly : o.runIndex + 1 < runs.length := hlacks.2 hany
        simp [Option.filter, hearly]
  · have hnone : under k (measurementsFrom tool 0 runs) = [] := by
      by_contra hne
      refine hk (hkeys ▸ (hshows.mem_keys_iff k).2 ?_)
      rw [hshows.seen k, Option.isSome_map, List.getLast?_isSome]
      exact hne
    rw [hfilter, hnone]
    rfl
  · rw [← hkeys]
    exact hshows.pairwise_retired runs.length

/-- A metric whose unit changes while another is left out from the second run on. -/
theorem ofRuns_series_two_metrics :
    let sample (name unit : String) : Sample := ⟨name, 1, none, unit, none, []⟩
    let run (date : ℤ) (benches : List Sample) : Run := ⟨.ofId "c" "", date, "t", benches, []⟩
    let runs := [run 1 [sample "m" "ns", sample "a" "B"], run 2 [sample "m" "us"],
      run 3 [sample "b" "B", sample "m" "us"]]
    let m : SeriesKey := ⟨"t", "m", none⟩
    let a : SeriesKey := ⟨"t", "a", none⟩
    (∀ r ∈ runs, (r.benches.map fun b => (b.name, b.extra)).Nodup) ∧
      (ofRuns "t" runs).filter (·.key = m) = [.added m 0 "ns", .unitChanged m "ns" "us" 1] ∧
      (ofRuns "t" runs).filter (·.key = a) = [.added a 0 "B", .retired a 0] := by
  intro sample run runs m a
  have hunique : ∀ r ∈ runs, (r.benches.map fun b => (b.name, b.extra)).Nodup := by
    simp [runs, run, sample]
  obtain ⟨hseries, -⟩ := ofRuns_series "t" hunique
  exact ⟨hunique, hseries m rfl, hseries a rfl⟩

end SchemaChange

end BenchHistory
