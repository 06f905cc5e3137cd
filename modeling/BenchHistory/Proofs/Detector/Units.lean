import BenchHistory.Detector.Window
import BenchHistory.Proofs.Json.Valid
import Mathlib.Data.List.Induction
import Mathlib.Data.Prod.Lex

/-!
# The commonest unit

One unit of a window comes before every other one: it occurs more often, or as often and later
(`Predominant`). A window with observations has just one such unit, and it is the one that is
looked up (`predominantUnit?_eq_some_iff`). It can also be told from a table that one pass makes of
the window, with the count and the last place of every unit (`tally`). No two entries of the table
tie, so the greatest one is found in whatever order they stand (`lastGreatest?_of_perm`).
-/

namespace BenchHistory.Detector

/-! ## The greatest elements of a list -/

section

variable {α β : Type} [LinearOrder β] {measure : α → β} {l : List α}

/-- One more element: it is taken unless the best one so far is greater. -/
def takeGreater (measure : α → β) (best : Option α) (a : α) : Option α :=
  match best with
  | none => some a
  | some b => if measure b ≤ measure a then some a else some b

/-- The last one of the elements with the greatest measure. -/
def lastGreatest? (measure : α → β) (l : List α) : Option α :=
  l.foldl (takeGreater measure) none

theorem lastGreatest?_concat (measure : α → β) (l : List α) (a : α) :
    lastGreatest? measure (l ++ [a]) = takeGreater measure (lastGreatest? measure l) a := by
  simp only [lastGreatest?, List.foldl_append, List.foldl_cons, List.foldl_nil]

/-- What is taken is not exceeded by any element before it, and exceeds every one behind it. -/
theorem exists_lastGreatest? (measure : α → β) (hl : l ≠ []) :
    ∃ before a after, l = before ++ a :: after ∧ lastGreatest? measure l = some a ∧
      (∀ b ∈ before, measure b ≤ measure a) ∧ ∀ b ∈ after, measure b < measure a := by
  induction l using List.reverseRecOn with
  | nil => exact absurd rfl hl
  | append_singleton l x ih =>
    rw [lastGreatest?_concat]
    by_cases hnil : l = []
    · exact ⟨[], x, [], by rw [hnil, List.nil_append], by rw [hnil]; rfl, nofun, nofun⟩
    · obtain ⟨before, a, after, hsplit, ha, hbefore, hafter⟩ := ih hnil
      rw [ha]
      by_cases hle : measure a ≤ measure x
      · refine ⟨l, x, [], rfl, if_pos hle, fun b hb => ?_, nofun⟩
        rw [hsplit, List.mem_append, List.mem_cons] at hb
        obtain hb | rfl | hb := hb
        · exact (hbefore b hb).trans hle
        · exact hle
        · exact (hafter b hb).le.trans hle
      · refine ⟨before, a, after ++ [x], ?_, if_neg hle, hbefore, ?_⟩
        · rw [hsplit, List.append_assoc, List.cons_append]
        · exact List.forall_mem_append.2 ⟨hafter, List.forall_mem_singleton.2 (lt_of_not_ge hle)⟩

theorem greatest_of_lastGreatest? {a : α} (ha : lastGreatest? measure l = some a) :
    a ∈ l ∧ ∀ b ∈ l, measure b ≤ measure a := by
  have hl : l ≠ [] := by
    rintro rfl
    cases ha
  obtain ⟨before, a', after, hsplit, ha', hbefore, hafter⟩ := exists_lastGreatest? measure hl
  obtain rfl : a' = a := Option.some_inj.1 (ha'.symm.trans ha)
  rw [hsplit, List.forall_mem_append, List.forall_mem_cons]
  exact ⟨List.mem_append_right before List.mem_cons_self, hbefore, le_rfl,
    fun b hb => (hafter b hb).le⟩

theorem lastGreatest?_eq_none_iff : lastGreatest? measure l = none ↔ l = [] := by
  refine ⟨fun hnone => ?_, fun hl => by rw [hl]; rfl⟩
  by_contra hl
  obtain ⟨before, a, after, -, ha, -, -⟩ := exists_lastGreatest? measure hl
  rw [hnone] at ha
  cases ha

end

/-! ## Last places -/

/-- The last place at which a list has an element. -/
def LastAt (us : List String) (u : String) (i : ℕ) : Prop :=
  us[i]? = some u ∧ ∀ j, us[j]? = some u → j ≤ i

section

variable {us : List String} {u v : String} {i j : ℕ}

theorem LastAt.mem (h : LastAt us u i) : u ∈ us :=
  List.mem_of_getElem? h.1

theorem LastAt.place_unique (h : LastAt us u i) (h' : LastAt us u j) : i = j :=
  le_antisymm (h'.2 i h.1) (h.2 j h'.1)

theorem LastAt.place_ne (h : LastAt us u i) (h' : LastAt us v j) (hne : u ≠ v) : i ≠ j := by
  rintro rfl
  exact hne (Option.some_inj.1 (h.1.symm.trans h'.1))

theorem LastAt.lt_length {before after : List String} (h : LastAt (before ++ u :: after) v i)
    (hne : v ≠ u) (hlater : v ∉ after) : i < before.length := by
  by_contra hge
  have hget := h.1
  rw [List.getElem?_append_right (Nat.le_of_not_lt hge)] at hget
  obtain heq | hmem := List.mem_cons.1 (List.mem_of_getElem? hget)
  · exact hne heq
  · exact hlater hmem

theorem LastAt.length_le {before after : List String} (h : LastAt (before ++ u :: after) u i) :
    before.length ≤ i := by
  refine h.2 before.length ?_
  rw [List.getElem?_append_right le_rfl, Nat.sub_self, List.getElem?_cons_zero]

theorem lastAt_concat_self : LastAt (us ++ [u]) u i ↔ i = us.length := by
  have hlast : LastAt (us ++ [u]) u us.length := by
    refine ⟨List.getElem?_concat_length, fun j hj => ?_⟩
    have hlt := (List.getElem?_eq_some_iff.1 hj).1
    rw [List.length_append, List.length_singleton] at hlt
    omega
  refine ⟨fun h => h.place_unique hlast, ?_⟩
  rintro rfl
  exact hlast

theorem lastAt_concat_of_ne (hne : v ≠ u) : LastAt (us ++ [v]) u i ↔ LastAt us u i := by
  have hat (j : ℕ) : (us ++ [v])[j]? = some u ↔ us[j]? = some u := by
    rw [List.getElem?_append]
    split
    · rfl
    · next hge =>
      rw [List.getElem?_eq_none (Nat.le_of_not_lt hge), List.getElem?_singleton]
      split <;> simp [hne]
  simp only [LastAt, hat]

theorem exists_lastAt (h : u ∈ us) : ∃ i, LastAt us u i := by
  induction us using List.reverseRecOn with
  | nil => cases h
  | append_singleton us v ih =>
    by_cases hne : v = u
    · rw [hne]
      exact ⟨us.length, lastAt_concat_self.2 rfl⟩
    · have hmem : u ∈ us := by
        refine (List.mem_append.1 h).resolve_right fun hv => hne ?_
        exact (List.mem_singleton.1 hv).symm
      obtain ⟨i, hi⟩ := ih hmem
      exact ⟨i, (lastAt_concat_of_ne hne).2 hi⟩

end

/-! ## The unit before all others -/

/-- The units of observations, in their order. -/
def units (w : List Observation) : List String :=
  w.map (·.unit)

/-- A unit that occurs more often than every other one, or as often and later. -/
structure Predominant (w : List Observation) (u : String) : Prop where
  mem : u ∈ units w
  outdoes : ∀ v ∈ units w, v ≠ u → unitCount w v < unitCount w u ∨
    unitCount w v = unitCount w u ∧ ∃ i j, LastAt (units w) v i ∧ LastAt (units w) u j ∧ i < j

section

variable {w : List Observation} {u v : String}

theorem Predominant.unique (hu : Predominant w u) (hv : Predominant w v) : u = v := by
  by_contra hne
  obtain hlt | ⟨heq, i, j, hi, hj, hij⟩ := hu.outdoes v hv.mem (Ne.symm hne)
  · obtain hlt' | ⟨heq', -⟩ := hv.outdoes u hu.mem hne
    · omega
    · omega
  · obtain hlt' | ⟨-, j', i', hj', hi', hji⟩ := hv.outdoes u hu.mem hne
    · omega
    · rw [hj.place_unique hj', hi.place_unique hi'] at hij
      omega

theorem units_concat (w : List Observation) (o : Observation) :
    units (w ++ [o]) = units w ++ [o.unit] :=
  List.map_append

theorem units_eq_nil_iff : units w = [] ↔ w = [] :=
  List.map_eq_nil_iff

theorem unitCount_concat (w : List Observation) (o : Observation) (u : String) :
    unitCount (w ++ [o]) u = unitCount w u + if o.unit = u then 1 else 0 := by
  simp [unitCount, List.countP_append, List.countP_singleton]

theorem predominantUnit?_eq_lastGreatest? (w : List Observation) :
    predominantUnit? w = lastGreatest? (unitCount w) (units w) := by
  unfold lastGreatest? units
  rw [List.foldl_map]
  refine congrArg (fun step => w.foldl step none) (funext₂ fun best o => ?_)
  cases best <;> rfl

theorem predominantUnit?_eq_none_iff : predominantUnit? w = none ↔ w = [] := by
  rw [predominantUnit?_eq_lastGreatest?, lastGreatest?_eq_none_iff, units_eq_nil_iff]

/-- The unit that is looked up comes before all others. -/
theorem exists_predominant (hw : w ≠ []) : ∃ u, predominantUnit? w = some u ∧ Predominant w u := by
  rw [predominantUnit?_eq_lastGreatest?]
  obtain ⟨before, u, after, hsplit, hu, hbefore, hafter⟩ :=
    exists_lastGreatest? (unitCount w) (fun hnil => hw (units_eq_nil_iff.1 hnil))
  have hmem : u ∈ units w := by
    rw [hsplit]
    exact List.mem_append_right before List.mem_cons_self
  refine ⟨u, hu, hmem, fun v hv hne => ?_⟩
  by_cases hlater : v ∈ after
  · exact .inl (hafter v hlater)
  -- all of `v` stands before the place at which `u` was taken
  have hbehind : v ∈ before := by
    rw [hsplit, List.mem_append, List.mem_cons] at hv
    exact hv.resolve_right fun hor => hor.elim hne hlater
  obtain ⟨i, hi⟩ := exists_lastAt hv
  obtain ⟨j, hj⟩ := exists_lastAt hmem
  have hij : i < j := by
    have hi' := hi
    have hj' := hj
    rw [hsplit] at hi' hj'
    exact (hi'.lt_length hne hlater).trans_le hj'.length_le
  obtain hlt | heq := (hbefore v hbehind).lt_or_eq
  · exact .inl hlt
  · exact .inr ⟨heq, i, j, hi, hj, hij⟩

theorem predominantUnit?_eq_some_iff : predominantUnit? w = some u ↔ Predominant w u := by
  constructor
  · intro hu
    have hw : w ≠ [] := fun hnil => by
      rw [predominantUnit?_eq_none_iff.2 hnil] at hu
      cases hu
    obtain ⟨v, hv, hpredominant⟩ := exists_predominant hw
    obtain rfl : v = u := Option.some_inj.1 (hv.symm.trans hu)
    exact hpredominant
  · intro hu
    have hw : w ≠ [] := fun hnil => by
      have hmem := hu.mem
      rw [units_eq_nil_iff.2 hnil] at hmem
      cases hmem
    obtain ⟨v, hv, hpredominant⟩ := exists_predominant hw
    rw [hv, hpredominant.unique hu]

end

/-! ## A table of the units -/

/-- Counts one more observation, which stands at the given place. -/
def tallyUnit (table : Keyed (ℕ × ℕ)) (o : Observation × ℕ) : Keyed (ℕ × ℕ) :=
  let count := ((Keyed.get? o.1.unit table).getD (0, 0)).1
  Keyed.put o.1.unit (count + 1, o.2) table

/-- How often each unit occurs and where it does so last, told in one pass. -/
def tally (w : List Observation) : Keyed (ℕ × ℕ) :=
  w.zipIdx.foldl tallyUnit []

section

variable {w : List Observation} {u : String} {count place : ℕ}

theorem tally_concat (w : List Observation) (o : Observation) :
    tally (w ++ [o]) = tallyUnit (tally w) (o, w.length) := by
  unfold tally
  rw [List.zipIdx_append, List.foldl_append, Nat.zero_add]
  rfl

theorem nodup_keys_tally (w : List Observation) : (Keyed.keys (tally w)).Nodup := by
  induction w using List.reverseRecOn with
  | nil => exact List.nodup_nil
  | append_singleton w o ih =>
    rw [tally_concat]
    exact Keyed.nodup_keys_put ih _ _

theorem count_tally (w : List Observation) (u : String) :
    ((Keyed.get? u (tally w)).getD (0, 0)).1 = unitCount w u := by
  induction w using List.reverseRecOn with
  | nil => rfl
  | append_singleton w o ih =>
    rw [tally_concat, unitCount_concat, ← ih]
    unfold tallyUnit
    by_cases hu : o.unit = u
    · rw [hu, Keyed.get?_put_self, if_pos rfl]
      rfl
    · rw [Keyed.get?_put_of_ne (Ne.symm hu), if_neg hu, Nat.add_zero]

theorem get?_tally_iff : Keyed.get? u (tally w) = some (count, place) ↔
    count = unitCount w u ∧ LastAt (units w) u place := by
  induction w using List.reverseRecOn with
  | nil => simp [tally, LastAt, units]
  | append_singleton w o ih =>
    rw [tally_concat, units_concat, unitCount_concat]
    unfold tallyUnit
    by_cases hu : o.unit = u
    · rw [hu, Keyed.get?_put_self, count_tally, lastAt_concat_self, if_pos rfl, Option.some_inj,
        Prod.mk.injEq, units, List.length_map, eq_comm (a := count), eq_comm (a := place)]
    · rw [Keyed.get?_put_of_ne (Ne.symm hu), ih, lastAt_concat_of_ne hu, if_neg hu, Nat.add_zero]

theorem mem_tally_iff : (u, count, place) ∈ tally w ↔
    count = unitCount w u ∧ LastAt (units w) u place := by
  rw [← get?_tally_iff]
  exact ⟨fun h => Keyed.get?_of_mem (nodup_keys_tally w) h, Keyed.mem_of_get?⟩

theorem tally_eq_nil_iff : tally w = [] ↔ w = [] := by
  refine ⟨fun hnil => ?_, fun hw => by rw [hw]; rfl⟩
  by_contra hw
  obtain ⟨u, -, hu⟩ := exists_predominant hw
  obtain ⟨i, hi⟩ := exists_lastAt hu.mem
  have hmem := mem_tally_iff.2 ⟨rfl, hi⟩
  rw [hnil] at hmem
  cases hmem

theorem predominant_of_greatest (hmem : (u, count, place) ∈ tally w)
    (hgreatest : ∀ e ∈ tally w, toLex e.2 ≤ toLex (count, place)) : Predominant w u := by
  obtain ⟨rfl, hplace⟩ := mem_tally_iff.1 hmem
  refine ⟨hplace.mem, fun v hv hne => ?_⟩
  obtain ⟨i, hi⟩ := exists_lastAt hv
  obtain hlt | ⟨heq, hle⟩ := Prod.Lex.toLex_le_toLex.1 (hgreatest _ (mem_tally_iff.2 ⟨rfl, hi⟩))
  · exact .inl hlt
  · -- two units do not occur at one place, so there is no tie
    exact .inr ⟨heq, i, place, hi, hplace, lt_of_le_of_ne hle (hi.place_ne hplace hne)⟩

/-- The greatest entry is that of the commonest unit, in whatever order the table is read. -/
theorem lastGreatest?_of_perm {entries : Keyed (ℕ × ℕ)} (h : entries.Perm (tally w)) :
    (lastGreatest? (fun e => toLex e.2) entries).map Prod.fst = predominantUnit? w := by
  cases hfound : lastGreatest? (fun e : String × ℕ × ℕ => toLex e.2) entries with
  | none =>
    rw [lastGreatest?_eq_none_iff.1 hfound] at h
    rw [predominantUnit?_eq_none_iff.2 (tally_eq_nil_iff.1 h.symm.eq_nil), Option.map_none]
  | some e =>
    obtain ⟨u, count, place⟩ := e
    obtain ⟨hmem, hgreatest⟩ := greatest_of_lastGreatest? hfound
    have hu : Predominant w u := predominant_of_greatest (h.mem_iff.1 hmem) fun e he =>
      hgreatest e (h.mem_iff.2 he)
    rw [predominantUnit?_eq_some_iff.2 hu, Option.map_some]

end

/--
There is a commonest unit unless there are no observations. It is the only one that occurs more
often than every other one, or as often and later. A table of counts and last places tells the same
unit, whatever the order of its entries.
-/
theorem predominantUnit?_of_any_order (w : List Observation) :
    (predominantUnit? w = none ↔ w = []) ∧
      (w ≠ [] → ∃! u, Predominant w u) ∧
      (∀ u, predominantUnit? w = some u ↔ Predominant w u) ∧
      ∀ entries : Keyed (ℕ × ℕ), entries.Perm (tally w) →
        (lastGreatest? (fun e => toLex e.2) entries).map Prod.fst = predominantUnit? w := by
  refine ⟨predominantUnit?_eq_none_iff, fun hw => ?_, fun u => predominantUnit?_eq_some_iff,
    fun entries => lastGreatest?_of_perm⟩
  obtain ⟨u, -, hu⟩ := exists_predominant hw
  exact ⟨u, hu, fun v hv => hv.unique hu⟩

/-- Two units that occur equally often, and their table read backwards. -/
theorem predominantUnit?_of_any_order_tied :
    let w : List Observation := [⟨1, "a", 4, "s", 0⟩, ⟨2, "b", 4, "ms", 1⟩, ⟨3, "c", 4, "ms", 2⟩,
      ⟨4, "d", 4, "s", 3⟩]
    let entries : Keyed (ℕ × ℕ) := [("ms", 2, 2), ("s", 2, 3)]
    w ≠ [] ∧ entries.Perm (tally w) ∧ entries ≠ tally w ∧ Predominant w "s" ∧
      (lastGreatest? (fun e => toLex e.2) entries).map Prod.fst = some "s" := by
  intro w entries
  have hperm : entries.Perm (tally w) := by decide
  have hfound : predominantUnit? w = some "s" := by decide
  obtain ⟨-, -, hiff, horder⟩ := predominantUnit?_of_any_order w
  exact ⟨by decide, hperm, by decide, (hiff "s").1 hfound, (horder entries hperm).trans hfound⟩

end BenchHistory.Detector
