import BenchHistory.Detector.Config
import BenchHistory.Proofs.Json.Carried
import BenchHistory.Proofs.Run.Same

/-!
# Directions that are set

A direction is looked up by the name of the tool as it is spelled, then by a name that differs in
capitals only, and last it is told from the name. If no two names of the table differ in capitals
only, all this is a function of the folded name and of the folded table
(`Config.override?_eq_some_iff`): neither the spelling on either side nor the order of the table
counts (`Config.direction_of_distinct`).
-/

namespace BenchHistory

/-- Tools with names that differ in capitals only promise the same direction. -/
theorem Direction.ofTool_congr {s t : String} (h : Text.fold s = Text.fold t) :
    ofTool s = ofTool t := by
  unfold ofTool
  rw [h]

namespace Detector.Config

/-- The settings with the capitals of all tools in the table made small. -/
def folded (c : Config) : Config :=
  { c with directions := c.directions.map fun e => (Text.fold e.1, e.2) }

/-- No two tools of the table have names that differ in capitals only. -/
def Distinct (c : Config) : Prop :=
  (Keyed.keys c.folded.directions).Nodup

/-- The table sets a direction under the folded name of a tool. -/
def Sets (c : Config) (name : String) (d : Direction) : Prop :=
  ∃ e ∈ c.directions, Text.fold e.1 = name ∧ e.2 = d

section

variable {c c' : Config} {s t tool name : String} {d : Direction}

theorem keys_folded (c : Config) :
    Keyed.keys c.folded.directions = c.directions.map fun e => Text.fold e.1 :=
  List.map_map

theorem sets_folded : c.folded.Sets name d ↔ c.Sets name d := by
  constructor
  · rintro ⟨_, hfolded, hname, hd⟩
    obtain ⟨e, he, rfl⟩ := List.mem_map.1 hfolded
    rw [Text.fold_fold] at hname
    exact ⟨e, he, hname, hd⟩
  · rintro ⟨e, he, hname, hd⟩
    exact ⟨_, List.mem_map_of_mem he, (Text.fold_fold e.1).trans hname, hd⟩

theorem Distinct.folded (hc : c.Distinct) : c.folded.Distinct := by
  have hkeys : Keyed.keys c.folded.folded.directions = Keyed.keys c.folded.directions := by
    rw [keys_folded, keys_folded c]
    show (c.directions.map _).map _ = _
    rw [List.map_map]
    exact List.map_congr_left fun e _ => Text.fold_fold e.1
  unfold Distinct
  rw [hkeys]
  exact hc

theorem Distinct.perm (hc : c.Distinct) {ds : Keyed Direction} (hds : ds.Perm c.directions) :
    ({ c with directions := ds } : Config).Distinct := by
  unfold Distinct at hc ⊢
  rw [keys_folded] at hc ⊢
  exact (hds.map _).nodup_iff.2 hc

theorem Distinct.unique (hc : c.Distinct) {d' : Direction} (h : c.Sets name d)
    (h' : c.Sets name d') : d = d' := by
  obtain ⟨e, he, hname, rfl⟩ := h
  obtain ⟨e', he', hname', rfl⟩ := h'
  unfold Distinct at hc
  rw [keys_folded] at hc
  rw [List.inj_on_of_nodup_map hc he he' (hname.trans hname'.symm)]

theorem sets_of_override? (h : c.override? tool = some d) : c.Sets (Text.fold tool) d := by
  unfold override? at h
  split at h
  · next hexact =>
    cases h
    exact ⟨_, Keyed.mem_of_get? hexact, rfl, rfl⟩
  · obtain ⟨e, he, hd⟩ := Option.map_eq_some_iff.1 h
    exact ⟨e, List.mem_of_find?_eq_some he, by simpa using List.find?_some he, hd⟩

theorem isSome_override? (h : c.Sets (Text.fold tool) d) : (c.override? tool).isSome = true := by
  obtain ⟨e, he, hname, -⟩ := h
  unfold override?
  split
  · rfl
  · rw [Option.isSome_map, List.find?_isSome]
    exact ⟨e, he, by simpa using hname⟩

/-- If the names of the table are distinct, the lookup finds what is set under the folded name. -/
theorem override?_eq_some_iff (hc : c.Distinct) :
    c.override? tool = some d ↔ c.Sets (Text.fold tool) d := by
  refine ⟨sets_of_override?, fun h => ?_⟩
  obtain ⟨d', hfound⟩ := Option.isSome_iff_exists.1 (isSome_override? h)
  rw [hfound, hc.unique (sets_of_override? hfound) h]

theorem direction_congr (hc : c.Distinct) (hc' : c'.Distinct)
    (hsets : ∀ name d, c.Sets name d ↔ c'.Sets name d) (hst : Text.fold s = Text.fold t) :
    c.direction s = c'.direction t := by
  have hoverride : c.override? s = c'.override? t := by
    ext d
    rw [override?_eq_some_iff hc, override?_eq_some_iff hc', hst]
    exact hsets _ d
  unfold direction
  rw [hoverride, Direction.ofTool_congr hst]

end

/--
If no two tools of the table have names that differ in capitals only, then capitals in the name of a
tool, capitals in the table and the order of the table do not count for the direction: it is the one
that is set under the name, capitals or not, and the one that the name promises if none is set.
-/
theorem direction_of_distinct {c : Config} (hc : c.Distinct) :
    (∀ s t, Text.fold s = Text.fold t → c.direction s = c.direction t) ∧
      (∀ tool, c.folded.direction tool = c.direction tool) ∧
      (∀ ds : Keyed Direction, ds.Perm c.directions →
        ∀ tool, ({ c with directions := ds } : Config).direction tool = c.direction tool) ∧
      (∀ e ∈ c.directions, ∀ tool, Text.fold e.1 = Text.fold tool → c.direction tool = e.2) ∧
      ∀ tool, (∀ e ∈ c.directions, Text.fold e.1 ≠ Text.fold tool) →
        c.direction tool = .ofTool tool := by
  refine ⟨fun s t hst => direction_congr hc hc (fun _ _ => Iff.rfl) hst, fun tool => ?_,
    fun ds hds tool => ?_, fun e he tool hname => ?_, fun tool hnone => ?_⟩
  · exact direction_congr hc.folded hc (fun _ _ => sets_folded) rfl
  · refine direction_congr (hc.perm hds) hc (fun name d => ?_) rfl
    exact exists_congr fun e => and_congr_left' hds.mem_iff
  · unfold direction
    rw [(override?_eq_some_iff hc).2 ⟨e, he, hname, rfl⟩]
    rfl
  · have hunset : c.override? tool = none := by
      rw [Option.eq_none_iff_forall_ne_some]
      intro d hd
      obtain ⟨e, he, hname, -⟩ := sets_of_override? hd
      exact hnone e he hname
    unfold direction
    rw [hunset]
    rfl

/-- Two directions against what the names promise, found under any capitals and in any order. -/
theorem direction_of_distinct_two_tools :
    let c : Config := { Config.default with directions :=
      [("customThroughput", .biggerIsBetter), ("CargoBiggerIsBetter", .smallerIsBetter)] }
    c.Distinct ∧ c.direction "CUSTOMthroughput" = c.direction "customThroughput" ∧
      c.folded.direction "customThroughput" = c.direction "customThroughput" ∧
      ({ c with directions := c.directions.reverse } : Config).direction "cargobiggerisbetter" =
        c.direction "cargobiggerisbetter" ∧
      c.direction "cargobiggerisbetter" = .smallerIsBetter ∧
      c.direction "GoBiggerIsBetter" = .biggerIsBetter := by
  intro c
  have hc : c.Distinct := by
    unfold Distinct
    decide
  obtain ⟨hspelling, hfolded, horder, hset, hunset⟩ := direction_of_distinct hc
  refine ⟨hc, hspelling _ _ (by decide), hfolded _, horder _ (List.reverse_perm _) _,
    hset ("CargoBiggerIsBetter", .smallerIsBetter) (by decide) _ (by decide), ?_⟩
  exact (hunset "GoBiggerIsBetter" (by decide)).trans (by decide)

end Detector.Config

end BenchHistory
