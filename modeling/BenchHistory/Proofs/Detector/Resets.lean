import BenchHistory.Proofs.Detector.Window

/-!
# Windows under any verdicts

The observations since the last reset are those handed to the window behind the last verdict that
emptied it, with the one that came in another unit if that was the cause (`SinceReset`). This is
what `block` adds up (`sinceReset_iff`), and whatever the verdicts are, a window that starts empty
holds the end of it (`Window.holds_block`).
-/

namespace BenchHistory

/-- Whether a verdict empties the window. -/
def Verdict.resets : Verdict → Bool
  | .discontinuity _ => true
  | .unitDrift _ _ => true
  | .baseline => false
  | .regression _ _ => false
  | .nominal _ _ => false

namespace Detector

/-- None of the verdicts empties the window. -/
def Unbroken (steps : List (Observation × Verdict)) : Prop :=
  ∀ p ∈ steps, p.2.resets = false

/-- The observations that a window was handed since it was last emptied. -/
inductive SinceReset : List (Observation × Verdict) → List Observation → Prop
  | all {steps : List (Observation × Verdict)} (h : Unbroken steps) :
    SinceReset steps (steps.map Prod.fst)
  | behind (before : List (Observation × Verdict)) (o : Observation) (cause : Discontinuity)
    {after : List (Observation × Verdict)} (h : Unbroken after) :
    SinceReset (before ++ (o, .discontinuity cause) :: after) (after.map Prod.fst)
  | anew (before : List (Observation × Verdict)) (o : Observation) (expected found : String)
    {after : List (Observation × Verdict)} (h : Unbroken after) :
    SinceReset (before ++ (o, .unitDrift expected found) :: after) (o :: after.map Prod.fst)

section

variable {steps after : List (Observation × Verdict)} {o : Observation} {v : Verdict}
  {os : List Observation}

theorem Unbroken.concat (h : Unbroken steps) (o : Observation) (hv : v.resets = false) :
    Unbroken (steps ++ [(o, v)]) :=
  List.forall_mem_append.2 ⟨h, List.forall_mem_singleton.2 hv⟩

theorem sinceBreak_of_not_resets (hv : v.resets = false) : sinceBreak os o v = os ++ [o] := by
  cases v with
  | discontinuity _ | unitDrift _ _ => cases hv
  | _ => rfl

theorem foldl_sinceBreak_of_unbroken (h : Unbroken after) (os : List Observation) :
    after.foldl (fun os p => sinceBreak os p.1 p.2) os = os ++ after.map Prod.fst := by
  induction after generalizing os with
  | nil => exact (List.append_nil os).symm
  | cons p after ih =>
    obtain ⟨hp, hafter⟩ := List.forall_mem_cons.1 h
    rw [List.foldl_cons, sinceBreak_of_not_resets hp, ih hafter, List.map_cons, List.append_assoc,
      List.singleton_append]

theorem block_append_of_unbroken (before : List (Observation × Verdict)) (h : Unbroken after) :
    block (before ++ after) = block before ++ after.map Prod.fst := by
  unfold block
  rw [List.foldl_append, foldl_sinceBreak_of_unbroken h]

/-- One more step keeps to what `sinceBreak` does. -/
theorem SinceReset.concat (h : SinceReset steps os) (o : Observation) (v : Verdict) :
    SinceReset (steps ++ [(o, v)]) (sinceBreak os o v) := by
  by_cases hv : v.resets = false
  · rw [sinceBreak_of_not_resets hv]
    cases h with
    | all h =>
      have hadded := SinceReset.all (h.concat o hv)
      rwa [List.map_append] at hadded
    | behind before o' cause h =>
      have hadded := SinceReset.behind before o' cause (h.concat o hv)
      rw [List.map_append] at hadded
      rwa [List.append_assoc, List.cons_append]
    | anew before o' expected found h =>
      have hadded := SinceReset.anew before o' expected found (h.concat o hv)
      rw [List.map_append, ← List.cons_append] at hadded
      rwa [List.append_assoc, List.cons_append]
  · cases v with
    | discontinuity cause => exact .behind steps o cause nofun
    | unitDrift expected found => exact .anew steps o expected found nofun
    | _ => exact absurd rfl hv

/-- Emptying and adding step by step comes to what stands behind the last reset. -/
theorem sinceReset_iff : SinceReset steps os ↔ os = block steps := by
  constructor
  · intro h
    cases h with
    | all h => exact (block_append_of_unbroken [] h).symm
    | behind before o cause h =>
      rw [List.append_cons, block_append_of_unbroken _ h, block_concat]
      rfl
    | anew before o expected found h =>
      rw [List.append_cons, block_append_of_unbroken _ h, block_concat]
      rfl
  · rintro rfl
    induction steps using List.reverseRecOn with
    | nil => exact .all nofun
    | append_singleton steps p ih =>
      obtain ⟨o, v⟩ := p
      rw [block_concat]
      exact ih.concat o v

end

/--
Whatever the verdicts are, a window that starts empty holds the last of the observations since its
last reset, as many as there is room for, in the order in which they came.
-/
theorem Window.holds_block (capacity : ℕ) (steps : List (Observation × Verdict)) :
    let room := max capacity 1
    let held := ((empty capacity).applyAll steps).observations
    (∀ os, SinceReset steps os ↔ os = block steps) ∧
      held = (block steps).rtake room ∧
      held.length = min room (block steps).length ∧
      held <:+ steps.map Prod.fst := by
  intro room held
  have hheld : held = (block steps).rtake room := observations_applyAll capacity steps
  refine ⟨fun os => sinceReset_iff, hheld, ?_, ?_⟩
  · rw [hheld, List.rtake, List.length_drop]
    omega
  · rw [hheld]
    exact (List.drop_suffix _ _).trans (block_suffix steps)

end Detector

end BenchHistory
