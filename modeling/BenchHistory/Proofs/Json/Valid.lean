import BenchHistory.Json.Draft
import BenchHistory.Proofs.Except
import Mathlib.Algebra.Group.Int.Defs
import Mathlib.Algebra.Order.Ring.Nat

/-!
# Valid values

A value is `Valid` if a reader can build it: its numbers are in range, and no object has a name
twice. `nesting` counts how deep containers stand inside one another. A draft that `Fits` has its
numbers in range and is not nested too deep; what it writes is then valid
(`Draft.Fits.of_toJson`), and the draft of a valid value fits and gives the value back
(`Json.Valid.fits_toDraft`, `Json.Valid.toJson_toDraft`).
-/

namespace BenchHistory

/-- The numbers that a value can hold: integers of 64 bits and finite floats. -/
def Number.InRange : Number → Prop
  | .whole n => -2 ^ 63 ≤ n ∧ n < 2 ^ 64
  | .real x => x.isFinite = true

namespace Json

/-- A value that a reader can build. -/
inductive Valid : Json → Prop
  | null : Valid .null
  | bool (b : Bool) : Valid (.bool b)
  | number {n : Number} (hn : n.InRange) : Valid (.number n)
  | string (s : String) : Valid (.string s)
  | array {xs : List Json} (hitems : ∀ x ∈ xs, Valid x) : Valid (.array xs)
  | object {ms : List (String × Json)} (hnames : (Keyed.keys ms).Nodup)
      (hvalues : ∀ e ∈ ms, Valid e.2) : Valid (.object ms)

mutual

/-- The number of containers that stand inside one another. -/
def nesting : Json → ℕ
  | .array xs => itemsNesting xs + 1
  | .object ms => membersNesting ms + 1
  | _ => 0

def itemsNesting : List Json → ℕ
  | [] => 0
  | x :: xs => max (nesting x) (itemsNesting xs)

def membersNesting : List (String × Json) → ℕ
  | [] => 0
  | (_, v) :: ms => max (nesting v) (membersNesting ms)

end

theorem itemsNesting_le_iff {xs : List Json} {n : ℕ} :
    itemsNesting xs ≤ n ↔ ∀ x ∈ xs, x.nesting ≤ n := by
  induction xs with
  | nil => simp [itemsNesting]
  | cons x xs ih => rw [itemsNesting, Nat.max_le, ih, List.forall_mem_cons]

theorem membersNesting_le_iff {ms : List (String × Json)} {n : ℕ} :
    membersNesting ms ≤ n ↔ ∀ e ∈ ms, e.2.nesting ≤ n := by
  induction ms with
  | nil => simp [membersNesting]
  | cons e ms ih => rw [membersNesting, Nat.max_le, ih, List.forall_mem_cons]

theorem nesting_array_le_iff {xs : List Json} {n : ℕ} :
    (array xs).nesting ≤ n + 1 ↔ ∀ x ∈ xs, x.nesting ≤ n := by
  rw [nesting, Nat.add_le_add_iff_right, itemsNesting_le_iff]

theorem nesting_object_le_iff {ms : List (String × Json)} {n : ℕ} :
    (object ms).nesting ≤ n + 1 ↔ ∀ e ∈ ms, e.2.nesting ≤ n := by
  rw [nesting, Nat.add_le_add_iff_right, membersNesting_le_iff]

theorem itemsToDraft_eq (xs : List Json) : itemsToDraft xs = xs.map toDraft := by
  induction xs with
  | nil => rfl
  | cons x xs ih => rw [itemsToDraft, ih, List.map_cons]

theorem membersToDraft_eq (ms : List (String × Json)) :
    membersToDraft ms = ms.map fun e => (e.1, e.2.toDraft) := by
  induction ms with
  | nil => rfl
  | cons e ms ih => rw [membersToDraft, ih, List.map_cons]

end Json

namespace Draft

/-- The numbers of a draft are in range, and it is nested at most so deep; gaps may be there. -/
inductive Fits : ℕ → Draft → Prop
  | null {n : ℕ} : Fits n .null
  | bool {n : ℕ} (b : Bool) : Fits n (.bool b)
  | number {n : ℕ} {a : Number} (ha : a.InRange) : Fits n (.number a)
  | string {n : ℕ} (s : String) : Fits n (.string s)
  | array {n : ℕ} {xs : List Draft} (hitems : ∀ x ∈ xs, Fits n x) : Fits (n + 1) (.array xs)
  | object {n : ℕ} {ms : List (String × Draft)} (hvalues : ∀ e ∈ ms, Fits n e.2) :
      Fits (n + 1) (.object ms)
  | gap {n : ℕ} (g : Gap) : Fits n (.gap g)

theorem itemsToJson_eq (xs : List Draft) : itemsToJson xs = xs.mapM toJson := by
  induction xs with
  | nil => rfl
  | cons x xs ih => rw [itemsToJson, ih, List.mapM_cons]

/-- What holds of the values of the members holds of those that are kept. -/
theorem forall_of_membersToJson {p : Json → Prop} {ms : List (String × Draft)}
    (hms : ∀ e ∈ ms, ∀ j, e.2.toJson = .ok j → p j) {done all : Keyed Json}
    (hdone : ∀ e ∈ done, p e.2) (hnames : (Keyed.keys done).Nodup)
    (h : membersToJson done ms = .ok all) : (Keyed.keys all).Nodup ∧ ∀ e ∈ all, p e.2 := by
  induction ms generalizing done with
  | nil =>
    cases h
    exact ⟨hnames, hdone⟩
  | cons e ms ih =>
    unfold membersToJson at h
    obtain ⟨j, hj, h⟩ := bind_eq_ok.1 h
    refine ih (fun e' he' => hms e' (List.mem_cons_of_mem e he')) ?_
      (Keyed.nodup_keys_put hnames e.1 j) h
    intro e' he'
    obtain hmem | heq := Keyed.mem_put he'
    · exact hdone e' hmem
    · rw [heq]
      exact hms e List.mem_cons_self j hj

/-- What a draft that fits writes is valid and nested no deeper. -/
theorem Fits.of_toJson {n : ℕ} {d : Draft} (hd : d.Fits n) {j : Json} (h : d.toJson = .ok j) :
    j.Valid ∧ j.nesting ≤ n := by
  induction hd generalizing j with
  | null => cases h; exact ⟨.null, Nat.zero_le _⟩
  | bool b => cases h; exact ⟨.bool b, Nat.zero_le _⟩
  | number ha => cases h; exact ⟨.number ha, Nat.zero_le _⟩
  | string s => cases h; exact ⟨.string s, Nat.zero_le _⟩
  | gap g => cases h
  | @array m xs hitems ih =>
    unfold toJson at h
    obtain ⟨ys, hys, h⟩ := bind_eq_ok.1 h
    cases h
    rw [itemsToJson_eq] at hys
    have hall : ∀ y ∈ ys, y.Valid ∧ y.nesting ≤ m := by
      intro y hy
      obtain ⟨x, hx, hxy⟩ := exists_of_mem_mapM hys hy
      exact ih x hx hxy
    exact ⟨.array fun y hy => (hall y hy).1,
      Json.nesting_array_le_iff.2 fun y hy => (hall y hy).2⟩
  | @object m ms hvalues ih =>
    unfold toJson at h
    obtain ⟨all, hall, h⟩ := bind_eq_ok.1 h
    cases h
    have hempty : (Keyed.keys ([] : Keyed Json)).Nodup := List.nodup_nil
    obtain ⟨hnames, hkept⟩ := forall_of_membersToJson (p := fun j => j.Valid ∧ j.nesting ≤ m)
      (fun e he j hj => ih e he hj) (by rintro e ⟨⟩) hempty hall
    exact ⟨.object hnames fun e he => (hkept e he).1,
      Json.nesting_object_le_iff.2 fun e he => (hkept e he).2⟩

end Draft

namespace Json

/-- The draft of a valid value fits, wherever there is room for the value. -/
theorem Valid.fits_toDraft {j : Json} (hj : j.Valid) {n : ℕ} (hn : j.nesting ≤ n) :
    j.toDraft.Fits n := by
  induction hj generalizing n with
  | null => exact .null
  | bool b => exact .bool b
  | number hrange => exact .number hrange
  | string s => exact .string s
  | @array xs hitems ih =>
    obtain ⟨m, rfl⟩ : ∃ m, n = m + 1 :=
      Nat.exists_eq_succ_of_ne_zero (by rw [nesting] at hn; omega)
    rw [toDraft, itemsToDraft_eq]
    refine .array fun d hd => ?_
    obtain ⟨x, hx, rfl⟩ := List.mem_map.1 hd
    exact ih x hx (nesting_array_le_iff.1 hn x hx)
  | @object ms hnames hvalues ih =>
    obtain ⟨m, rfl⟩ : ∃ m, n = m + 1 :=
      Nat.exists_eq_succ_of_ne_zero (by rw [nesting] at hn; omega)
    rw [toDraft, membersToDraft_eq]
    refine .object fun d hd => ?_
    obtain ⟨e, he, rfl⟩ := List.mem_map.1 hd
    exact ih e he (nesting_object_le_iff.1 hn e he)

/-- Members with names of their own are added one by one. -/
theorem membersToJson_membersToDraft {done ms : List (String × Json)}
    (hnames : (Keyed.keys (done ++ ms)).Nodup)
    (hvalues : ∀ e ∈ ms, e.2.toDraft.toJson = .ok e.2) :
    Draft.membersToJson done (membersToDraft ms) = .ok (done ++ ms) := by
  induction ms generalizing done with
  | nil =>
    rw [List.append_nil]
    rfl
  | cons e ms ih =>
    have hnew : e.1 ∉ Keyed.keys done := Keyed.not_mem_keys_of_nodup hnames
    have happend : done ++ e :: ms = done ++ [e] ++ ms := by simp
    rw [membersToDraft, Draft.membersToJson, hvalues e List.mem_cons_self]
    show Draft.membersToJson (Keyed.put e.1 e.2 done) (membersToDraft ms) = _
    rw [Keyed.put_of_not_mem hnew, happend]
    rw [happend] at hnames
    exact ih hnames fun e' he' => hvalues e' (List.mem_cons_of_mem e he')

/-- The draft of a valid value writes the value. -/
theorem Valid.toJson_toDraft {j : Json} (hj : j.Valid) : j.toDraft.toJson = .ok j := by
  induction hj with
  | null => rfl
  | bool b => rfl
  | number hrange => rfl
  | string s => rfl
  | @array xs hitems ih =>
    have hmap := mapM_eq_ok (f := fun x : Json => x.toDraft.toJson) (g := id) ih
    rw [List.map_id] at hmap
    rw [toDraft, Draft.toJson, Draft.itemsToJson_eq, itemsToDraft_eq, List.mapM_map]
    unfold Function.comp
    rw [hmap]
    rfl
  | @object ms hnames hvalues ih =>
    have hall : Draft.membersToJson [] (membersToDraft ms) = .ok ([] ++ ms) :=
      membersToJson_membersToDraft hnames ih
    rw [List.nil_append] at hall
    rw [toDraft, Draft.toJson, hall]
    rfl

end Json

end BenchHistory
