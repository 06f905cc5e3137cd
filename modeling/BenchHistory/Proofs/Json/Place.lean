import BenchHistory.Json.Draft
import BenchHistory.Json.Printer
import Mathlib.Data.Nat.Notation
import Mathlib.Data.List.Basic

/-!
# Places in values

The names and indices on the way to a part of a value are its place. In the text of the value there
are characters that stand for the part, and with another value at the place nothing else in the text
is different (`textAt_of_at?`).
-/

namespace BenchHistory

/-- From a value to a part of it. -/
inductive Hop where
  | member (name : String)
  | item (index : ℕ)

namespace Draft

/-- The part that one gets to. Of a repeated name the last member counts. -/
def part? : Hop → Draft → Option Draft
  | .member k, .object ms => Keyed.get? k ms.reverse
  | .item i, .array xs => xs[i]?
  | _, _ => none

/-- What is at a place. -/
def at? : List Hop → Draft → Option Draft
  | [], d => some d
  | s :: path, d => (d.part? s).bind (at? path)

end Draft

namespace Json

/-- The part that one gets to. -/
def part? : Hop → Json → Option Json
  | .member k, j => j.get? k
  | .item i, .array xs => xs[i]?
  | _, _ => none

/-- What is at a place. -/
def at? : List Hop → Json → Option Json
  | [], j => some j
  | s :: path, j => (j.part? s).bind (at? path)

/-- The value with `w` at a place. -/
def replace (w : Json) : List Hop → Json → Json
  | [], _ => w
  | .member k :: path, .object ms =>
    match Keyed.get? k ms with
    | some v => .object (Keyed.put k (replace w path v) ms)
    | none => .object ms
  | .item i :: path, .array xs => .array (xs.modify i (replace w path))
  | _, j => j

/--
The characters that stand for what is at a place. The text of the value has them between two parts
that stay as they are whatever value is at the place.
-/
def TextAt (l : Layout) (j : Json) (path : List Hop) (cs : List Char) : Prop :=
  ∃ before after depth, text l 0 j = before ++ cs ++ after ∧
    ∀ w, text l 0 (replace w path j) = before ++ text l depth w ++ after

/-! ## One part -/

variable (l : Layout) (depth : ℕ)

theorem exists_itemsText {xs : List Json} {i : ℕ} (hi : i < xs.length) :
    ∃ before after, ∀ f : Json → Json,
      itemsText l depth (xs.modify i f) = before ++ text l (depth + 1) (f xs[i]) ++ after := by
  induction xs generalizing i with
  | nil => cases hi
  | cons x xs ih =>
    cases i with
    | zero =>
      refine ⟨',' :: l.line (depth + 1), itemsText l depth xs, fun f => ?_⟩
      rw [List.modify_zero_cons, itemsText]
      rfl
    | succ i =>
      obtain ⟨before, after, hall⟩ := ih (Nat.lt_of_succ_lt_succ hi)
      refine ⟨',' :: l.line (depth + 1) ++ text l (depth + 1) x ++ before, after, fun f => ?_⟩
      rw [List.modify_succ_cons, itemsText, hall]
      simp only [List.append_assoc, List.cons_append, List.getElem_cons_succ]

/-- The text of an array around one of its items. -/
theorem exists_text_item {xs : List Json} {i : ℕ} (hi : i < xs.length) :
    ∃ before after, ∀ f : Json → Json,
      text l depth (.array (xs.modify i f)) = before ++ text l (depth + 1) (f xs[i]) ++ after := by
  cases xs with
  | nil => cases hi
  | cons x xs =>
    cases i with
    | zero =>
      refine ⟨'[' :: l.line (depth + 1), itemsText l depth xs, fun f => ?_⟩
      rw [List.modify_zero_cons, text]
      rfl
    | succ i =>
      obtain ⟨before, after, hall⟩ := exists_itemsText l depth (Nat.lt_of_succ_lt_succ hi)
      refine ⟨'[' :: l.line (depth + 1) ++ text l (depth + 1) x ++ before, after, fun f => ?_⟩
      rw [List.modify_succ_cons, text, hall]
      simp only [List.append_assoc, List.cons_append, List.getElem_cons_succ]

theorem exists_membersText_put {k : String} {v : Json} {ms : List (String × Json)}
    (hv : Keyed.get? k ms = some v) :
    ∃ before after, ∀ w,
      membersText l depth (Keyed.put k w ms) = before ++ text l (depth + 1) w ++ after := by
  induction ms with
  | nil => cases hv
  | cons e ms ih =>
    obtain ⟨j, u⟩ := e
    unfold Keyed.get? at hv
    split at hv
    · next hk =>
      refine ⟨',' :: l.line (depth + 1) ++ stringText j ++ ':' :: l.gap, membersText l depth ms,
        fun w => ?_⟩
      rw [Keyed.put, if_pos hk, membersText]
    · next hk =>
      obtain ⟨before, after, hall⟩ := ih hv
      refine ⟨',' :: l.line (depth + 1) ++ stringText j ++ ':' :: l.gap ++ text l (depth + 1) u ++
        before, after, fun w => ?_⟩
      rw [Keyed.put, if_neg hk, membersText, hall]
      simp only [List.append_assoc]

/-- The text of an object around one of its members. -/
theorem exists_text_member {k : String} {v : Json} {ms : List (String × Json)}
    (hv : Keyed.get? k ms = some v) :
    ∃ before after, ∀ w,
      text l depth (.object (Keyed.put k w ms)) = before ++ text l (depth + 1) w ++ after := by
  cases ms with
  | nil => cases hv
  | cons e ms =>
    obtain ⟨j, u⟩ := e
    unfold Keyed.get? at hv
    split at hv
    · next hk =>
      refine ⟨'{' :: l.line (depth + 1) ++ stringText j ++ ':' :: l.gap, membersText l depth ms,
        fun w => ?_⟩
      rw [Keyed.put, if_pos hk, text]
    · next hk =>
      obtain ⟨before, after, hall⟩ := exists_membersText_put l depth hv
      refine ⟨'{' :: l.line (depth + 1) ++ stringText j ++ ':' :: l.gap ++ text l (depth + 1) u ++
        before, after, fun w => ?_⟩
      rw [Keyed.put, if_neg hk, text, hall]
      simp only [List.append_assoc]

/-! ## Places -/

theorem replace_member {k : String} {c w : Json} {ms : List (String × Json)} {path : List Hop}
    (hc : Keyed.get? k ms = some c) :
    replace w (.member k :: path) (.object ms) =
      .object (Keyed.put k (replace w path c) ms) := by
  rw [replace, hc]

theorem exists_text_replace {path : List Hop} {j v : Json} (hv : j.at? path = some v) :
    ∃ before after depth', text l depth j = before ++ text l depth' v ++ after ∧
      ∀ w, text l depth (replace w path j) = before ++ text l depth' w ++ after := by
  induction path generalizing j depth with
  | nil =>
    cases hv
    exact ⟨[], [], depth, by simp, fun w => by simp [replace]⟩
  | cons s path ih =>
    obtain ⟨c, hc, hv⟩ := Option.bind_eq_some_iff.1 hv
    obtain ⟨before, after, depth', hsame, hall⟩ := ih (depth + 1) hv
    -- the part has a place of its own, and the one inside it is as deep as the rest of the way
    suffices h : ∃ before' after', text l depth j = before' ++ text l (depth + 1) c ++ after' ∧
        ∀ w, text l depth (replace w (s :: path) j) =
          before' ++ text l (depth + 1) (replace w path c) ++ after' by
      obtain ⟨before', after', hsame', hall'⟩ := h
      refine ⟨before' ++ before, after ++ after', depth', ?_, fun w => ?_⟩
      · rw [hsame', hsame]
        simp only [List.append_assoc]
      · rw [hall', hall]
        simp only [List.append_assoc]
    cases s with
    | member k =>
      cases j with
      | object ms =>
        have hget : Keyed.get? k ms = some c := hc
        obtain ⟨before', after', hall'⟩ := exists_text_member l depth hget
        refine ⟨before', after', ?_, fun w => ?_⟩
        · rw [← hall', Keyed.put_of_get? hget]
        · rw [replace_member hget]
          exact hall' _
      | _ => cases hc
    | item i =>
      cases j with
      | array xs =>
        obtain ⟨hi, rfl⟩ := List.getElem?_eq_some_iff.1 hc
        obtain ⟨before', after', hall'⟩ := exists_text_item l depth hi
        refine ⟨before', after', ?_, fun w => hall' (replace w path)⟩
        have hid := hall' id
        rwa [List.modify_id] at hid
      | _ => cases hc

/-- There are characters that stand for what is at a place. -/
theorem textAt_of_at? {j v : Json} {path : List Hop} (hv : j.at? path = some v) :
    ∃ depth, j.TextAt l path (text l depth v) := by
  obtain ⟨before, after, depth, hsame, hall⟩ := exists_text_replace l 0 hv
  exact ⟨depth, before, after, depth, hsame, hall⟩

end Json

end BenchHistory
