import BenchHistory.Proofs.Run.RoundTrip
import Mathlib.Data.String.Basic

/-!
# Comparing with oneself

Values are compared as floats and objects compare, so that not everything equals itself. What can
be read does (`Json.Valid.same_self`, `Sample.Valid.same_self`, `Commit.Valid.same_self`).
-/

namespace BenchHistory

theorem Binary64.beq_self {x : Float} (hfinite : x.isFinite = true) : (x == x) = true := by
  obtain ⟨s, hx⟩ | ⟨s, m, e, hm, hx⟩ := Binary64.unpacked_cases hfinite
  · rw [beq_eq, hx]
    cases s <;> rfl
  · have horder : (compare e e).then (compare m m) = .eq :=
      Ordering.then_eq_eq.2 ⟨compare_eq_iff_eq.2 rfl, compare_eq_iff_eq.2 rfl⟩
    rw [beq_eq, hx]
    cases s
    · show (some ((compare e e).then (compare m m)).swap == some .eq) = true
      rw [horder]
      rfl
    · show (some ((compare e e).then (compare m m)) == some .eq) = true
      rw [horder]
      rfl

namespace Number

theorem InRange.same_self {n : Number} (hn : n.InRange) : n.same n = true := by
  cases n with
  | whole n => exact beq_self_eq_true n
  | real x => exact Binary64.beq_self hn

end Number

namespace Json

theorem sameItems_self {xs : List Json} (h : ∀ x ∈ xs, x.same x = true) :
    sameItems xs xs = true := by
  induction xs with
  | nil => rfl
  | cons x xs ih =>
    obtain ⟨hx, hxs⟩ := List.forall_mem_cons.1 h
    unfold sameItems
    rw [hx, ih hxs]
    rfl

theorem sameMembers_of_get? {ms ns : List (String × Json)}
    (h : ∀ e ∈ ms, Keyed.get? e.1 ns = some e.2 ∧ e.2.same e.2 = true) :
    sameMembers ms ns = true := by
  induction ms with
  | nil => rfl
  | cons e ms ih =>
    obtain ⟨⟨hget, hsame⟩, hms⟩ := List.forall_mem_cons.1 h
    unfold sameMembers
    rw [hget, ih hms]
    simp only [hsame]
    rfl

theorem sameObject_self {ms : List (String × Json)} (hnames : (Keyed.keys ms).Nodup)
    (h : ∀ e ∈ ms, e.2.same e.2 = true) : sameObject ms ms = true := by
  unfold sameObject
  rw [beq_self_eq_true, Bool.true_and]
  exact sameMembers_of_get? fun e he => ⟨Keyed.get?_of_mem hnames he, h e he⟩

/-- What can be read is the same as itself. -/
theorem Valid.same_self {j : Json} (hj : j.Valid) : j.same j = true := by
  induction hj with
  | null => rfl
  | bool b => exact beq_self_eq_true b
  | number hn => exact hn.same_self
  | string s => exact beq_self_eq_true s
  | array _ ih => exact sameItems_self ih
  | object hnames _ ih => exact sameObject_self hnames ih

end Json

theorem Decode.Kept.same_self {fields : List String} {other : Keyed Json}
    (h : Decode.Kept fields other) : Json.sameObject other other = true :=
  Json.sameObject_self h.names_nodup fun e he => (h.valid e he).same_self

namespace Sample

theorem Valid.same_self {s : Sample} (hs : s.Valid) : s.same s = true := by
  unfold same
  simp [Binary64.beq_self hs.finite, hs.other.same_self]

end Sample

theorem Identity.Valid.same_self {i : Identity} (hi : i.Valid) : i.same i = true := by
  unfold Identity.same
  simp [hi.other.same_self]

theorem Identity.sameOption_self {i : Option Identity} (hi : ∀ a ∈ i, a.Valid) :
    Identity.sameOption i i = true := by
  cases i with
  | none => rfl
  | some a => exact (hi a rfl).same_self

theorem Commit.Valid.same_self {c : Commit} (hc : c.Valid) : c.same c = true := by
  have hauthor := Identity.sameOption_self hc.author
  have hcommitter := Identity.sameOption_self hc.committer
  unfold Commit.same
  simp [hauthor, hcommitter, hc.other.same_self]

end BenchHistory
