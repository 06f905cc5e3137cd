import BenchHistory.Proofs.Json.Carried
import BenchHistory.Proofs.Run.RoundTrip

/-!
# What runs carry over

Each record says how the members of its fields are carried over, and its reader does just so
(`Identity.carries_decode`, `Commit.carries_decode`, `Sample.carries_decode`,
`Run.carries_decode`). The number that is written for the value of a sample is its measured value
(`Sample.value_of_decode`).
-/

namespace BenchHistory

open Decode

theorem mem_field?_iff {name k : String} {o : Option Json} {v : Json} :
    (k, v) ∈ Json.field? name o ↔ k = name ∧ o = some v := by
  cases o with
  | none => simp [Json.field?]
  | some j => simp [Json.field?, eq_comm]

theorem mem_textField_iff {name k : String} {s : Option String} {v : Json} :
    (k, v) ∈ textField name s ↔ k = name ∧ s.map .string = some v :=
  mem_field?_iff

namespace Identity

/-- How the members of the fields are carried over. -/
def parts : Keyed Carry := [("email", .plain), ("name", .plain), ("username", .plain)]

/-- How an identity is carried over. -/
def carry : Carry := .record parts

theorem readable_carry : carry.Readable := by
  refine Carry.readable_record ?_
  simp only [parts, List.forall_mem_cons]
  exact ⟨Carry.readable_plain, Carry.readable_plain, Carry.readable_plain, by simp⟩

/-- The members of the fields that have been read so far. -/
def Slots.own (s : Slots) : Keyed (Option Json) :=
  [("email", s.email.join.map .string), ("name", s.name.join.map .string),
    ("username", s.username.join.map .string)]

theorem Slots.taken {n : ℕ} {s t : Slots} {e : String × Draft} (he : e.2.Fits n)
    (h : s.take e = .ok t) : Taken parts e s.own s.other t.own t.other := by
  unfold Slots.take at h
  split at h
  case h_4 k d hemail hname husername =>
    obtain ⟨a, ha, h⟩ := bind_eq_ok.1 h
    cases h
    have hk : k ∉ Keyed.keys parts := by
      simp only [parts, Keyed.keys, List.map_cons, List.map_nil, List.mem_cons, List.not_mem_nil,
        or_false, not_or]
      exact ⟨hemail, hname, husername⟩
    exact .other hk ha
  all_goals
    obtain ⟨a, ha, h⟩ := bind_eq_ok.1 h
    cases h
    exact taken_fill_optional carries_string he ha rfl rfl

theorem mem_own_of_slots {s : Slots} {k : String} {v : Json}
    (h : Keyed.get? k s.own = some (some v)) : (k, v) ∈ s.finish.own := by
  have hmem := Keyed.mem_of_get? h
  simp only [Slots.own, List.mem_cons, Prod.mk.injEq, List.not_mem_nil, or_false] at hmem
  simp only [own, Slots.finish, List.mem_append, mem_textField_iff]
  obtain ⟨hk, hv⟩ | ⟨hk, hv⟩ | ⟨hk, hv⟩ := hmem
  · exact .inl (.inl ⟨hk, hv.symm⟩)
  · exact .inl (.inr ⟨hk, hv.symm⟩)
  · exact .inr ⟨hk, hv.symm⟩

theorem keys_own_sublist (i : Identity) : List.Sublist (Keyed.keys i.own) fields := by
  unfold own
  simp only [Keyed.keys_append]
  exact ((keys_field?_sublist _ _).append (keys_field?_sublist _ _)).append
    (keys_field?_sublist _ _)

theorem carries_decode : Carries decode toJson carry := by
  intro n d i hd h
  have hvalid := (valid_of_decode hd h).1
  cases hd with
  | object hvalues =>
    obtain ⟨s, hs, h⟩ := bind_eq_ok.1 h
    cases h
    exact record_of_foldlM Slots.own Slots.other (fun s t e he => Slots.taken he) hvalues rfl hs
      (fun k v => mem_own_of_slots) (keys_own_sublist _).subset hvalid.toJson
  | _ => cases h

end Identity

namespace Commit

def parts : Keyed Carry :=
  [("author", Identity.carry), ("committer", Identity.carry), ("distinct", .plain), ("id", .plain),
    ("message", .plain), ("timestamp", .plain), ("tree_id", .plain), ("url", .plain)]

def carry : Carry := .record parts

theorem readable_carry : carry.Readable := by
  refine Carry.readable_record ?_
  simp only [parts, List.forall_mem_cons]
  exact ⟨Identity.readable_carry, Identity.readable_carry, Carry.readable_plain,
    Carry.readable_plain, Carry.readable_plain, Carry.readable_plain, Carry.readable_plain,
    Carry.readable_plain, by simp⟩

/-- The members of the fields that have been read so far. -/
def Slots.own (s : Slots) : Keyed (Option Json) :=
  [("author", s.author.join.map Identity.toJson),
    ("committer", s.committer.join.map Identity.toJson),
    ("distinct", s.distinct.join.map .bool), ("id", s.id.map .string),
    ("message", s.message.map .string), ("timestamp", s.timestamp.join.map .string),
    ("tree_id", s.treeId.join.map .string), ("url", s.url.join.map .string)]

theorem Slots.taken {n : ℕ} {s t : Slots} {e : String × Draft} (he : e.2.Fits n)
    (h : s.take e = .ok t) : Taken parts e s.own s.other t.own t.other := by
  unfold Slots.take at h
  split at h
  case h_1 | h_2 =>
    obtain ⟨a, ha, h⟩ := bind_eq_ok.1 h
    cases h
    exact taken_fill_optional Identity.carries_decode he ha rfl rfl
  case h_3 =>
    obtain ⟨a, ha, h⟩ := bind_eq_ok.1 h
    cases h
    exact taken_fill_optional carries_bool he ha rfl rfl
  case h_4 | h_5 =>
    obtain ⟨a, ha, h⟩ := bind_eq_ok.1 h
    cases h
    exact taken_fill carries_string he ha rfl rfl
  case h_6 | h_7 | h_8 =>
    obtain ⟨a, ha, h⟩ := bind_eq_ok.1 h
    cases h
    exact taken_fill_optional carries_string he ha rfl rfl
  case h_9 k d hauthor hcommitter hdistinct hid hmessage htimestamp htree hurl =>
    obtain ⟨a, ha, h⟩ := bind_eq_ok.1 h
    cases h
    have hk : k ∉ Keyed.keys parts := by
      simp only [parts, Keyed.keys, List.map_cons, List.map_nil, List.mem_cons, List.not_mem_nil,
        or_false, not_or]
      exact ⟨hauthor, hcommitter, hdistinct, hid, hmessage, htimestamp, htree, hurl⟩
    exact .other hk ha

theorem mem_own_of_slots {s : Slots} {k : String} {v : Json}
    (h : Keyed.get? k s.own = some (some v)) : (k, v) ∈ s.finish.own := by
  have hmem := Keyed.mem_of_get? h
  simp only [Slots.own, List.mem_cons, Prod.mk.injEq, List.not_mem_nil, or_false] at hmem
  unfold own
  simp only [List.mem_append, mem_textField_iff, mem_field?_iff, List.mem_cons, Prod.mk.injEq,
    List.not_mem_nil, or_false]
  obtain ⟨hk, hv⟩ | ⟨hk, hv⟩ | ⟨hk, hv⟩ | ⟨hk, hv⟩ | ⟨hk, hv⟩ | ⟨hk, hv⟩ | ⟨hk, hv⟩ | ⟨hk, hv⟩ :=
    hmem
  case inr.inr.inr.inl | inr.inr.inr.inr.inl =>
    obtain ⟨x, hx, rfl⟩ := Option.map_eq_some_iff.1 hv.symm
    simp [Slots.finish, hk, hx]
  all_goals simp [Slots.finish, hk, ← hv]

theorem carries_decode : Carries decode toJson carry := by
  intro n d c hd h
  have hvalid := (valid_of_decode hd h).1
  cases hd with
  | object hvalues =>
    obtain ⟨s, hs, h⟩ := bind_eq_ok.1 h
    cases h
    exact record_of_foldlM Slots.own Slots.other (fun s t e he => Slots.taken he) hvalues rfl hs
      (fun k v => mem_own_of_slots) (keys_own_sublist _).subset hvalid.toJson
  | _ => cases h

end Commit

/-! ## Measured values -/

/-- Both zeros compare as equal, and so does any finite float with itself. -/
theorem plainZero_beq {x : Float} (hfinite : x.isFinite = true) : (plainZero x == x) = true := by
  unfold plainZero
  obtain ⟨s, hx⟩ | ⟨s, m, e, hm, hx⟩ := Binary64.unpacked_cases hfinite
  · split
    · rw [Binary64.beq_eq, hx, Binary64.unpacked_zero]
      cases s <;> rfl
    · rw [Binary64.beq_eq, hx]
      cases s <;> rfl
  · split
    · next hzero =>
      rw [Binary64.beq_eq, hx, Binary64.unpacked_zero] at hzero
      cases s <;> cases hzero
    · rw [Binary64.beq_eq, hx]
      unfold Float.Model.UnpackedFloat.beq Float.Model.UnpackedFloat.compare
      cases s <;> simp

/-- A finite float is written as a number that is read as an equal one. -/
theorem carries_float : Carries float measured .number := by
  intro n d x hd h
  have hfinite := isFinite_of_float hd h
  have hread := float_measured hfinite
  cases d with
  | number a =>
    cases h
    obtain ⟨m, hm⟩ : ∃ m, measured a.toFloat = .number m := by
      unfold measured
      split
      · split <;> exact ⟨_, rfl⟩
      · exact ⟨_, rfl⟩
    rw [hm] at hread
    have htoFloat : m.toFloat = plainZero a.toFloat := Except.ok.inj hread
    refine ⟨a, m, rfl, hm, ?_⟩
    rw [htoFloat]
    exact plainZero_beq hfinite
  | _ => cases h

namespace Sample

def parts : Keyed Carry :=
  [("name", .plain), ("value", .number), ("range", .plain), ("unit", .plain), ("extra", .plain)]

def carry : Carry := .record parts

theorem readable_carry : carry.Readable := by
  refine Carry.readable_record ?_
  simp only [parts, List.forall_mem_cons]
  exact ⟨Carry.readable_plain, Carry.readable_number, Carry.readable_plain, Carry.readable_plain,
    Carry.readable_plain, by simp⟩

/-- The members of the fields that have been read so far. -/
def Slots.own (s : Slots) : Keyed (Option Json) :=
  [("name", s.name.map .string), ("value", s.value.map measured),
    ("range", s.range.join.map .string), ("unit", s.unit.map .string),
    ("extra", s.extra.join.map .string)]

theorem Slots.taken {n : ℕ} {s t : Slots} {e : String × Draft} (he : e.2.Fits n)
    (h : s.take e = .ok t) : Taken parts e s.own s.other t.own t.other := by
  unfold Slots.take at h
  split at h
  case h_1 | h_4 =>
    obtain ⟨a, ha, h⟩ := bind_eq_ok.1 h
    cases h
    exact taken_fill carries_string he ha rfl rfl
  case h_2 =>
    obtain ⟨a, ha, h⟩ := bind_eq_ok.1 h
    cases h
    exact taken_fill carries_float he ha rfl rfl
  case h_3 | h_5 =>
    obtain ⟨a, ha, h⟩ := bind_eq_ok.1 h
    cases h
    exact taken_fill_optional carries_string he ha rfl rfl
  case h_6 k d hname hvalue hrange hunit hextra =>
    obtain ⟨a, ha, h⟩ := bind_eq_ok.1 h
    cases h
    have hk : k ∉ Keyed.keys parts := by
      simp only [parts, Keyed.keys, List.map_cons, List.map_nil, List.mem_cons, List.not_mem_nil,
        or_false, not_or]
      exact ⟨hname, hvalue, hrange, hunit, hextra⟩
    exact .other hk ha

theorem mem_own_of_slots {t : Slots} {s : Sample} (hs : t.finish = .ok s) {k : String} {v : Json}
    (h : Keyed.get? k t.own = some (some v)) : (k, v) ∈ s.own := by
  have hmem := Keyed.mem_of_get? h
  simp only [Slots.own, List.mem_cons, Prod.mk.injEq, List.not_mem_nil, or_false] at hmem
  obtain ⟨name, hname, hs⟩ := bind_eq_ok.1 hs
  obtain ⟨value, hvalue, hs⟩ := bind_eq_ok.1 hs
  cases hs
  rw [required_eq_ok] at hname hvalue
  unfold own
  simp only [List.mem_append, mem_textField_iff, List.mem_cons, Prod.mk.injEq, List.not_mem_nil,
    or_false]
  obtain ⟨hk, hv⟩ | ⟨hk, hv⟩ | ⟨hk, hv⟩ | ⟨hk, hv⟩ | ⟨hk, hv⟩ := hmem
  case inr.inr.inr.inl =>
    obtain ⟨x, hx, rfl⟩ := Option.map_eq_some_iff.1 hv.symm
    simp [hk, hx]
  all_goals simp_all

theorem keys_own_sublist (s : Sample) : List.Sublist (Keyed.keys s.own) fields := by
  unfold own
  simp only [Keyed.keys_append]
  exact (((List.Sublist.refl ["name", "value"]).append (keys_field?_sublist _ _)).append
    (List.Sublist.refl ["unit"])).append (keys_field?_sublist _ _)

theorem carries_decode : Carries decode toJson carry := by
  intro n d s hd h
  have hvalid := (valid_of_decode hd h).1
  cases hd with
  | object hvalues =>
    obtain ⟨t, ht, h⟩ := bind_eq_ok.1 h
    have hother : s.other = t.other := by
      obtain ⟨name, -, hs⟩ := bind_eq_ok.1 h
      obtain ⟨value, -, hs⟩ := bind_eq_ok.1 hs
      cases hs
      rfl
    have hall := record_of_foldlM Slots.own Slots.other (fun s t e he => Slots.taken he) hvalues rfl
      ht (fun k v => mem_own_of_slots h) (keys_own_sublist s).subset
      (by rw [← hother]; exact hvalid.toJson)
    rw [← hother] at hall
    exact hall
  | _ => cases h

/-- Of the members of a sample only the value changes its slot, and that slot only once. -/
theorem Slots.value_of_take {s t : Slots} {e : String × Draft} (h : s.take e = .ok t) :
    (e.1 ≠ "value" ∧ t.value = s.value) ∨
      ∃ n, e = ("value", .number n) ∧ s.value = none ∧ t.value = some n.toFloat := by
  unfold Slots.take at h
  split at h
  case h_2 d =>
    obtain ⟨a, ha, h⟩ := bind_eq_ok.1 h
    cases h
    cases hslot : s.value with
    | some x =>
      rw [hslot] at ha
      cases ha
    | none =>
      rw [hslot] at ha
      obtain ⟨x, hx, rfl⟩ := fill_eq_ok ha
      cases d with
      | number n =>
        cases hx
        exact .inr ⟨n, rfl, rfl, rfl⟩
      | _ => cases hx
  case h_6 k d hname hvalue hrange hunit hextra =>
    obtain ⟨a, ha, h⟩ := bind_eq_ok.1 h
    cases h
    exact .inl ⟨hvalue, rfl⟩
  all_goals
    obtain ⟨a, ha, h⟩ := bind_eq_ok.1 h
    cases h
    exact .inl ⟨by simp, rfl⟩

/-- Among the members that have been read there is no value yet, or just one. -/
theorem Slots.value_of_foldlM {ms : List (String × Draft)} {s t : Slots} (hs : s.value = none)
    (h : ms.foldlM Slots.take s = .ok t) :
    (t.value = none ∧ ∀ d, ("value", d) ∉ ms) ∨
      ∃ n, t.value = some n.toFloat ∧ ∀ d, ("value", d) ∈ ms ↔ d = .number n := by
  induction ms using List.reverseRecOn generalizing t with
  | nil =>
    cases h
    exact .inl ⟨hs, fun _ => List.not_mem_nil⟩
  | append_singleton ms e ih =>
    rw [List.foldlM_append] at h
    obtain ⟨u, hu, h⟩ := bind_eq_ok.1 h
    rw [List.foldlM_cons] at h
    obtain ⟨t', ht, h⟩ := bind_eq_ok.1 h
    cases h
    simp only [List.mem_append, List.mem_singleton]
    obtain ⟨hname, hsame⟩ | ⟨n, rfl, hnone, hvalue⟩ := value_of_take ht
    · have hother : ∀ d, ("value", d) ≠ e := by
        rintro d rfl
        exact hname rfl
      simpa only [hsame, hother, or_false] using ih hu
    · obtain ⟨-, hnew⟩ | ⟨m, hsome, -⟩ := ih hu
      · refine .inr ⟨n, hvalue, fun d => ?_⟩
        simp [hnew d]
      · rw [hnone] at hsome
        cases hsome

/--
The number that `carry` has for the value is the sample's own. A sample has one value, the float of
the number that was read, and its measured value is what is written.
-/
theorem value_of_decode {ms : List (String × Draft)} {s : Sample}
    (h : decode (.object ms) = .ok s) :
    ∃ n, (∀ d, ("value", d) ∈ ms ↔ d = .number n) ∧ s.value = n.toFloat ∧
      s.toJson.get? "value" = some (measured n.toFloat) := by
  obtain ⟨t, ht, h⟩ := bind_eq_ok.1 h
  obtain ⟨name, -, h⟩ := bind_eq_ok.1 h
  obtain ⟨value, hvalue, h⟩ := bind_eq_ok.1 h
  cases h
  rw [required_eq_ok] at hvalue
  obtain ⟨hnone, -⟩ | ⟨n, hsome, honly⟩ := Slots.value_of_foldlM rfl ht
  · rw [hnone] at hvalue
    cases hvalue
  · rw [hsome] at hvalue
    cases hvalue
    exact ⟨n, honly, rfl, rfl⟩

end Sample

namespace Run

def parts : Keyed Carry :=
  [("commit", Commit.carry), ("date", .plain), ("tool", .plain), ("benches", .items Sample.carry)]

def carry : Carry := .record parts

theorem readable_carry : carry.Readable := by
  refine Carry.readable_record ?_
  simp only [parts, List.forall_mem_cons]
  exact ⟨Commit.readable_carry, Carry.readable_plain, Carry.readable_plain,
    Carry.readable_items Sample.readable_carry, by simp⟩

/-- The members of the fields that have been read so far. -/
def Slots.own (s : Slots) : Keyed (Option Json) :=
  [("commit", s.commit.map Commit.toJson), ("date", s.date.map .int), ("tool", s.tool.map .string),
    ("benches", s.benches.map fun ss => .array (ss.map Sample.toJson))]

theorem Slots.taken {n : ℕ} {s t : Slots} {e : String × Draft} (he : e.2.Fits n)
    (h : s.take e = .ok t) : Taken parts e s.own s.other t.own t.other := by
  unfold Slots.take at h
  split at h
  case h_1 =>
    obtain ⟨a, ha, h⟩ := bind_eq_ok.1 h
    cases h
    exact taken_fill Commit.carries_decode he ha rfl rfl
  case h_2 =>
    obtain ⟨a, ha, h⟩ := bind_eq_ok.1 h
    cases h
    exact taken_fill carries_int64 he ha rfl rfl
  case h_3 =>
    obtain ⟨a, ha, h⟩ := bind_eq_ok.1 h
    cases h
    exact taken_fill carries_string he ha rfl rfl
  case h_4 =>
    obtain ⟨a, ha, h⟩ := bind_eq_ok.1 h
    cases h
    exact taken_fill (carries_list Sample.carries_decode) he ha rfl rfl
  case h_5 k d hcommit hdate htool hbenches =>
    obtain ⟨a, ha, h⟩ := bind_eq_ok.1 h
    cases h
    have hk : k ∉ Keyed.keys parts := by
      simp only [parts, Keyed.keys, List.map_cons, List.map_nil, List.mem_cons, List.not_mem_nil,
        or_false, not_or]
      exact ⟨hcommit, hdate, htool, hbenches⟩
    exact .other hk ha

theorem eq_of_finish {t : Slots} {r : Run} (h : t.finish = .ok r) :
    t = ⟨some r.commit, some r.date, some r.tool, some r.benches, r.other⟩ := by
  obtain ⟨commit, hcommit, h⟩ := bind_eq_ok.1 h
  obtain ⟨date, hdate, h⟩ := bind_eq_ok.1 h
  obtain ⟨tool, htool, h⟩ := bind_eq_ok.1 h
  obtain ⟨benches, hbenches, h⟩ := bind_eq_ok.1 h
  cases h
  rw [required_eq_ok] at hcommit hdate htool hbenches
  rw [← hcommit, ← hdate, ← htool, ← hbenches]

theorem mem_own_of_slots {t : Slots} {r : Run} (hr : t.finish = .ok r) {k : String} {v : Json}
    (h : Keyed.get? k t.own = some (some v)) : (k, v) ∈ r.own := by
  have hmem := Keyed.mem_of_get? h
  rw [eq_of_finish hr] at hmem
  unfold own
  simp only [Slots.own, Option.map_some, List.mem_cons, Prod.mk.injEq, Option.some.injEq,
    List.not_mem_nil, or_false] at hmem ⊢
  exact hmem

theorem carries_decode : Carries decode toJson carry := by
  intro n d r hd h
  have hvalid := (valid_of_decode hd h).1
  cases hd with
  | object hvalues =>
    obtain ⟨t, ht, h⟩ := bind_eq_ok.1 h
    have hother : r.other = t.other := by rw [eq_of_finish h]
    have hall := record_of_foldlM Slots.own Slots.other (fun s t e he => Slots.taken he) hvalues rfl
      ht (fun k v => mem_own_of_slots h) (List.Subset.refl _)
      (by rw [← hother]; exact hvalid.toJson)
    rw [← hother] at hall
    exact hall
  | _ => cases h

end Run

end BenchHistory
