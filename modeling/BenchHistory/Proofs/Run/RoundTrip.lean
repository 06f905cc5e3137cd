import BenchHistory.Proofs.Decimal.Shortest
import BenchHistory.Proofs.Run.Commit

/-!
# Runs read back

A run is read back from its JSON, except that a measured zero loses its sign
(`Run.decode_toJson`), and whatever is read is of the kind that is read back
(`Run.valid_of_decode`).
-/

namespace BenchHistory

open Decode

/-! ## Measured values -/

/-- A float, both zeros taken as the positive one. -/
def plainZero (x : Float) : Float := if x == 0 then 0 else x

theorem wholeValue?_of_zero {x : Float} (hfinite : x.isFinite = true) (hzero : (x == 0) = true) :
    wholeValue? x = some 0 := by
  obtain ⟨s, hx⟩ | ⟨s, m, e, hm, hx⟩ := Binary64.unpacked_cases hfinite
  · unfold wholeValue? Dyadic.toNat? Dyadic.scaled
    rw [if_pos hfinite, (Binary64.ofFloat_of_unpacked_zero hx).1]
    simp only [zero_mul, Nat.zero_mod, if_true, Nat.zero_div, Option.map_some]
    cases signed x <;> rfl
  · rw [Binary64.beq_eq, hx, Binary64.unpacked_zero] at hzero
    cases s <;> cases hzero

theorem valid_measured {x : Float} (hfinite : x.isFinite = true) : (measured x).Valid := by
  unfold measured
  split
  · next n hn =>
    split
    · next hsmall =>
      unfold maxExact at hsmall
      exact .number (show -2 ^ 63 ≤ n ∧ n < 2 ^ 64 by omega)
    · exact .number hfinite
  · exact .number hfinite

theorem nesting_measured (x : Float) : (measured x).nesting = 0 := by
  unfold measured
  split
  · split <;> rfl
  · rfl

/-- A measured value is read back, except that a zero loses its sign. -/
theorem float_measured {x : Float} (hfinite : x.isFinite = true) :
    Decode.float (measured x).toDraft = .ok (plainZero x) := by
  have hreal : (∀ n, wholeValue? x = some n → ¬ n.natAbs ≤ maxExact) →
      Decode.float (Json.real x).toDraft = .ok (plainZero x) := by
    intro hlarge
    have hne : (x == 0) = false := by
      by_contra hzero
      rw [Bool.not_eq_false] at hzero
      exact hlarge 0 (wholeValue?_of_zero hfinite hzero) (Nat.zero_le _)
    unfold plainZero
    rw [hne]
    rfl
  unfold measured
  split
  · next n hn =>
    split
    · unfold plainZero
      rw [← ofInt_wholeValue? hn]
      rfl
    · next hlarge =>
      refine hreal fun m hm => ?_
      rw [hn] at hm
      cases hm
      exact hlarge
  · next hnone =>
    refine hreal fun m hm => ?_
    rw [hnone] at hm
    cases hm

theorem measured_plainZero {x : Float} (hfinite : x.isFinite = true) :
    measured (plainZero x) = measured x := by
  unfold plainZero
  split
  · next hzero =>
    have hwhole : wholeValue? 0 = some 0 := wholeValue?_of_zero rfl rfl
    unfold measured
    rw [wholeValue?_of_zero hfinite hzero, hwhole]
    rfl
  · rfl

theorem isFinite_of_float {n : ℕ} {d : Draft} (hd : d.Fits n) {x : Float}
    (h : Decode.float d = .ok x) : x.isFinite = true := by
  cases hd with
  | @number n a ha =>
    cases h
    cases a with
    | whole k =>
      have hrange : -2 ^ 63 ≤ k ∧ k < 2 ^ 64 := ha
      exact isFinite_ofInt (by omega)
    | real y => exact ha
  | _ => cases h

namespace Sample

/-- The names of the fields, in the order in which they are written. -/
def fields : List String := ["name", "value", "range", "unit", "extra"]

def own (s : Sample) : List (String × Json) :=
  [("name", .string s.name), ("value", measured s.value)] ++ textField "range" s.range ++
    [("unit", .string s.unit)] ++ textField "extra" s.extra

theorem toJson_eq (s : Sample) : s.toJson = .object (s.own ++ s.other) := rfl

/-- What a sample has to be to be read back. -/
structure Valid (s : Sample) : Prop where
  finite : s.value.isFinite = true
  other : Kept fields s.other

theorem forall_mem_own {s : Sample} (hfinite : s.value.isFinite = true) :
    ∀ e ∈ s.own, e.2.Valid ∧ e.2.nesting = 0 := by
  have hfirst : ∀ e ∈ [("name", Json.string s.name), ("value", measured s.value)],
      e.2.Valid ∧ e.2.nesting = 0 := by
    rw [List.forall_mem_cons, List.forall_mem_singleton]
    exact ⟨⟨.string _, rfl⟩, valid_measured hfinite, nesting_measured _⟩
  have hunit : ∀ e ∈ [("unit", Json.string s.unit)], e.2.Valid ∧ e.2.nesting = 0 := by
    rw [List.forall_mem_singleton]
    exact ⟨.string _, rfl⟩
  unfold own
  simp only [List.forall_mem_append]
  exact ⟨⟨⟨hfirst, forall_mem_textField _ _⟩, hunit⟩, forall_mem_textField _ _⟩

theorem Valid.toJson {s : Sample} (hs : s.Valid) : s.toJson.Valid := by
  rw [toJson_eq]
  refine valid_record (by decide) ?_ (fun e he => (forall_mem_own hs.finite e he).1) hs.other
  unfold own
  simp only [Keyed.keys_append]
  exact (((List.Sublist.refl ["name", "value"]).append (keys_field?_sublist _ _)).append
    (List.Sublist.refl ["unit"])).append (keys_field?_sublist _ _)

theorem nesting_toJson_le {s : Sample} {n : ℕ} (hfinite : s.value.isFinite = true)
    (hother : ∀ e ∈ s.other, e.2.nesting ≤ n) : s.toJson.nesting ≤ n + 1 := by
  rw [toJson_eq, Json.nesting_object_le_iff, List.forall_mem_append]
  refine ⟨fun e he => ?_, hother⟩
  rw [(forall_mem_own hfinite e he).2]
  exact Nat.zero_le n

/-- What has been read so far is valid and nested at most so deep. -/
structure Slots.Fits (n : ℕ) (s : Slots) : Prop where
  finite : ∀ x ∈ s.value, x.isFinite = true
  other : Kept fields s.other
  nesting : ∀ e ∈ s.other, e.2.nesting ≤ n

theorem Slots.Fits.take {n : ℕ} {s t : Slots} (hs : s.Fits n) {e : String × Draft}
    (he : e.2.Fits n) (h : s.take e = .ok t) : t.Fits n := by
  unfold Slots.take at h
  split at h
  case h_2 =>
    obtain ⟨a, ha, h⟩ := bind_eq_ok.1 h
    cases h
    obtain ⟨x, hx, rfl⟩ := fill_eq_ok ha
    refine ⟨fun y hy => ?_, hs.other, hs.nesting⟩
    cases hy
    exact isFinite_of_float he hx
  case h_1 | h_3 | h_4 | h_5 =>
    obtain ⟨a, -, h⟩ := bind_eq_ok.1 h
    cases h
    exact ⟨hs.finite, hs.other, hs.nesting⟩
  case h_6 k d hname hvalue hrange hunit hextra =>
    obtain ⟨a, ha, h⟩ := bind_eq_ok.1 h
    cases h
    have hk : k ∉ fields := by
      simp only [fields, List.mem_cons, List.not_mem_nil, or_false, not_or]
      exact ⟨hname, hvalue, hrange, hunit, hextra⟩
    obtain ⟨hother, hnesting⟩ := hs.other.keep hs.nesting hk he ha
    exact ⟨hs.finite, hother, hnesting⟩

theorem valid_of_decode {n : ℕ} {d : Draft} (hd : d.Fits n) {s : Sample}
    (h : decode d = .ok s) : s.Valid ∧ s.toJson.nesting ≤ n := by
  cases hd with
  | object hvalues =>
    obtain ⟨t, ht, h⟩ := bind_eq_ok.1 h
    have hfits := invariant_foldlM (p := Slots.Fits _)
      (fun e he s t hs ht => hs.take (hvalues e he) ht)
      ⟨by rintro x ⟨⟩, kept_nil _, by rintro e ⟨⟩⟩ ht
    obtain ⟨name, -, h⟩ := bind_eq_ok.1 h
    obtain ⟨value, hvalue, h⟩ := bind_eq_ok.1 h
    cases h
    have hfinite : value.isFinite = true := hfits.finite value (required_eq_ok.1 hvalue)
    exact ⟨⟨hfinite, hfits.other⟩, nesting_toJson_le hfinite hfits.nesting⟩
  | _ => cases h

theorem Slots.take_other (s : Slots) (o : Keyed Json) (k : String) (d : Draft) (hk : k ∉ fields) :
    Slots.take { s with other := o } (k, d) = (keep o k d).map fun o => { s with other := o } := by
  have hk' : k ≠ "name" ∧ k ≠ "value" ∧ k ≠ "range" ∧ k ≠ "unit" ∧ k ≠ "extra" := by
    simpa [fields] using hk
  unfold Slots.take
  split
  case h_1 | h_2 | h_3 | h_4 | h_5 => simp_all
  case h_6 heq =>
    cases heq
    rfl

/-- The sample as it is read back. -/
def plainZero (s : Sample) : Sample :=
  { s with value := BenchHistory.plainZero s.value }

/-- The slots when all members of a sample have been read. -/
def slots (s : Sample) : Slots :=
  ⟨some s.name, some (BenchHistory.plainZero s.value), s.range.map some, some s.unit,
    s.extra.map some, s.other⟩

theorem finish_slots (s : Sample) : s.slots.finish = .ok s.plainZero := by
  unfold slots Slots.finish
  simp only [join_map_some]
  rfl

/-- A valid sample is read back, except that a measured zero loses its sign. -/
theorem decode_toJson {s : Sample} (hs : s.Valid) : decode s.toJson.toDraft = .ok s.plainZero := by
  have hfirst : (Json.membersToDraft [("name", .string s.name), ("value", measured s.value)]).foldlM
      Slots.take ⟨none, none, none, none, none, []⟩ =
        .ok ⟨some s.name, some (BenchHistory.plainZero s.value), none, none, none, []⟩ := by
    have hvalue := float_measured hs.finite
    show (fill "value" none float (measured s.value).toDraft >>= _) >>= _ = _
    unfold fill
    rw [hvalue]
    rfl
  have hrange : (Json.membersToDraft (textField "range" s.range)).foldlM Slots.take
      ⟨some s.name, some (BenchHistory.plainZero s.value), none, none, none, []⟩ =
        .ok ⟨some s.name, some (BenchHistory.plainZero s.value), s.range.map some, none, none,
          []⟩ :=
    foldlM_textField (fun h => by rw [h]; rfl) (fun x h => by rw [h]; rfl)
  have hunit : (Json.membersToDraft [("unit", .string s.unit)]).foldlM Slots.take
      ⟨some s.name, some (BenchHistory.plainZero s.value), s.range.map some, none, none, []⟩ =
        .ok { s.slots with extra := none, other := [] } := rfl
  have hextra : (Json.membersToDraft (textField "extra" s.extra)).foldlM Slots.take
      { s.slots with extra := none, other := [] } = .ok { s.slots with other := [] } :=
    foldlM_textField (fun h => by rw [slots, h]; rfl) (fun x h => by rw [slots, h]; rfl)
  have hother : (Json.membersToDraft s.other).foldlM Slots.take { s.slots with other := [] } =
      .ok s.slots :=
    foldlM_others (Slots.take_other s.slots) hs.other
  have hall := foldlM_members_append (foldlM_members_append (foldlM_members_append
    (foldlM_members_append hfirst hrange) hunit) hextra) hother
  rw [toJson_eq, Json.toDraft]
  unfold decode own
  simp only [hall]
  exact s.finish_slots

theorem toJson_plainZero {s : Sample} (hs : s.Valid) : s.plainZero.toJson = s.toJson := by
  have hvalue := measured_plainZero hs.finite
  unfold toJson plainZero
  simp only [hvalue]

end Sample

theorem valid_int {n : ℤ} (hlow : -2 ^ 63 ≤ n) (hhigh : n < 2 ^ 63) : (Json.int n).Valid :=
  .number (show -2 ^ 63 ≤ n ∧ n < 2 ^ 64 by omega)

theorem int64_toDraft {n : ℤ} (hlow : -2 ^ 63 ≤ n) (hhigh : n < 2 ^ 63) :
    int64 (Json.int n).toDraft = .ok n :=
  if_pos ⟨hlow, by omega⟩

namespace Run

/-- The names of the fields, in the order in which they are written. -/
def fields : List String := ["commit", "date", "tool", "benches"]

def own (r : Run) : List (String × Json) :=
  [("commit", r.commit.toJson), ("date", .int r.date), ("tool", .string r.tool),
    ("benches", .array (r.benches.map Sample.toJson))]

theorem toJson_eq (r : Run) : r.toJson = .object (r.own ++ r.other) := rfl

/-- What a run has to be to be read back. -/
structure Valid (r : Run) : Prop where
  commit : r.commit.Valid
  date_ge : -2 ^ 63 ≤ r.date
  date_lt : r.date < 2 ^ 63
  benches : ∀ s ∈ r.benches, s.Valid
  other : Kept fields r.other

theorem Valid.toJson {r : Run} (hr : r.Valid) : r.toJson.Valid := by
  rw [toJson_eq]
  refine valid_record (by decide) (List.Sublist.refl fields) ?_ hr.other
  unfold own
  simp only [List.forall_mem_cons]
  refine ⟨hr.commit.toJson, valid_int hr.date_ge hr.date_lt, .string _, .array ?_, by simp⟩
  intro j hj
  obtain ⟨s, hs, rfl⟩ := List.mem_map.1 hj
  exact (hr.benches s hs).toJson

theorem nesting_toJson_le {r : Run} {n : ℕ} (hcommit : r.commit.toJson.nesting ≤ n + 1)
    (hbenches : ∀ s ∈ r.benches, s.toJson.nesting ≤ n)
    (hother : ∀ e ∈ r.other, e.2.nesting ≤ n + 1) : r.toJson.nesting ≤ n + 2 := by
  rw [toJson_eq, Json.nesting_object_le_iff, List.forall_mem_append]
  refine ⟨?_, hother⟩
  unfold own
  simp only [List.forall_mem_cons]
  refine ⟨hcommit, Nat.zero_le _, Nat.zero_le _, ?_, by simp⟩
  rw [Json.nesting_array_le_iff]
  intro j hj
  obtain ⟨s, hs, rfl⟩ := List.mem_map.1 hj
  exact hbenches s hs

/-- What has been read so far is valid and nested at most so deep. -/
structure Slots.Fits (n : ℕ) (s : Slots) : Prop where
  commit : ∀ c ∈ s.commit, c.Valid ∧ c.toJson.nesting ≤ n
  date : ∀ t ∈ s.date, -2 ^ 63 ≤ t ∧ t < 2 ^ 63
  benches : ∀ ss ∈ s.benches, ∃ m, n = m + 1 ∧ ∀ b ∈ ss, b.Valid ∧ b.toJson.nesting ≤ m
  other : Kept fields s.other
  nesting : ∀ e ∈ s.other, e.2.nesting ≤ n

theorem Slots.fits_empty (n : ℕ) : Slots.Fits n ⟨none, none, none, none, []⟩ where
  commit := by rintro c ⟨⟩
  date := by rintro t ⟨⟩
  benches := by rintro ss ⟨⟩
  other := kept_nil _
  nesting := by rintro e ⟨⟩

theorem Slots.Fits.take {n : ℕ} {s t : Slots} (hs : s.Fits n) {e : String × Draft}
    (he : e.2.Fits n) (h : s.take e = .ok t) : t.Fits n := by
  unfold Slots.take at h
  split at h
  case h_1 =>
    obtain ⟨a, ha, h⟩ := bind_eq_ok.1 h
    cases h
    obtain ⟨c, hc, rfl⟩ := fill_eq_ok ha
    refine ⟨?_, hs.date, hs.benches, hs.other, hs.nesting⟩
    rintro b ⟨⟩
    exact Commit.valid_of_decode he hc
  case h_2 =>
    obtain ⟨a, ha, h⟩ := bind_eq_ok.1 h
    cases h
    obtain ⟨t, ht, rfl⟩ := fill_eq_ok ha
    refine ⟨hs.commit, ?_, hs.benches, hs.other, hs.nesting⟩
    rintro b ⟨⟩
    have hrange := integer_eq_ok ht
    omega
  case h_3 =>
    obtain ⟨a, -, h⟩ := bind_eq_ok.1 h
    cases h
    exact ⟨hs.commit, hs.date, hs.benches, hs.other, hs.nesting⟩
  case h_4 d =>
    obtain ⟨a, ha, h⟩ := bind_eq_ok.1 h
    cases h
    obtain ⟨ss, hss, rfl⟩ := fill_eq_ok ha
    refine ⟨hs.commit, hs.date, ?_, hs.other, hs.nesting⟩
    rintro _ ⟨⟩
    obtain ⟨m, rfl, hall⟩ := exists_of_list he hss
    refine ⟨m, rfl, fun b hb => ?_⟩
    obtain ⟨x, hx, hdecode⟩ := hall b hb
    exact Sample.valid_of_decode hx hdecode
  case h_5 k d hcommit hdate htool hbenches =>
    obtain ⟨a, ha, h⟩ := bind_eq_ok.1 h
    cases h
    have hk : k ∉ fields := by
      simp only [fields, List.mem_cons, List.not_mem_nil, or_false, not_or]
      exact ⟨hcommit, hdate, htool, hbenches⟩
    obtain ⟨hother, hnesting⟩ := hs.other.keep hs.nesting hk he ha
    exact ⟨hs.commit, hs.date, hs.benches, hother, hnesting⟩

theorem valid_of_decode {n : ℕ} {d : Draft} (hd : d.Fits n) {r : Run}
    (h : decode d = .ok r) : r.Valid ∧ r.toJson.nesting ≤ n := by
  cases hd with
  | object hvalues =>
    obtain ⟨t, ht, h⟩ := bind_eq_ok.1 h
    have hfits := invariant_foldlM (p := Slots.Fits _)
      (fun e he s t hs ht => hs.take (hvalues e he) ht) (Slots.fits_empty _) ht
    obtain ⟨commit, hcommit, h⟩ := bind_eq_ok.1 h
    obtain ⟨date, hdate, h⟩ := bind_eq_ok.1 h
    obtain ⟨tool, -, h⟩ := bind_eq_ok.1 h
    obtain ⟨benches, hbenches, h⟩ := bind_eq_ok.1 h
    cases h
    obtain ⟨hvalid, hnesting⟩ := hfits.commit commit (required_eq_ok.1 hcommit)
    obtain ⟨hlow, hhigh⟩ := hfits.date date (required_eq_ok.1 hdate)
    obtain ⟨m, rfl, hall⟩ := hfits.benches benches (required_eq_ok.1 hbenches)
    exact ⟨⟨hvalid, hlow, hhigh, fun s hs => (hall s hs).1, hfits.other⟩,
      nesting_toJson_le hnesting (fun s hs => (hall s hs).2) hfits.nesting⟩
  | _ => cases h

theorem Slots.take_other (s : Slots) (o : Keyed Json) (k : String) (d : Draft) (hk : k ∉ fields) :
    Slots.take { s with other := o } (k, d) = (keep o k d).map fun o => { s with other := o } := by
  have hk' : k ≠ "commit" ∧ k ≠ "date" ∧ k ≠ "tool" ∧ k ≠ "benches" := by simpa [fields] using hk
  unfold Slots.take
  split
  case h_1 | h_2 | h_3 | h_4 => simp_all
  case h_5 heq =>
    cases heq
    rfl

/-- The run as it is read back. -/
def plainZeros (r : Run) : Run :=
  { r with benches := r.benches.map Sample.plainZero }

/-- The slots when all members of a run have been read. -/
def slots (r : Run) : Slots :=
  ⟨some r.commit, some r.date, some r.tool, some (r.benches.map Sample.plainZero), r.other⟩

/-- A valid run is read back, except that measured zeros lose their signs. -/
theorem decode_toJson {r : Run} (hr : r.Valid) : decode r.toJson.toDraft = .ok r.plainZeros := by
  have hcommit := Commit.decode_toJson hr.commit
  have hdate := int64_toDraft hr.date_ge hr.date_lt
  have hbenches : list Sample.decode (Json.array (r.benches.map Sample.toJson)).toDraft =
      .ok (r.benches.map Sample.plainZero) :=
    list_toDraft fun s hs => Sample.decode_toJson (hr.benches s hs)
  have hown : (Json.membersToDraft r.own).foldlM Slots.take ⟨none, none, none, none, []⟩ =
      .ok { r.slots with other := [] } := by
    simp only [own, Json.membersToDraft, List.foldlM_cons, Slots.take, fill, hcommit, hdate,
      hbenches]
    rfl
  have hother : (Json.membersToDraft r.other).foldlM Slots.take { r.slots with other := [] } =
      .ok r.slots :=
    foldlM_others (Slots.take_other r.slots) hr.other
  have hall := foldlM_members_append hown hother
  rw [toJson_eq, Json.toDraft]
  unfold decode
  simp only [hall]
  rfl

theorem toJson_plainZeros {r : Run} (hr : r.Valid) : r.plainZeros.toJson = r.toJson := by
  have hbenches : (r.benches.map Sample.plainZero).map Sample.toJson =
      r.benches.map Sample.toJson := by
    rw [List.map_map]
    exact List.map_congr_left fun s hs => Sample.toJson_plainZero (hr.benches s hs)
  unfold toJson plainZeros
  simp only [hbenches]

end Run

end BenchHistory
