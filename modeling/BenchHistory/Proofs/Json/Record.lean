import BenchHistory.Json.Decode
import BenchHistory.Proofs.Json.Valid
import Mathlib.Data.Int.Notation

/-!
# Records

A record is written as the members of its fields and behind them the members that it keeps
without a field. `Kept` says what the latter have to be for the whole to be a valid value
(`valid_record`) and to be read back member by member (`foldlM_others`).
-/

namespace BenchHistory.Decode

/-! ## Steps of decoders -/

theorem json_eq_ok {d : Draft} {j : Json} : json d = .ok j ↔ d.toJson = .ok j := mapError_eq_ok

theorem json_toDraft {j : Json} (hj : j.Valid) : json j.toDraft = .ok j :=
  json_eq_ok.2 hj.toJson_toDraft

theorem fill_eq_ok {α : Type} {name : String} {slot slot' : Option α} {decode : Decoder α}
    {d : Draft} (h : fill name slot decode d = .ok slot') :
    ∃ a, decode d = .ok a ∧ slot' = some a := by
  unfold fill at h
  split at h
  · cases h
  · obtain ⟨a, ha, heq⟩ := map_eq_ok.1 h
    exact ⟨a, ha, heq.symm⟩

theorem optional_eq_some {α : Type} {decode : Decoder α} {d : Draft} {a : α}
    (h : optional decode d = .ok (some a)) : decode d = .ok a := by
  unfold optional at h
  split at h
  · cases h
  · obtain ⟨b, hb, heq⟩ := map_eq_ok.1 h
    cases heq
    exact hb

theorem eq_of_fill_optional {α : Type} {name : String} {slot slot' : Option (Option α)}
    {decode : Decoder α} {d : Draft} (h : fill name slot (optional decode) d = .ok slot') {a : α}
    (ha : slot' = some (some a)) : decode d = .ok a := by
  obtain ⟨v, hv, rfl⟩ := fill_eq_ok h
  cases ha
  exact optional_eq_some hv

theorem required_eq_ok {α : Type} {name : String} {slot : Option α} {a : α} :
    required name slot = .ok a ↔ slot = some a := by
  cases slot with
  | none => constructor <;> nofun
  | some b =>
    constructor
    · intro h
      cases h
      rfl
    · intro h
      cases h
      rfl

theorem integer_eq_ok {least most n : ℤ} {expected : String} {d : Draft}
    (h : integer least most expected d = .ok n) : least ≤ n ∧ n ≤ most := by
  unfold integer at h
  split at h
  · split at h
    · next hrange =>
      cases h
      exact hrange
    · cases h
  · cases h

theorem exists_of_list {α : Type} {decode : Decoder α} {n : ℕ} {d : Draft} (hd : d.Fits n)
    {as : List α} (h : list decode d = .ok as) :
    ∃ m, n = m + 1 ∧ ∀ a ∈ as, ∃ x : Draft, x.Fits m ∧ decode x = .ok a := by
  cases hd with
  | @array m xs hitems =>
    refine ⟨m, rfl, fun a ha => ?_⟩
    obtain ⟨x, hx, hdecode⟩ := exists_of_mem_mapM h ha
    exact ⟨x, hitems x hx, hdecode⟩
  | _ => cases h

/-- Entries under names are nested one deeper than their values, and no name is there twice. -/
theorem exists_of_keyed {α : Type} {decode : Decoder α} {n : ℕ} {d : Draft} (hd : d.Fits n)
    {m : Keyed α} (h : keyed decode d = .ok m) :
    ∃ k, n = k + 1 ∧ (Keyed.keys m).Nodup ∧
      ∀ e ∈ m, ∃ x : Draft, x.Fits k ∧ decode x = .ok e.2 := by
  cases hd with
  | @object k ms hvalues =>
    refine ⟨k, rfl, ?_⟩
    have hempty : (Keyed.keys ([] : Keyed α)).Nodup := List.nodup_nil
    refine invariant_foldlM (p := fun m : Keyed α =>
      (Keyed.keys m).Nodup ∧ ∀ e ∈ m, ∃ x : Draft, x.Fits k ∧ decode x = .ok e.2) ?_
      ⟨hempty, by rintro e ⟨⟩⟩ h
    rintro e he s t ⟨hnames, hs⟩ ht
    obtain ⟨a, ha, rfl⟩ := map_eq_ok.1 ht
    refine ⟨Keyed.nodup_keys_put hnames e.1 a, fun e' he' => ?_⟩
    obtain hmem | heq := Keyed.mem_put he'
    · exact hs e' hmem
    · rw [heq]
      exact ⟨e.2, hvalues e he, ha⟩
  | _ => cases h

theorem list_toDraft {α : Type} {decode : Decoder α} {f : α → Json} {g : α → α} {as : List α}
    (h : ∀ a ∈ as, decode (f a).toDraft = .ok (g a)) :
    list decode (Json.array (as.map f)).toDraft = .ok (as.map g) := by
  rw [Json.toDraft, Json.itemsToDraft_eq, List.map_map]
  show (as.map _).mapM decode = _
  rw [List.mapM_map]
  exact mapM_eq_ok h

/-- Entries with names of their own are read one by one. -/
theorem foldlM_entry {α : Type} {decode : Decoder α} {f : α → Json} {g : α → α}
    {done m : Keyed α} (hnames : (Keyed.keys (done ++ m)).Nodup)
    (h : ∀ e ∈ m, decode (f e.2).toDraft = .ok (g e.2)) :
    (m.map fun e => (e.1, (f e.2).toDraft)).foldlM (entry decode) done =
      .ok (done ++ m.map fun e => (e.1, g e.2)) := by
  induction m generalizing done with
  | nil =>
    rw [List.map_nil, List.map_nil, List.append_nil]
    rfl
  | cons e m ih =>
    obtain ⟨k, v⟩ := e
    have hnew : k ∉ Keyed.keys done := Keyed.not_mem_keys_of_nodup hnames
    have hentry : entry decode done (k, (f v).toDraft) = .ok (done ++ [(k, g v)]) := by
      unfold entry
      rw [h (k, v) List.mem_cons_self]
      show Except.ok (Keyed.put k (g v) done) = _
      rw [Keyed.put_of_not_mem hnew]
    have hnames' : (Keyed.keys (done ++ [(k, g v)] ++ m)).Nodup := by
      rw [Keyed.keys_append] at hnames
      rw [Keyed.keys_append, Keyed.keys_append, List.append_assoc]
      exact hnames
    rw [List.map_cons, List.foldlM_cons, hentry]
    show (m.map _).foldlM (entry decode) (done ++ [(k, g v)]) = _
    rw [ih hnames' fun e he => h e (List.mem_cons_of_mem _ he), List.append_assoc]
    rfl

theorem keyed_toDraft {α : Type} {decode : Decoder α} {f : α → Json} {g : α → α} {m : Keyed α}
    (hnames : (Keyed.keys m).Nodup) (h : ∀ e ∈ m, decode (f e.2).toDraft = .ok (g e.2)) :
    keyed decode (Json.object (m.map fun e => (e.1, f e.2))).toDraft =
      .ok (m.map fun e => (e.1, g e.2)) := by
  rw [Json.toDraft, Json.membersToDraft_eq, List.map_map]
  exact foldlM_entry (show (Keyed.keys ([] ++ m)).Nodup from hnames) h

/-- A text is read if its draft can be decoded and nothing but blanks follows. -/
theorem read_eq_ok {α : Type} {decode : Decoder α} {cs : List Char} {a : α} :
    read decode cs = .ok a ↔
      ∃ d r, Json.draft cs = (d, some r) ∧ decode d = .ok a ∧ Json.skipSpace r = [] := by
  unfold Decode.read
  constructor
  · intro h
    obtain ⟨b, hb, h⟩ := bind_eq_ok.1 h
    split at h
    · next r hrest =>
      split at h
      · next hempty =>
        cases h
        exact ⟨_, r, Prod.ext rfl hrest, hb, by simpa using hempty⟩
      · cases h
    · cases h
  · rintro ⟨d, r, hdraft, hdecode, hempty⟩
    rw [hdraft]
    simp only [hdecode, hempty]
    rfl

theorem decode_of_read {α : Type} {decode : Decoder α} {cs : List Char} {a : α}
    (h : read decode cs = .ok a) : decode (Json.draft cs).1 = .ok a := by
  obtain ⟨d, r, hdraft, hdecode, -⟩ := read_eq_ok.1 h
  rw [hdraft]
  exact hdecode

/-! ## Members without a field -/

/-- Members that a record of the given fields keeps. -/
structure Kept (fields : List String) (other : Keyed Json) : Prop where
  names_nodup : (Keyed.keys other).Nodup
  unknown : ∀ k ∈ Keyed.keys other, k ∉ fields
  valid : ∀ e ∈ other, e.2.Valid

theorem kept_nil (fields : List String) : Kept fields [] where
  names_nodup := List.nodup_nil
  unknown := by rintro k ⟨⟩
  valid := by rintro e ⟨⟩

/-- One more member is kept, and it is nested no deeper than its draft. -/
theorem Kept.keep {fields : List String} {other other' : Keyed Json} {n : ℕ} {k : String}
    {d : Draft} (hother : Kept fields other) (hdepth : ∀ e ∈ other, e.2.nesting ≤ n)
    (hk : k ∉ fields) (hd : d.Fits n) (h : Decode.keep other k d = .ok other') :
    Kept fields other' ∧ ∀ e ∈ other', e.2.nesting ≤ n := by
  obtain ⟨j, hj, rfl⟩ := map_eq_ok.1 h
  obtain ⟨hvalid, hnesting⟩ := hd.of_toJson (json_eq_ok.1 hj)
  refine ⟨⟨Keyed.nodup_keys_put hother.names_nodup k j, ?_, ?_⟩, ?_⟩
  · intro k' hk'
    obtain rfl | hmem := Keyed.mem_keys_put hk'
    · exact hk
    · exact hother.unknown k' hmem
  · intro e he
    obtain hmem | heq := Keyed.mem_put he
    · exact hother.valid e hmem
    · rw [heq]
      exact hvalid
  · intro e he
    obtain hmem | heq := Keyed.mem_put he
    · exact hdepth e hmem
    · rw [heq]
      exact hnesting

theorem kept_filter {fields : List String} {ms : Keyed Json} (hnames : (Keyed.keys ms).Nodup)
    (hvalid : ∀ e ∈ ms, e.2.Valid) : Kept fields (ms.filter fun e => e.1 ∉ fields) where
  names_nodup := hnames.sublist (List.filter_sublist.map _)
  unknown := by
    intro k hk
    obtain ⟨e, he, rfl⟩ := List.mem_map.1 hk
    simpa using (List.mem_filter.1 he).2
  valid e he := hvalid e (List.mem_filter.1 he).1

/-! ## Writing and reading -/

theorem keys_field?_sublist (name : String) (v : Option Json) :
    List.Sublist (Keyed.keys (Json.field? name v)) [name] := by
  cases v with
  | none => exact List.nil_sublist _
  | some j => exact List.Sublist.refl _

theorem forall_mem_field? {p : Json → Prop} {name : String} {v : Option Json}
    (h : ∀ j ∈ v, p j) : ∀ e ∈ Json.field? name v, p e.2 := by
  cases v with
  | none => rintro e ⟨⟩
  | some j =>
    intro e he
    rw [List.mem_singleton.1 he]
    exact h j rfl

/-- A record is a valid value. -/
theorem valid_record {fields : List String} {own other : Keyed Json} (hfields : fields.Nodup)
    (hown : List.Sublist (Keyed.keys own) fields) (hvalid : ∀ e ∈ own, e.2.Valid)
    (hother : Kept fields other) : (Json.object (own ++ other)).Valid := by
  refine .object ?_ ?_
  · rw [Keyed.keys_append, List.nodup_append]
    refine ⟨hfields.sublist hown, hother.names_nodup, ?_⟩
    rintro k hk _ hk' rfl
    exact hother.unknown k hk' (hown.subset hk)
  · intro e he
    obtain hmem | hmem := List.mem_append.1 he
    · exact hvalid e hmem
    · exact hother.valid e hmem

section

variable {σ : Type} {take : σ → String × Draft → Except ReadError σ}

theorem foldlM_members_append {ms ms' : List (String × Json)} {s t u : σ}
    (h : (Json.membersToDraft ms).foldlM take s = .ok t)
    (h' : (Json.membersToDraft ms').foldlM take t = .ok u) :
    (Json.membersToDraft (ms ++ ms')).foldlM take s = .ok u := by
  rw [Json.membersToDraft_eq, List.map_append, List.foldlM_append, ← Json.membersToDraft_eq,
    ← Json.membersToDraft_eq, h]
  exact h'

theorem foldlM_field? {name : String} {v : Option Json} {s t : σ} (hnone : v = none → s = t)
    (hsome : ∀ j, v = some j → take s (name, j.toDraft) = .ok t) :
    (Json.membersToDraft (Json.field? name v)).foldlM take s = .ok t := by
  cases v with
  | none =>
    rw [hnone rfl]
    rfl
  | some j =>
    show [(name, j.toDraft)].foldlM take s = _
    rw [List.foldlM_cons, hsome j rfl]
    rfl

/-- The members without a field are put behind one another. -/
theorem foldlM_others {fields : List String} {set : Keyed Json → σ}
    (htake : ∀ o k d, k ∉ fields → take (set o) (k, d) = (keep o k d).map set)
    {done other : Keyed Json} (hother : Kept fields (done ++ other)) :
    (Json.membersToDraft other).foldlM take (set done) = .ok (set (done ++ other)) := by
  induction other generalizing done with
  | nil =>
    rw [List.append_nil]
    rfl
  | cons e other ih =>
    have happend : done ++ e :: other = done ++ [e] ++ other := by simp
    have hmem : e ∈ done ++ e :: other := List.mem_append_right _ List.mem_cons_self
    have hnew : e.1 ∉ Keyed.keys done := Keyed.not_mem_keys_of_nodup hother.names_nodup
    have hkeep : keep done e.1 e.2.toDraft = .ok (done ++ [e]) := by
      unfold keep
      rw [json_toDraft (hother.valid e hmem)]
      show Except.ok (Keyed.put e.1 e.2 done) = _
      rw [Keyed.put_of_not_mem hnew]
    show ((e.1, e.2.toDraft) :: Json.membersToDraft other).foldlM take (set done) = _
    rw [List.foldlM_cons, htake _ _ _ (hother.unknown e.1 (Keyed.mem_keys_of_mem hmem)), hkeep,
      happend]
    rw [happend] at hother
    exact ih hother

end

end BenchHistory.Decode
