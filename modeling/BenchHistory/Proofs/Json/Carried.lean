import BenchHistory.Proofs.Json.Depth
import BenchHistory.Proofs.Json.Record

/-!
# What is carried over

A `Carry` relates what is read to what is written for it. A record carries over the members of its
fields, and keeps those that it has no field for (`Carry.record`): of a repeated name the last value
stays, at the first place (`Keyed.LastOf`). That a record does so follows from what its reader does
with one member (`Decode.record_of_foldlM`). Nothing is carried over from a gap, so that whoever is
carried over is readable (`Carry.readable_record`).
-/

namespace BenchHistory

/-! ## Repeated names -/

namespace Keyed

variable {α β γ : Type}

/--
What is left of a list with repeated names. Every value is related to some other one, each name
stands at its first place, and under it is what the last value of that name is related to.
-/
structure LastOf (R : α → β → Prop) (ms : Keyed α) (ns : Keyed β) : Prop where
  related : ∀ e ∈ ms, ∃ b, R e.2 b
  names : keys ns = (keys ms).eraseDups
  last : ∀ k a, get? k ms.reverse = some a → ∃ b, get? k ns = some b ∧ R a b

theorem lastOf_nil (R : α → β → Prop) : LastOf R [] [] where
  related := by rintro e ⟨⟩
  names := rfl
  last := by rintro k a ⟨⟩

theorem keys_put_eq_eraseDups {ms : Keyed α} {ns : Keyed β} (h : keys ns = (keys ms).eraseDups)
    (k : String) (a : α) (b : β) : keys (put k b ns) = (keys (ms ++ [(k, a)])).eraseDups := by
  have hmem : k ∈ keys ns ↔ k ∈ keys ms := by rw [h, List.mem_eraseDups]
  have hlast : keys [(k, a)] = [k] := rfl
  rw [keys_append, List.eraseDups_append, ← h, hlast]
  by_cases hk : k ∈ keys ms
  · have hold : [k].removeAll (keys ms) = [] := by simp [List.removeAll, hk]
    rw [keys_put_of_mem (hmem.2 hk), hold, List.eraseDups_nil, List.append_nil]
  · have hnew : [k].removeAll (keys ms) = [k] := by simp [List.removeAll, hk]
    rw [put_of_not_mem (fun hns => hk (hmem.1 hns)), keys_append, hnew]
    rfl

/-- One more value is written over an earlier one of its name. -/
theorem LastOf.put {R : α → β → Prop} {ms : Keyed α} {ns : Keyed β} (h : LastOf R ms ns)
    (k : String) {a : α} {b : β} (hab : R a b) : LastOf R (ms ++ [(k, a)]) (put k b ns) where
  related := by
    rw [List.forall_mem_append, List.forall_mem_singleton]
    exact ⟨h.related, b, hab⟩
  names := keys_put_eq_eraseDups h.names k a b
  last := by
    intro j c hj
    rw [List.reverse_append, List.reverse_singleton, List.singleton_append] at hj
    by_cases hjk : k = j
    · rw [get?, if_pos hjk] at hj
      cases hj
      subst hjk
      exact ⟨b, get?_put_self k b ns, hab⟩
    · rw [get?, if_neg hjk] at hj
      rw [get?_put_of_ne (Ne.symm hjk)]
      exact h.last j c hj

theorem LastOf.map {R : α → β → Prop} {S : α → γ → Prop} {ms : Keyed α} {ns : Keyed β}
    (h : LastOf R ms ns) {f : β → γ} (hf : ∀ e ∈ ms, ∀ b, R e.2 b → S e.2 (f b)) :
    LastOf S ms (ns.map fun e => (e.1, f e.2)) where
  related e he := by
    obtain ⟨b, hb⟩ := h.related e he
    exact ⟨f b, hf e he b hb⟩
  names := by
    rw [← h.names]
    exact List.map_map
  last k a ha := by
    obtain ⟨b, hb, hab⟩ := h.last k a ha
    have hmem : (k, a) ∈ ms := List.mem_reverse.1 (mem_of_get? ha)
    rw [get?_map, hb]
    exact ⟨f b, rfl, hf (k, a) hmem b hab⟩

/-- The entries whose names are not among the given ones. -/
def others (names : List String) (ms : Keyed α) : Keyed α :=
  ms.filter fun e => e.1 ∉ names

theorem others_append (names : List String) (ms ms' : Keyed α) :
    others names (ms ++ ms') = others names ms ++ others names ms' :=
  List.filter_append ..

theorem others_of_subset {names : List String} {ms : Keyed α} (h : keys ms ⊆ names) :
    others names ms = [] := by
  refine List.filter_eq_nil_iff.2 fun e he => ?_
  simpa using h (mem_keys_of_mem he)

theorem others_of_unknown {names : List String} {ms : Keyed α} (h : ∀ k ∈ keys ms, k ∉ names) :
    others names ms = ms := by
  refine List.filter_eq_self.2 fun e he => ?_
  simpa using h e.1 (mem_keys_of_mem he)

theorem others_append_of_unknown {names : List String} {ms ms' : Keyed α} (h : keys ms ⊆ names)
    (h' : ∀ k ∈ keys ms', k ∉ names) : others names (ms ++ ms') = ms' := by
  rw [others_append, others_of_subset h, others_of_unknown h', List.nil_append]

theorem others_concat_of_mem {names : List String} {e : String × α} (h : e.1 ∈ names)
    (ms : Keyed α) : others names (ms ++ [e]) = others names ms := by
  have hsub : keys [e] ⊆ names := by
    intro k hk
    rw [List.mem_singleton.1 hk]
    exact h
  rw [others_append, others_of_subset hsub, List.append_nil]

theorem others_concat_of_not_mem {names : List String} {e : String × α} (h : e.1 ∉ names)
    (ms : Keyed α) : others names (ms ++ [e]) = others names ms ++ [e] := by
  have hunknown : ∀ k ∈ keys [e], k ∉ names := List.forall_mem_singleton.2 h
  rw [others_append, others_of_unknown hunknown]

end Keyed

open Decode

/-! ## Ways of carrying over -/

/-- How what is read is related to what is written for it. -/
abbrev Carry := Draft → Json → Prop

namespace Carry

def plain : Carry :=
  fun d j => d.toJson = .ok j

/-- A number that is read as an equal float: for a sample, its measured value as it is written. -/
def number : Carry :=
  fun d j => ∃ n m, d = .number n ∧ j = .number m ∧ (m.toFloat == n.toFloat) = true

/-- As many items in the same order, each of them carried over. -/
def items (R : Carry) : Carry :=
  fun d j => ∃ xs ys, d = .array xs ∧ j = .array ys ∧ List.Forall₂ R xs ys

/-- The members in the same order, each of them carried over; of a repeated name the last one. -/
def members (R : Carry) : Carry :=
  fun d j => ∃ ms ns, d = .object ms ∧ j = .object ns ∧ Keyed.LastOf R ms ns

/--
The members of a record. Those without a field are there in the same order, with the same values;
of a repeated name the last one. Those of the fields are carried over, each in its own way, unless
they are null.
-/
def record (fields : Keyed Carry) : Carry :=
  fun d j => ∃ ms ns, d = .object ms ∧ j = .object ns ∧ (Keyed.keys ns).Nodup ∧
    Keyed.LastOf plain (Keyed.others (Keyed.keys fields) ms)
      (Keyed.others (Keyed.keys fields) ns) ∧
    ∀ e ∈ ms, ∀ R, Keyed.get? e.1 fields = some R → e.2 = .null ∨ ∃ v, (e.1, v) ∈ ns ∧ R e.2 v

/-! ## Gaps -/

/-- Only drafts without gaps are carried over. -/
def Readable (R : Carry) : Prop :=
  ∀ (d : Draft) (j : Json), R d j → d.Readable

theorem readable_plain : plain.Readable := fun _ j h => ⟨j, h⟩

theorem readable_number : number.Readable := by
  rintro d j ⟨n, m, rfl, -, -⟩
  exact ⟨.number n, rfl⟩

theorem readable_items {R : Carry} (hR : R.Readable) : (items R).Readable := by
  rintro d j ⟨xs, ys, rfl, -, hall⟩
  rw [Draft.readable_array_iff]
  have hboth : List.Forall₂ (fun x y => x.Readable ∧ R x y) xs ys :=
    hall.imp fun x y hxy => ⟨hR x y hxy, hxy⟩
  exact ((List.forall₂_and_left xs ys).1 hboth).1

theorem readable_members {R : Carry} (hR : R.Readable) : (members R).Readable := by
  rintro d j ⟨ms, ns, rfl, -, hlast⟩
  rw [Draft.readable_object_iff]
  intro e he
  obtain ⟨v, hv⟩ := hlast.related e he
  exact hR e.2 v hv

theorem readable_record {fields : Keyed Carry} (hfields : ∀ f ∈ fields, Readable f.2) :
    (record fields).Readable := by
  rintro d j ⟨ms, ns, rfl, -, -, hothers, hknown⟩
  rw [Draft.readable_object_iff]
  intro e he
  match hget : Keyed.get? e.1 fields with
  | some R =>
    obtain hnull | ⟨v, -, hv⟩ := hknown e he R hget
    · rw [hnull]
      exact ⟨.null, rfl⟩
    · exact hfields (e.1, R) (Keyed.mem_of_get? hget) e.2 v hv
  | none =>
    have hname : e.1 ∉ Keyed.keys fields := Keyed.get?_eq_none_iff.1 hget
    have hother : e ∈ Keyed.others (Keyed.keys fields) ms :=
      List.mem_filter.2 ⟨he, by simpa using hname⟩
    exact hothers.related e hother

end Carry

/-! ## Readers -/

/-- What is read of a draft that fits is carried over in the given way, if `f` writes it. -/
def Decode.Carries {α : Type} (decode : Decoder α) (f : α → Json) (R : Carry) : Prop :=
  ∀ {n : ℕ} {d : Draft} {a : α}, d.Fits n → decode d = .ok a → R d (f a)

namespace Decode

variable {α : Type} {decode : Decoder α} {f : α → Json} {R : Carry}

theorem carries_string : Carries string .string .plain := by
  intro n d a _ h
  cases d with
  | string s =>
    cases h
    rfl
  | _ => cases h

theorem carries_bool : Carries bool .bool .plain := by
  intro n d a _ h
  cases d with
  | bool b =>
    cases h
    rfl
  | _ => cases h

theorem carries_int64 : Carries int64 .int .plain := by
  intro n d a _ h
  unfold int64 integer at h
  split at h
  · split at h
    · cases h
      rfl
    · cases h
  · cases h

theorem carries_list (hcarries : Carries decode f R) :
    Carries (list decode) (fun as => .array (as.map f)) (.items R) := by
  intro n d as hd h
  cases hd with
  | @array m xs hitems =>
    refine ⟨xs, as.map f, rfl, rfl, ?_⟩
    have hmap : xs.mapM decode = .ok as := h
    clear h
    induction xs generalizing as with
    | nil =>
      cases hmap
      exact .nil
    | cons x xs ih =>
      rw [List.mapM_cons] at hmap
      obtain ⟨a, ha, hmap⟩ := bind_eq_ok.1 hmap
      obtain ⟨rest, hrest, hmap⟩ := bind_eq_ok.1 hmap
      cases hmap
      rw [List.forall_mem_cons] at hitems
      exact .cons (hcarries hitems.1 ha) (ih hitems.2 hrest)
  | _ => cases h

/-- Of entries under names the last ones are left. -/
theorem lastOf_of_foldlM_entry {ms : List (String × Draft)} {m : Keyed α}
    (h : ms.foldlM (entry decode) [] = .ok m) :
    Keyed.LastOf (fun d a => decode d = .ok a) ms m := by
  induction ms using List.reverseRecOn generalizing m with
  | nil =>
    cases h
    exact Keyed.lastOf_nil _
  | append_singleton ms e ih =>
    rw [List.foldlM_append] at h
    obtain ⟨m', hm', h⟩ := bind_eq_ok.1 h
    rw [List.foldlM_cons] at h
    obtain ⟨m'', hentry, h⟩ := bind_eq_ok.1 h
    cases h
    obtain ⟨a, ha, rfl⟩ := map_eq_ok.1 hentry
    exact (ih hm').put e.1 ha

theorem carries_keyed (hcarries : Carries decode f R) :
    Carries (keyed decode) (fun m => .object (m.map fun e => (e.1, f e.2))) (.members R) := by
  intro n d m hd h
  cases hd with
  | @object k ms hvalues =>
    refine ⟨ms, _, rfl, rfl, ?_⟩
    have hlast := lastOf_of_foldlM_entry (show ms.foldlM (entry decode) [] = .ok m from h)
    exact hlast.map fun e he a ha => hcarries (hvalues e he) ha
  | _ => cases h

/-! ## Records -/

/--
What reading a member does to the fields that are written so far and to the members without a
field: a field that was empty gets its value, unless that is null; or the member is kept.
-/
inductive Taken (fields : Keyed Carry) (e : String × Draft) (own : Keyed (Option Json))
    (other : Keyed Json) : Keyed (Option Json) → Keyed Json → Prop
  | field {R : Carry} {v : Option Json} (hfield : Keyed.get? e.1 fields = some R)
      (hempty : Keyed.get? e.1 own = some none)
      (hcarried : e.2 = .null ∨ ∃ j, v = some j ∧ R e.2 j) :
      Taken fields e own other (Keyed.put e.1 v own) other
  | other {other' : Keyed Json} (hname : e.1 ∉ Keyed.keys fields)
      (hkeep : keep other e.1 e.2 = .ok other') : Taken fields e own other own other'

section

variable {fields : Keyed Carry} {name : String} {own : Keyed (Option Json)} {other : Keyed Json}
  {n : ℕ} {d : Draft}

theorem taken_fill {slot slot' : Option α} (hcarries : Carries decode f R) (hd : d.Fits n)
    (h : fill name slot decode d = .ok slot') (hfield : Keyed.get? name fields = some R)
    (hown : Keyed.get? name own = some (slot.map f)) :
    Taken fields (name, d) own other (Keyed.put name (slot'.map f) own) other := by
  cases slot with
  | some a => cases h
  | none =>
    obtain ⟨a, ha, rfl⟩ := fill_eq_ok h
    exact .field hfield hown (.inr ⟨f a, rfl, hcarries hd ha⟩)

theorem taken_fill_optional {slot slot' : Option (Option α)} (hcarries : Carries decode f R)
    (hd : d.Fits n) (h : fill name slot (optional decode) d = .ok slot')
    (hfield : Keyed.get? name fields = some R)
    (hown : Keyed.get? name own = some (slot.join.map f)) :
    Taken fields (name, d) own other (Keyed.put name (slot'.join.map f) own) other := by
  cases slot with
  | some a => cases h
  | none =>
    obtain ⟨v, hv, rfl⟩ := fill_eq_ok h
    refine .field hfield hown ?_
    unfold optional at hv
    split at hv
    · exact .inl rfl
    · obtain ⟨a, ha, rfl⟩ := map_eq_ok.1 hv
      exact .inr ⟨f a, rfl, hcarries hd ha⟩

end

/-- What has been read of a record so far: members without a field, and members of the fields. -/
structure Reading (fields : Keyed Carry) (ms : List (String × Draft)) (own : Keyed (Option Json))
    (other : Keyed Json) : Prop where
  others : Keyed.LastOf Carry.plain (Keyed.others (Keyed.keys fields) ms) other
  known : ∀ e ∈ ms, ∀ R, Keyed.get? e.1 fields = some R →
    e.2 = .null ∨ ∃ v, Keyed.get? e.1 own = some (some v) ∧ R e.2 v

theorem reading_nil (fields : Keyed Carry) (own : Keyed (Option Json)) :
    Reading fields [] own [] where
  others := Keyed.lastOf_nil _
  known := by rintro e ⟨⟩

theorem Reading.taken {fields : Keyed Carry} {ms : List (String × Draft)}
    {own own' : Keyed (Option Json)} {other other' : Keyed Json} {e : String × Draft}
    (h : Reading fields ms own other) (htaken : Taken fields e own other own' other') :
    Reading fields (ms ++ [e]) own' other' := by
  cases htaken with
  | @field R v hfield hempty hcarried =>
    have hknown : e.1 ∈ Keyed.keys fields := by
      by_contra hname
      rw [Keyed.get?_eq_none_iff.2 hname] at hfield
      cases hfield
    refine ⟨?_, ?_⟩
    · rw [Keyed.others_concat_of_mem hknown]
      exact h.others
    · rw [List.forall_mem_append, List.forall_mem_singleton]
      refine ⟨fun e' he' R' hR' => ?_, fun R' hR' => ?_⟩
      · refine (h.known e' he' R' hR').imp_right ?_
        rintro ⟨w, hw, hcarried'⟩
        have hne : e'.1 ≠ e.1 := by
          intro heq
          rw [heq, hempty] at hw
          cases hw
        exact ⟨w, by rw [Keyed.get?_put_of_ne hne, hw], hcarried'⟩
      · rw [hfield] at hR'
        cases hR'
        refine hcarried.imp_right ?_
        rintro ⟨j, rfl, hj⟩
        exact ⟨j, Keyed.get?_put_self _ _ _, hj⟩
  | other hname hkeep =>
    obtain ⟨j, hj, rfl⟩ := map_eq_ok.1 hkeep
    refine ⟨?_, ?_⟩
    · rw [Keyed.others_concat_of_not_mem hname]
      exact h.others.put e.1 (json_eq_ok.1 hj)
    · rw [List.forall_mem_append, List.forall_mem_singleton]
      refine ⟨h.known, fun R hR => ?_⟩
      rw [Keyed.get?_eq_none_iff.2 hname] at hR
      cases hR

section

variable {σ : Type} {take : σ → String × Draft → Except ReadError σ} {fields : Keyed Carry} {n : ℕ}
  (own : σ → Keyed (Option Json)) (other : σ → Keyed Json)
  (htake : ∀ s t e, e.2.Fits n → take s e = .ok t →
    Taken fields e (own s) (other s) (own t) (other t))
  {ms : List (String × Draft)} (hms : ∀ e ∈ ms, e.2.Fits n) {s t : σ} (hs : other s = [])
  (h : ms.foldlM take s = .ok t)

include htake hms hs h

theorem reading_of_foldlM : Reading fields ms (own t) (other t) := by
  induction ms using List.reverseRecOn generalizing t with
  | nil =>
    cases h
    rw [hs]
    exact reading_nil fields (own s)
  | append_singleton ms e ih =>
    rw [List.forall_mem_append, List.forall_mem_singleton] at hms
    rw [List.foldlM_append] at h
    obtain ⟨u, hu, h⟩ := bind_eq_ok.1 h
    rw [List.foldlM_cons] at h
    obtain ⟨t', ht, h⟩ := bind_eq_ok.1 h
    cases h
    exact (ih hms.1 hu).taken (htake u t e hms.2 ht)

/--
A record is carried over if its reader takes each member as it should. What is written for it are
the members of the fields, among them at least those that were read, and the members without a
field.
-/
theorem record_of_foldlM {written : Keyed Json}
    (hwritten : ∀ k v, Keyed.get? k (own t) = some (some v) → (k, v) ∈ written)
    (hfields : Keyed.keys written ⊆ Keyed.keys fields)
    (hvalid : (Json.object (written ++ other t)).Valid) :
    Carry.record fields (.object ms) (.object (written ++ other t)) := by
  have hreading : Reading fields ms (own t) (other t) := reading_of_foldlM own other htake hms hs h
  have hothers : Keyed.others (Keyed.keys fields) (written ++ other t) = other t := by
    refine Keyed.others_append_of_unknown hfields fun k hk => ?_
    rw [hreading.others.names, List.mem_eraseDups] at hk
    obtain ⟨e, he, rfl⟩ := List.mem_map.1 hk
    simpa using (List.mem_filter.1 he).2
  cases hvalid with
  | object hnames hvalues =>
    refine ⟨ms, _, rfl, rfl, hnames, ?_, ?_⟩
    · rw [hothers]
      exact hreading.others
    · intro e he R hR
      refine (hreading.known e he R hR).imp_right ?_
      rintro ⟨v, hv, hcarried⟩
      exact ⟨v, List.mem_append_left _ (hwritten e.1 v hv), hcarried⟩

end

end Decode

end BenchHistory
