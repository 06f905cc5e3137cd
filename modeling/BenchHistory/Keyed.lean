/-!
# Lists of named entries

A list of pairs that keeps the order in which its names were first written.
Writing a name that is present changes its value where it stands; a new name
goes to the end.
-/

namespace BenchHistory

/-- Values under names, in the order of first writing. -/
abbrev Keyed (α : Type) := List (String × α)

namespace Keyed

variable {α : Type}

/-- The names, in order. -/
def keys (m : Keyed α) : List String :=
  m.map (·.1)

/-- The value under a name: the first one, should the name be there twice. -/
def get? (k : String) : Keyed α → Option α
  | [] => none
  | (j, v) :: m => if j = k then some v else get? k m

/-- Writes a value under a name. -/
def put (k : String) (v : α) : Keyed α → Keyed α
  | [] => [(k, v)]
  | (j, w) :: m => if j = k then (j, v) :: m else (j, w) :: put k v m

/-- Writes several values, one after the other. -/
def putAll (m : Keyed α) (entries : List (String × α)) : Keyed α :=
  entries.foldl (fun m e => put e.1 e.2 m) m

variable {j k : String} {m m' : Keyed α} {e : String × α}

/-! ## Names -/

theorem mem_keys_of_mem (h : e ∈ m) : e.1 ∈ keys m :=
  List.mem_map_of_mem h

theorem keys_append (m m' : Keyed α) : keys (m ++ m') = keys m ++ keys m' :=
  List.map_append

theorem not_mem_keys_of_nodup (h : (keys (m ++ e :: m')).Nodup) : e.1 ∉ keys m := by
  intro hmem
  rw [keys_append, List.nodup_append] at h
  exact h.2.2 e.1 hmem e.1 List.mem_cons_self rfl

/-! ## Looking up -/

@[simp] theorem get?_nil (k : String) : get? k ([] : Keyed α) = none := rfl

theorem get?_eq_none_iff : get? k m = none ↔ k ∉ keys m := by
  induction m with
  | nil => exact ⟨fun _ => List.not_mem_nil, fun _ => rfl⟩
  | cons e m ih =>
    show (if e.1 = k then some e.2 else get? k m) = none ↔ k ∉ e.1 :: keys m
    rw [List.mem_cons, not_or]
    split
    · next hk => exact ⟨nofun, fun h => absurd hk.symm h.1⟩
    · next hk => exact ⟨fun h => ⟨fun heq => hk heq.symm, ih.1 h⟩, fun h => ih.2 h.2⟩

theorem mem_of_get? {v : α} (h : get? k m = some v) : (k, v) ∈ m := by
  induction m with
  | nil => cases h
  | cons e m ih =>
    unfold get? at h
    split at h
    · next hk =>
      cases h
      rw [← hk]
      exact List.mem_cons_self
    · exact List.mem_cons_of_mem e (ih h)

/-- A name that is there once is looked up. -/
theorem get?_of_mem (hnames : (keys m).Nodup) (he : e ∈ m) : get? e.1 m = some e.2 := by
  induction m with
  | nil => cases he
  | cons f m ih =>
    obtain ⟨hnew, hnames⟩ := List.nodup_cons.1 hnames
    unfold get?
    obtain rfl | hmem := List.mem_cons.1 he
    · rw [if_pos rfl]
    · have hne : f.1 ≠ e.1 := by
        intro heq
        refine hnew ?_
        show f.1 ∈ keys m
        rw [heq]
        exact mem_keys_of_mem hmem
      rw [if_neg hne, ih hnames hmem]

theorem get?_append (k : String) (m m' : Keyed α) :
    get? k (m ++ m') = (get? k m).or (get? k m') := by
  induction m with
  | nil => rfl
  | cons e m ih => by_cases hk : e.1 = k <;> simp [get?, hk, ih]

theorem get?_map {β : Type} (f : α → β) (k : String) (m : Keyed α) :
    get? k (m.map fun e => (e.1, f e.2)) = (get? k m).map f := by
  induction m with
  | nil => rfl
  | cons e m ih =>
    rw [List.map_cons, get?, get?]
    split
    · rfl
    · exact ih

/-! ## Writing -/

@[simp] theorem get?_put_self (k : String) (v : α) (m : Keyed α) :
    get? k (put k v m) = some v := by
  induction m with
  | nil => simp [put, get?]
  | cons e m ih => by_cases h : e.1 = k <;> simp [put, get?, h, ih]

theorem get?_put_of_ne (h : j ≠ k) (v : α) (m : Keyed α) :
    get? j (put k v m) = get? j m := by
  induction m with
  | nil => simp [put, get?, h.symm]
  | cons e m ih =>
    by_cases hk : e.1 = k
    · simp [put, get?, hk, h.symm]
    · by_cases hj : e.1 = j
      · simp [put, get?, hj, h]
      · simp [put, get?, hk, hj, ih]

/-- Writing what is there anyway changes nothing. -/
theorem put_of_get? {v : α} (h : get? k m = some v) : put k v m = m := by
  induction m with
  | nil => cases h
  | cons e m ih =>
    obtain ⟨j, u⟩ := e
    unfold get? at h
    unfold put
    split at h
    · next hk =>
      cases h
      rw [if_pos hk]
    · next hk => rw [if_neg hk, ih h]

theorem put_of_not_mem (h : k ∉ keys m) (v : α) : put k v m = m ++ [(k, v)] := by
  induction m with
  | nil => rfl
  | cons e m ih =>
    have hk : e.1 ≠ k := fun hk => h (by simp [keys, hk])
    simpa [put, hk] using ih fun hm => h (by simpa [keys] using Or.inr (by simpa [keys] using hm))

theorem keys_put_of_mem (h : k ∈ keys m) (v : α) : keys (put k v m) = keys m := by
  induction m with
  | nil => simp [keys] at h
  | cons e m ih =>
    by_cases hk : e.1 = k
    · simp [put, keys, hk]
    · have hm : k ∈ keys m := by
        simp only [keys, List.map_cons, List.mem_cons] at h
        exact h.resolve_left fun he => hk he.symm
      have ih := ih hm
      simp only [keys] at ih
      simp [put, keys, hk, ih]

theorem mem_keys_put {v : α} (h : j ∈ keys (put k v m)) : j = k ∨ j ∈ keys m := by
  by_cases hk : k ∈ keys m
  · rw [keys_put_of_mem hk] at h
    exact .inr h
  · rw [put_of_not_mem hk, keys_append, List.mem_append] at h
    exact h.symm.imp_left List.mem_singleton.1

theorem nodup_keys_put (h : (keys m).Nodup) (k : String) (v : α) : (keys (put k v m)).Nodup := by
  by_cases hk : k ∈ keys m
  · rw [keys_put_of_mem hk]
    exact h
  · rw [put_of_not_mem hk, keys_append, List.nodup_append]
    refine ⟨h, List.pairwise_singleton _ k, ?_⟩
    rintro j hj _ hk' rfl
    have heq : j = k := List.mem_singleton.1 hk'
    rw [heq] at hj
    exact hk hj

theorem mem_put {v : α} (h : e ∈ put k v m) : e ∈ m ∨ e.2 = v := by
  induction m with
  | nil => exact .inr (congrArg Prod.snd (List.mem_singleton.1 h))
  | cons d m ih =>
    unfold put at h
    split at h
    · obtain rfl | hm := List.mem_cons.1 h
      · exact .inr rfl
      · exact .inl (List.mem_cons_of_mem _ hm)
    · obtain rfl | hm := List.mem_cons.1 h
      · exact .inl List.mem_cons_self
      · exact (ih hm).imp_left (List.mem_cons_of_mem _)

/-- Two names may be written in either order, unless both are new. -/
theorem put_comm (hne : j ≠ k) (hmem : j ∈ keys m ∨ k ∈ keys m) (v w : α) :
    put k w (put j v m) = put j v (put k w m) := by
  induction m with
  | nil => simp [keys] at hmem
  | cons e m ih =>
    obtain ⟨i, x⟩ := e
    by_cases hj : i = j
    · subst hj
      simp [put, hne]
    by_cases hk : i = k
    · subst hk
      simp [put, hne.symm]
    · have hrest : j ∈ keys m ∨ k ∈ keys m := by
        simpa [keys, Ne.symm hj, Ne.symm hk] using hmem
      simp [put, hj, hk, ih hrest]

theorem length_flatMap_put (k : String) (x : α) (m : Keyed (List α)) :
    ((put k ((get? k m).getD [] ++ [x]) m).flatMap (·.2)).length =
      (m.flatMap (·.2)).length + 1 := by
  induction m with
  | nil => rfl
  | cons e m ih =>
    by_cases hk : e.1 = k
    · simp [put, get?, hk]
      omega
    · simp only [put, get?, hk, if_false, List.flatMap_cons, List.length_append, ih]
      omega

end Keyed

end BenchHistory
