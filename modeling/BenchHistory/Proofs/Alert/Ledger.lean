import BenchHistory.Alert.Ledger
import BenchHistory.Proofs.Json.Record
import BenchHistory.Proofs.Json.RoundTrip
import Mathlib.Data.String.Basic

/-!
# The ledger and its file

The keys of a ledger that was loaded are in ascending order (`ascending_of_load`), and such keys
are read back from the text that is written for them (`read_render`). So a ledger that agrees
with its file agrees with it after one more key is written (`Backed.insert`).
-/

namespace BenchHistory

/-- What is written to a path is what is read there afterwards. -/
def Storage.Keeps (σ : Type) [Storage σ] (path : String) : Prop :=
  ∀ (disk disk' : σ) (text : String),
    Storage.write disk path text = .ok disk' → Storage.read disk' path = .text text

namespace Ledger

open Decode

/-! ## Keys in order -/

/-- Keys in ascending order, each of them once. -/
def Ascending (keys : List String) : Prop :=
  keys.Pairwise (· < ·)

theorem mem_insert {key k : String} {keys : List String} :
    k ∈ insert key keys ↔ k = key ∨ k ∈ keys := by
  induction keys with
  | nil => simp [insert]
  | cons j keys ih =>
    by_cases heq : key = j
    · simp [insert, heq]
    · by_cases hlt : key < j
      · simp [insert, heq, hlt]
      · simp only [insert, heq, hlt, if_false, List.mem_cons, ih]
        tauto

theorem ascending_insert {keys : List String} (h : Ascending keys) (key : String) :
    Ascending (insert key keys) := by
  induction keys with
  | nil => exact List.pairwise_singleton _ _
  | cons j keys ih =>
    obtain ⟨hj, hkeys⟩ := List.pairwise_cons.1 h
    by_cases heq : key = j
    · rw [insert, if_pos heq]
      exact h
    by_cases hlt : key < j
    · rw [insert, if_neg heq, if_pos hlt]
      refine List.pairwise_cons.2 ⟨fun k hk => ?_, h⟩
      obtain rfl | hk := List.mem_cons.1 hk
      · exact hlt
      · exact hlt.trans (hj k hk)
    · rw [insert, if_neg heq, if_neg hlt]
      refine List.pairwise_cons.2 ⟨fun k hk => ?_, ih hkeys⟩
      obtain rfl | hk := mem_insert.1 hk
      · exact lt_of_le_of_ne (not_lt.1 hlt) (Ne.symm heq)
      · exact hj k hk

theorem insert_of_greater {key : String} {keys : List String} (h : ∀ k ∈ keys, k < key) :
    insert key keys = keys ++ [key] := by
  induction keys with
  | nil => rfl
  | cons j keys ih =>
    obtain ⟨hj, hkeys⟩ := List.forall_mem_cons.1 h
    rw [insert, if_neg hj.ne', if_neg (not_lt.2 hj.le), ih hkeys, List.cons_append]

/-- Keys that are put in one after the other. -/
def insertAll (keys more : List String) : List String :=
  more.foldl (fun s k => insert k s) keys

theorem insertAll_append (keys more later : List String) :
    insertAll keys (more ++ later) = insertAll (insertAll keys more) later :=
  List.foldl_append

theorem mem_insertAll {k : String} {keys more : List String} :
    k ∈ insertAll keys more ↔ k ∈ keys ∨ k ∈ more := by
  induction more generalizing keys with
  | nil => simp [insertAll]
  | cons j more ih =>
    show k ∈ insertAll (insert j keys) more ↔ _
    rw [ih, mem_insert, List.mem_cons]
    tauto

theorem perm_insert {key : String} {keys : List String} (hnew : key ∉ keys) :
    (insert key keys).Perm (key :: keys) := by
  induction keys with
  | nil => exact .refl _
  | cons j keys ih =>
    rw [List.mem_cons, not_or] at hnew
    obtain ⟨hne, hnew⟩ := hnew
    by_cases hlt : key < j
    · rw [insert, if_neg hne, if_pos hlt]
    · rw [insert, if_neg hne, if_neg hlt]
      exact ((ih hnew).cons j).trans (.swap key j keys)

/-- New keys, each of them once, are all put in. -/
theorem perm_insertAll {keys more : List String} (hnodup : more.Nodup)
    (hnew : ∀ k ∈ more, k ∉ keys) : (insertAll keys more).Perm (keys ++ more) := by
  induction more generalizing keys with
  | nil =>
    rw [List.append_nil]
    exact .refl _
  | cons j more ih =>
    obtain ⟨hj, hnodup⟩ := List.nodup_cons.1 hnodup
    obtain ⟨hfirst, hnew⟩ := List.forall_mem_cons.1 hnew
    have hlater : ∀ k ∈ more, k ∉ insert j keys := by
      intro k hk hmem
      obtain rfl | hold := mem_insert.1 hmem
      · exact hj hk
      · exact hnew k hk hold
    calc insertAll keys (j :: more)
      _ = insertAll (insert j keys) more := rfl
      List.Perm _ (insert j keys ++ more) := ih hnodup hlater
      List.Perm _ (j :: keys ++ more) := (perm_insert hfirst).append_right more
      List.Perm _ (keys ++ j :: more) := List.perm_middle.symm

theorem ascending_insertAll {keys : List String} (h : Ascending keys) (more : List String) :
    Ascending (insertAll keys more) := by
  induction more generalizing keys with
  | nil => exact h
  | cons j more ih => exact ih (ascending_insert h j)

theorem insertAll_of_ascending {keys more : List String} (h : Ascending (keys ++ more)) :
    insertAll keys more = keys ++ more := by
  induction more generalizing keys with
  | nil => rw [List.append_nil]; rfl
  | cons j more ih =>
    have hj : ∀ k ∈ keys, k < j := by
      intro k hk
      exact (List.pairwise_append.1 h).2.2 k hk j List.mem_cons_self
    have happend : keys ++ j :: more = keys ++ [j] ++ more := by simp
    show insertAll (insert j keys) more = _
    rw [insert_of_greater hj, happend]
    rw [happend] at h
    exact ih h

/-! ## The text of a ledger -/

theorem valid_toJson (keys : List String) : (toJson keys).Valid := by
  refine .object (List.nodup_singleton _) ?_
  rw [List.forall_mem_singleton]
  refine .array fun x hx => ?_
  obtain ⟨k, -, rfl⟩ := List.mem_map.1 hx
  exact .string k

theorem nesting_toJson_le (keys : List String) : (toJson keys).nesting ≤ Json.maxDepth := by
  have hkey : ∀ x ∈ keys.map Json.string, x.nesting ≤ 0 := by
    intro x hx
    obtain ⟨k, -, rfl⟩ := List.mem_map.1 hx
    exact le_refl 0
  have harray : (Json.array (keys.map .string)).nesting ≤ 1 := Json.nesting_array_le_iff.2 hkey
  have hobject : (toJson keys).nesting ≤ 2 := by
    unfold toJson
    rw [Json.nesting_object_le_iff, List.forall_mem_singleton]
    exact harray
  exact hobject.trans (by decide)

theorem decode_toJson {keys : List String} (h : Ascending keys) :
    decode (toJson keys).toDraft = .ok keys := by
  have hlist : list string (Json.array (keys.map .string)).toDraft = .ok (keys.map id) :=
    list_toDraft fun _ _ => rfl
  have hset : keySet (Json.array (keys.map .string)).toDraft = .ok keys := by
    unfold keySet
    rw [hlist, List.map_id]
    exact congrArg Except.ok (insertAll_of_ascending (show Ascending ([] ++ keys) from h))
  have htake : takeMember none ("emitted", (Json.array (keys.map .string)).toDraft) =
      .ok (some keys) := by
    show (keySet (Json.array (keys.map .string)).toDraft).map some = _
    rw [hset]
    rfl
  show (do return (← [("emitted", (Json.array (keys.map .string)).toDraft)].foldlM
    takeMember none).getD [] : Except ReadError (List String)) = _
  rw [List.foldlM_cons, htake]
  rfl

/-- Keys in order are read back from the text that is written for them. -/
theorem read_render {keys : List String} (h : Ascending keys) :
    Decode.read decode (render keys).toList = .ok keys := by
  unfold Decode.read render Json.pretty
  rw [String.toList_ofList, Json.draft_text Json.Layout.blank_pretty (valid_toJson keys)
    (nesting_toJson_le keys) 0]
  simp only [decode_toJson h]
  rfl

theorem ascending_of_keySet {d : Draft} {keys : List String} (h : keySet d = .ok keys) :
    Ascending keys := by
  obtain ⟨ks, -, rfl⟩ := map_eq_ok.1 h
  exact ascending_insertAll List.Pairwise.nil ks

theorem ascending_of_takeMember {s t : Option (List String)} {e : String × Draft}
    (hs : ∀ keys ∈ s, Ascending keys) (h : takeMember s e = .ok t) :
    ∀ keys ∈ t, Ascending keys := by
  unfold takeMember at h
  split at h
  · obtain ⟨keys, hkeys, rfl⟩ := fill_eq_ok h
    rintro _ ⟨⟩
    exact ascending_of_keySet hkeys
  · obtain ⟨-, -, h⟩ := bind_eq_ok.1 h
    cases h
    exact hs

theorem ascending_of_decode {d : Draft} {keys : List String} (h : decode d = .ok keys) :
    Ascending keys := by
  unfold decode at h
  split at h
  · obtain ⟨s, hs, h⟩ := bind_eq_ok.1 h
    cases h
    have hall : ∀ keys ∈ s, Ascending keys :=
      invariant_foldlM (p := fun s : Option (List String) => ∀ keys ∈ s, Ascending keys)
        (fun e _ s t hs ht => ascending_of_takeMember hs ht) (by simp) hs
    cases s with
    | none => exact List.Pairwise.nil
    | some keys => exact hall keys rfl
  · obtain ⟨keys, hkeys, h⟩ := bind_eq_ok.1 h
    obtain ⟨-, -, h⟩ := bind_eq_ok.1 h
    cases h
    unfold itemOr at hkeys
    split at hkeys
    · exact ascending_of_keySet hkeys
    · cases hkeys
      exact List.Pairwise.nil
  · cases h

/-! ## Ledger and file -/

variable {σ : Type} [Storage σ]

/-- The ledger agrees with its file, if it has one. -/
def Synced (l : Ledger) (disk : σ) : Prop :=
  ∀ path, l.path = some path → load disk path = .ok l

theorem path_of_load {disk : σ} {path : String} {l : Ledger} (h : load disk path = .ok l) :
    l.path = some path := by
  unfold load at h
  split at h
  · cases h
    rfl
  · cases h
  · split at h
    · cases h
      rfl
    · cases h

theorem synced_of_load {disk : σ} {path : String} {l : Ledger} (h : load disk path = .ok l) :
    l.Synced disk := by
  intro path' hpath
  rw [path_of_load h] at hpath
  cases hpath
  exact h

theorem ascending_of_load {disk : σ} {path : String} {l : Ledger} (h : load disk path = .ok l) :
    Ascending l.keys := by
  unfold load at h
  split at h
  · cases h
    exact List.Pairwise.nil
  · cases h
  · split at h
    · next keys hread =>
      cases h
      exact ascending_of_decode (decode_of_read hread)
    · cases h

/-- What recording a new key does: the key is put in, or the file could not be written. -/
theorem record_cases {l : Ledger} {key : String} (hnew : key ∉ l.keys) (disk : σ) :
    (∃ disk', l.record key disk = (.ok true, { l with keys := insert key l.keys }, disk') ∧
      ∀ path, l.path = some path →
        Storage.write disk path (render (insert key l.keys)) = .ok disk') ∨
      ∃ path place, l.path = some path ∧
        Storage.write disk path (render (insert key l.keys)) = .error place ∧
        l.record key disk = (.error (.file place), l, disk) := by
  unfold record
  rw [if_neg hnew]
  split
  · next hpath => exact .inl ⟨disk, rfl, by rw [hpath]; nofun⟩
  · next path hpath =>
    match hwrite : Storage.write disk path (render (insert key l.keys)) with
    | .ok disk' =>
      refine .inl ⟨disk', by simp only [hwrite], ?_⟩
      rw [hpath]
      rintro _ ⟨⟩
      exact hwrite
    | .error place => exact .inr ⟨path, place, hpath, hwrite, by simp only [hwrite]⟩

/-- The ledger agrees with its file, and the file keeps what is written to it. -/
structure Backed (l : Ledger) (disk : σ) : Prop where
  synced : l.Synced disk
  keeps : ∀ path, l.path = some path → Storage.Keeps σ path

theorem backed_of_load {disk : σ} {path : String} {l : Ledger} (h : load disk path = .ok l)
    (hkeeps : Storage.Keeps σ path) : l.Backed disk where
  synced := synced_of_load h
  keeps := by
    intro path' hpath
    rw [path_of_load h] at hpath
    cases hpath
    exact hkeeps

/-- A key that is written to the file is read back from it. -/
theorem Backed.insert {l : Ledger} {disk disk' : σ} (hl : l.Backed disk) {key : String}
    (hwrite : ∀ path, l.path = some path →
      Storage.write disk path (render (insert key l.keys)) = .ok disk') :
    ({ l with keys := Ledger.insert key l.keys } : Ledger).Backed disk' where
  synced := by
    intro path hpath
    have hread := hl.keeps path hpath disk disk' _ (hwrite path hpath)
    have hascending := ascending_insert (ascending_of_load (hl.synced path hpath)) key
    unfold load
    simp only [hread, read_render hascending]
    rw [← show l.path = some path from hpath]
  keeps := hl.keeps

end Ledger

end BenchHistory
