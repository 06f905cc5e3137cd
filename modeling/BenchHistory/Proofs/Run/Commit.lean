import BenchHistory.Proofs.Json.Record
import BenchHistory.Run.Json

/-!
# Commits read back

Identities and commits are read back from their JSON (`Commit.decode_toJson`), and whatever is
read is of the kind that is read back (`Commit.valid_of_decode`).
-/

namespace BenchHistory

open Decode

/-! ## Optional members -/

theorem forall_mem_textField (name : String) (s : Option String) :
    ∀ e ∈ textField name s, e.2.Valid ∧ e.2.nesting = 0 := by
  refine forall_mem_field? (p := fun j => j.Valid ∧ j.nesting = 0) ?_
  intro j hj
  obtain ⟨t, -, rfl⟩ := Option.map_eq_some_iff.1 hj
  exact ⟨.string t, rfl⟩

theorem join_map_some {α : Type} (o : Option α) : (o.map some).join = o := by
  cases o <;> rfl

theorem foldlM_textField {σ : Type} {take : σ → String × Draft → Except ReadError σ}
    {name : String} {v : Option String} {s t : σ} (hnone : v = none → s = t)
    (hsome : ∀ x, v = some x → take s (name, .string x) = .ok t) :
    (Json.membersToDraft (textField name v)).foldlM take s = .ok t := by
  refine foldlM_field? (fun h => hnone (Option.map_eq_none_iff.1 h)) ?_
  intro j hj
  obtain ⟨x, hx, rfl⟩ := Option.map_eq_some_iff.1 hj
  exact hsome x hx

namespace Identity

/-- The names of the fields, in the order in which they are written. -/
def fields : List String := ["email", "name", "username"]

/-- The members of the fields. -/
def own (i : Identity) : List (String × Json) :=
  textField "email" i.email ++ textField "name" i.name ++ textField "username" i.username

theorem toJson_eq (i : Identity) : i.toJson = .object (i.own ++ i.other) := rfl

/-- What an identity has to be to be read back. -/
structure Valid (i : Identity) : Prop where
  other : Kept fields i.other

theorem forall_mem_own (i : Identity) : ∀ e ∈ i.own, e.2.Valid ∧ e.2.nesting = 0 := by
  unfold own
  rw [List.forall_mem_append, List.forall_mem_append]
  exact ⟨⟨forall_mem_textField _ _, forall_mem_textField _ _⟩, forall_mem_textField _ _⟩

theorem Valid.toJson {i : Identity} (hi : i.Valid) : i.toJson.Valid := by
  rw [toJson_eq]
  refine valid_record (by decide) ?_ (fun e he => (i.forall_mem_own e he).1)
    hi.other
  unfold own
  rw [Keyed.keys_append, Keyed.keys_append]
  exact ((keys_field?_sublist _ _).append (keys_field?_sublist _ _)).append
    (keys_field?_sublist _ _)

theorem nesting_toJson_le {i : Identity} {n : ℕ} (h : ∀ e ∈ i.other, e.2.nesting ≤ n) :
    i.toJson.nesting ≤ n + 1 := by
  rw [toJson_eq, Json.nesting_object_le_iff, List.forall_mem_append]
  refine ⟨fun e he => ?_, h⟩
  rw [(i.forall_mem_own e he).2]
  exact Nat.zero_le n

/-- What has been read so far is valid and nested at most so deep. -/
structure Slots.Fits (n : ℕ) (s : Slots) : Prop where
  other : Kept fields s.other
  nesting : ∀ e ∈ s.other, e.2.nesting ≤ n

theorem Slots.Fits.take {n : ℕ} {s t : Slots} (hs : s.Fits n) {e : String × Draft}
    (he : e.2.Fits n) (h : s.take e = .ok t) : t.Fits n := by
  unfold Slots.take at h
  split at h
  case h_1 | h_2 | h_3 =>
    obtain ⟨a, -, h⟩ := bind_eq_ok.1 h
    cases h
    exact ⟨hs.other, hs.nesting⟩
  case h_4 k d hemail hname husername =>
    obtain ⟨a, ha, h⟩ := bind_eq_ok.1 h
    cases h
    have hk : k ∉ fields := by
      simp only [fields, List.mem_cons, List.not_mem_nil, or_false, not_or]
      exact ⟨hemail, hname, husername⟩
    obtain ⟨hother, hnesting⟩ := hs.other.keep hs.nesting hk he ha
    exact ⟨hother, hnesting⟩

/-- What is read of a draft that fits is valid and fits, too. -/
theorem valid_of_decode {n : ℕ} {d : Draft} (hd : d.Fits n) {i : Identity}
    (h : decode d = .ok i) : i.Valid ∧ i.toJson.nesting ≤ n := by
  cases hd with
  | object hvalues =>
    obtain ⟨s, hs, h⟩ := bind_eq_ok.1 h
    cases h
    have hfits := invariant_foldlM (p := Slots.Fits _)
      (fun e he s t hs ht => hs.take (hvalues e he) ht) ⟨kept_nil _, by rintro e ⟨⟩⟩ hs
    exact ⟨⟨hfits.other⟩, nesting_toJson_le hfits.nesting⟩
  | _ => cases h

theorem Slots.take_other (s : Slots) (o : Keyed Json) (k : String) (d : Draft) (hk : k ∉ fields) :
    Slots.take { s with other := o } (k, d) = (keep o k d).map fun o => { s with other := o } := by
  have hk' : k ≠ "email" ∧ k ≠ "name" ∧ k ≠ "username" := by simpa [fields] using hk
  unfold Slots.take
  split
  case h_1 | h_2 | h_3 => simp_all
  case h_4 heq =>
    cases heq
    rfl

/-- The slots when all members of an identity have been read. -/
def slots (i : Identity) : Slots :=
  ⟨i.email.map some, i.name.map some, i.username.map some, i.other⟩

theorem finish_slots (i : Identity) : i.slots.finish = i := by
  unfold slots Slots.finish
  simp only [join_map_some]

/-- A valid identity is read back. -/
theorem decode_toJson {i : Identity} (hi : i.Valid) : decode i.toJson.toDraft = .ok i := by
  have hemail : (Json.membersToDraft (textField "email" i.email)).foldlM Slots.take
      ⟨none, none, none, []⟩ = .ok ⟨i.email.map some, none, none, []⟩ :=
    foldlM_textField (fun h => by rw [h]; rfl) (fun x h => by rw [h]; rfl)
  have hname : (Json.membersToDraft (textField "name" i.name)).foldlM Slots.take
      ⟨i.email.map some, none, none, []⟩ = .ok ⟨i.email.map some, i.name.map some, none, []⟩ :=
    foldlM_textField (fun h => by rw [h]; rfl) (fun x h => by rw [h]; rfl)
  have husername : (Json.membersToDraft (textField "username" i.username)).foldlM Slots.take
      ⟨i.email.map some, i.name.map some, none, []⟩ = .ok { i.slots with other := [] } :=
    foldlM_textField (fun h => by rw [slots, h]; rfl) (fun x h => by rw [slots, h]; rfl)
  have hother : (Json.membersToDraft i.other).foldlM Slots.take { i.slots with other := [] } =
      .ok i.slots :=
    foldlM_others (Slots.take_other i.slots) hi.other
  have hall := foldlM_members_append (foldlM_members_append (foldlM_members_append hemail hname)
    husername) hother
  rw [toJson_eq, Json.toDraft]
  unfold decode own
  simp only [hall]
  exact congrArg Except.ok i.finish_slots

end Identity

namespace Commit

/-- The names of the fields, in the order in which they are written. -/
def fields : List String :=
  ["author", "committer", "distinct", "id", "message", "timestamp", "tree_id", "url"]

def own (c : Commit) : List (String × Json) :=
  Json.field? "author" (c.author.map Identity.toJson) ++
    Json.field? "committer" (c.committer.map Identity.toJson) ++
    Json.field? "distinct" (c.distinct.map .bool) ++
    [("id", .string c.id), ("message", .string c.message)] ++
    textField "timestamp" c.timestamp ++ textField "tree_id" c.treeId ++ textField "url" c.url

theorem toJson_eq (c : Commit) : c.toJson = .object (c.own ++ c.other) := rfl

/-- What a commit has to be to be read back. -/
structure Valid (c : Commit) : Prop where
  author : ∀ i ∈ c.author, i.Valid
  committer : ∀ i ∈ c.committer, i.Valid
  other : Kept fields c.other

/-- What holds of the members of the fields if it holds of plain values and of identities. -/
theorem forall_mem_own {p : Json → Prop} {c : Commit}
    (hplain : ∀ j : Json, j.Valid → j.nesting = 0 → p j)
    (hauthor : ∀ i ∈ c.author, p i.toJson) (hcommitter : ∀ i ∈ c.committer, p i.toJson) :
    ∀ e ∈ c.own, p e.2 := by
  have htext : ∀ name s, ∀ e ∈ textField name s, p e.2 := by
    intro name s e he
    obtain ⟨hvalid, hnesting⟩ := forall_mem_textField name s e he
    exact hplain e.2 hvalid hnesting
  have hidentity : ∀ name (i : Option Identity), (∀ a ∈ i, p a.toJson) →
      ∀ e ∈ Json.field? name (i.map Identity.toJson), p e.2 := by
    intro name i hi
    refine forall_mem_field? ?_
    intro j hj
    obtain ⟨a, ha, rfl⟩ := Option.map_eq_some_iff.1 hj
    exact hi a ha
  have hdistinct : ∀ e ∈ Json.field? "distinct" (c.distinct.map .bool), p e.2 := by
    refine forall_mem_field? ?_
    intro j hj
    obtain ⟨b, -, rfl⟩ := Option.map_eq_some_iff.1 hj
    exact hplain _ (.bool b) rfl
  have hstrings : ∀ e ∈ [("id", Json.string c.id), ("message", .string c.message)], p e.2 := by
    rw [List.forall_mem_cons, List.forall_mem_singleton]
    exact ⟨hplain _ (.string _) rfl, hplain _ (.string _) rfl⟩
  unfold own
  simp only [List.forall_mem_append]
  exact ⟨⟨⟨⟨⟨⟨hidentity _ _ hauthor, hidentity _ _ hcommitter⟩, hdistinct⟩, hstrings⟩,
    htext _ _⟩, htext _ _⟩, htext _ _⟩

theorem keys_own_sublist (c : Commit) : List.Sublist (Keyed.keys c.own) fields := by
  unfold own
  simp only [Keyed.keys_append]
  exact ((((((keys_field?_sublist _ _).append (keys_field?_sublist _ _)).append
    (keys_field?_sublist _ _)).append (List.Sublist.refl ["id", "message"])).append
    (keys_field?_sublist _ _)).append (keys_field?_sublist _ _)).append (keys_field?_sublist _ _)

theorem Valid.toJson {c : Commit} (hc : c.Valid) : c.toJson.Valid := by
  rw [toJson_eq]
  refine valid_record (by decide) c.keys_own_sublist ?_ hc.other
  exact forall_mem_own (fun j hj _ => hj) (fun i hi => (hc.author i hi).toJson)
    fun i hi => (hc.committer i hi).toJson

theorem nesting_toJson_le {c : Commit} {n : ℕ} (hauthor : ∀ i ∈ c.author, i.toJson.nesting ≤ n)
    (hcommitter : ∀ i ∈ c.committer, i.toJson.nesting ≤ n)
    (hother : ∀ e ∈ c.other, e.2.nesting ≤ n) : c.toJson.nesting ≤ n + 1 := by
  rw [toJson_eq, Json.nesting_object_le_iff, List.forall_mem_append]
  refine ⟨forall_mem_own (p := fun j => j.nesting ≤ n) ?_ hauthor hcommitter, hother⟩
  intro j _ hj
  rw [hj]
  exact Nat.zero_le n

/-- What has been read so far is valid and nested at most so deep. -/
structure Slots.Fits (n : ℕ) (s : Slots) : Prop where
  author : ∀ i, s.author = some (some i) → i.Valid ∧ i.toJson.nesting ≤ n
  committer : ∀ i, s.committer = some (some i) → i.Valid ∧ i.toJson.nesting ≤ n
  other : Kept fields s.other
  nesting : ∀ e ∈ s.other, e.2.nesting ≤ n

theorem Slots.fits_empty (n : ℕ) : Slots.empty.Fits n where
  author := by rintro i ⟨⟩
  committer := by rintro i ⟨⟩
  other := kept_nil _
  nesting := by rintro e ⟨⟩

theorem Slots.Fits.take {n : ℕ} {s t : Slots} (hs : s.Fits n) {e : String × Draft}
    (he : e.2.Fits n) (h : s.take e = .ok t) : t.Fits n := by
  unfold Slots.take at h
  split at h
  case h_1 =>
    obtain ⟨a, ha, h⟩ := bind_eq_ok.1 h
    cases h
    refine ⟨fun i hi => ?_, hs.committer, hs.other, hs.nesting⟩
    exact Identity.valid_of_decode he (eq_of_fill_optional ha hi)
  case h_2 =>
    obtain ⟨a, ha, h⟩ := bind_eq_ok.1 h
    cases h
    refine ⟨hs.author, fun i hi => ?_, hs.other, hs.nesting⟩
    exact Identity.valid_of_decode he (eq_of_fill_optional ha hi)
  case h_3 | h_4 | h_5 | h_6 | h_7 | h_8 =>
    obtain ⟨a, -, h⟩ := bind_eq_ok.1 h
    cases h
    exact ⟨hs.author, hs.committer, hs.other, hs.nesting⟩
  case h_9 k d hauthor hcommitter hdistinct hid hmessage htimestamp htree hurl =>
    obtain ⟨a, ha, h⟩ := bind_eq_ok.1 h
    cases h
    have hk : k ∉ fields := by
      simp only [fields, List.mem_cons, List.not_mem_nil, or_false, not_or]
      exact ⟨hauthor, hcommitter, hdistinct, hid, hmessage, htimestamp, htree, hurl⟩
    obtain ⟨hother, hnesting⟩ := hs.other.keep hs.nesting hk he ha
    exact ⟨hs.author, hs.committer, hother, hnesting⟩

/-- What is read of a draft that fits is valid and fits, too. -/
theorem valid_of_decode {n : ℕ} {d : Draft} (hd : d.Fits n) {c : Commit}
    (h : decode d = .ok c) : c.Valid ∧ c.toJson.nesting ≤ n := by
  cases hd with
  | object hvalues =>
    obtain ⟨s, hs, h⟩ := bind_eq_ok.1 h
    cases h
    have hfits := invariant_foldlM (p := Slots.Fits _)
      (fun e he s t hs ht => hs.take (hvalues e he) ht) (Slots.fits_empty _) hs
    have hauthor : ∀ i ∈ s.finish.author, s.author = some (some i) := fun i hi =>
      Option.join_eq_some_iff.1 hi
    have hcommitter : ∀ i ∈ s.finish.committer, s.committer = some (some i) := fun i hi =>
      Option.join_eq_some_iff.1 hi
    exact ⟨⟨fun i hi => (hfits.author i (hauthor i hi)).1,
        fun i hi => (hfits.committer i (hcommitter i hi)).1, hfits.other⟩,
      nesting_toJson_le (fun i hi => (hfits.author i (hauthor i hi)).2)
        (fun i hi => (hfits.committer i (hcommitter i hi)).2) hfits.nesting⟩
  | _ => cases h

theorem Slots.take_other (s : Slots) (o : Keyed Json) (k : String) (d : Draft) (hk : k ∉ fields) :
    Slots.take { s with other := o } (k, d) = (keep o k d).map fun o => { s with other := o } := by
  have hk' : k ≠ "author" ∧ k ≠ "committer" ∧ k ≠ "distinct" ∧ k ≠ "id" ∧ k ≠ "message" ∧
      k ≠ "timestamp" ∧ k ≠ "tree_id" ∧ k ≠ "url" := by simpa [fields] using hk
  unfold Slots.take
  split
  case h_1 | h_2 | h_3 | h_4 | h_5 | h_6 | h_7 | h_8 => simp_all
  case h_9 heq =>
    cases heq
    rfl

theorem optional_identity {i : Identity} (hi : i.Valid) :
    optional Identity.decode i.toJson.toDraft = .ok (some i) := by
  show (Identity.decode i.toJson.toDraft).map some = _
  rw [Identity.decode_toJson hi]
  rfl

/-- The slots when all members of a commit have been read. -/
def slots (c : Commit) : Slots :=
  ⟨c.author.map some, c.committer.map some, c.distinct.map some, some c.id, some c.message,
    c.timestamp.map some, c.treeId.map some, c.url.map some, c.other⟩

theorem finish_slots (c : Commit) : c.slots.finish = c := by
  unfold slots Slots.finish
  simp only [join_map_some]
  rfl

/-- A valid commit is read back. -/
theorem decode_toJson {c : Commit} (hc : c.Valid) : decode c.toJson.toDraft = .ok c := by
  have hauthor : (Json.membersToDraft
      (Json.field? "author" (c.author.map Identity.toJson))).foldlM Slots.take Slots.empty =
        .ok { Slots.empty with author := c.author.map some } := by
    refine foldlM_field? (fun h => by rw [Option.map_eq_none_iff.1 h]; rfl) ?_
    intro j hj
    obtain ⟨i, hi, rfl⟩ := Option.map_eq_some_iff.1 hj
    simp only [Slots.take, fill, Slots.empty, optional_identity (hc.author i hi), hi]
    rfl
  have hcommitter : (Json.membersToDraft
      (Json.field? "committer" (c.committer.map Identity.toJson))).foldlM Slots.take
        { Slots.empty with author := c.author.map some } =
          .ok { Slots.empty with
            author := c.author.map some, committer := c.committer.map some } := by
    refine foldlM_field? (fun h => by rw [Option.map_eq_none_iff.1 h]; rfl) ?_
    intro j hj
    obtain ⟨i, hi, rfl⟩ := Option.map_eq_some_iff.1 hj
    simp only [Slots.take, fill, Slots.empty, optional_identity (hc.committer i hi), hi]
    rfl
  have hdistinct : (Json.membersToDraft (Json.field? "distinct" (c.distinct.map .bool))).foldlM
      Slots.take { Slots.empty with
        author := c.author.map some, committer := c.committer.map some } =
        .ok { Slots.empty with author := c.author.map some, committer := c.committer.map some,
                               distinct := c.distinct.map some } := by
    refine foldlM_field? (fun h => by rw [Option.map_eq_none_iff.1 h]; rfl) ?_
    intro j hj
    obtain ⟨b, hb, rfl⟩ := Option.map_eq_some_iff.1 hj
    rw [hb]
    rfl
  have hstrings : (Json.membersToDraft
      [("id", .string c.id), ("message", .string c.message)]).foldlM Slots.take
        { Slots.empty with author := c.author.map some, committer := c.committer.map some,
                           distinct := c.distinct.map some } =
        .ok { c.slots with timestamp := none, treeId := none, url := none, other := [] } := rfl
  have htimestamp : (Json.membersToDraft (textField "timestamp" c.timestamp)).foldlM Slots.take
      { c.slots with timestamp := none, treeId := none, url := none, other := [] } =
        .ok { c.slots with treeId := none, url := none, other := [] } :=
    foldlM_textField (fun h => by rw [slots, h]; rfl) (fun x h => by rw [slots, h]; rfl)
  have htree : (Json.membersToDraft (textField "tree_id" c.treeId)).foldlM Slots.take
      { c.slots with treeId := none, url := none, other := [] } =
        .ok { c.slots with url := none, other := [] } :=
    foldlM_textField (fun h => by rw [slots, h]; rfl) (fun x h => by rw [slots, h]; rfl)
  have hurl : (Json.membersToDraft (textField "url" c.url)).foldlM Slots.take
      { c.slots with url := none, other := [] } = .ok { c.slots with other := [] } :=
    foldlM_textField (fun h => by rw [slots, h]; rfl) (fun x h => by rw [slots, h]; rfl)
  have hother : (Json.membersToDraft c.other).foldlM Slots.take { c.slots with other := [] } =
      .ok c.slots :=
    foldlM_others (Slots.take_other c.slots) hc.other
  have hall := foldlM_members_append (foldlM_members_append (foldlM_members_append
    (foldlM_members_append (foldlM_members_append (foldlM_members_append (foldlM_members_append
      hauthor hcommitter) hdistinct) hstrings) htimestamp) htree) hurl) hother
  rw [toJson_eq, Json.toDraft]
  unfold decode own
  simp only [hall]
  exact congrArg Except.ok c.finish_slots

end Commit

end BenchHistory
