import BenchHistory.Proofs.Command.Reload
import BenchHistory.Proofs.Command.Telling

/-!
# One file for history and ledger

A ledger reads as a history without runs (`History.ofText_render_ledger`), and a history as a
ledger without keys (`Ledger.read_render_history`). So nothing fails if the settings put the ledger
where the history is, but the first alert that is delivered takes the place of all runs
(`Settings.read_tell_shared`).
-/

namespace BenchHistory

open Decode

variable {ρ σ : Type} [Sink ρ] [Storage σ]

/-! ## Reading one as the other -/

theorem Draft.skipItems_eq_none {ds : List Draft} (h : ∀ d ∈ ds, d.skipFault = none) :
    skipItems ds = none := by
  induction ds with
  | nil => rfl
  | cons d ds ih =>
    obtain ⟨hd, hds⟩ := List.forall_mem_cons.1 h
    rw [skipItems, hd, ih hds]
    rfl

theorem Draft.skipMembers_eq_none {ms : List (String × Draft)}
    (h : ∀ e ∈ ms, e.2.skipFault = none) : skipMembers ms = none := by
  induction ms with
  | nil => rfl
  | cons e ms ih =>
    obtain ⟨he, hms⟩ := List.forall_mem_cons.1 h
    rw [skipMembers, he, ih hms]
    rfl

theorem Json.Valid.skipFault_toDraft {j : Json} (hj : j.Valid) : j.toDraft.skipFault = none := by
  induction hj with
  | null | bool | number | string => rfl
  | array _ ih =>
    rw [toDraft, itemsToDraft_eq]
    exact Draft.skipItems_eq_none (List.forall_mem_map.2 ih)
  | object _ _ ih =>
    rw [toDraft, membersToDraft_eq]
    exact Draft.skipMembers_eq_none (List.forall_mem_map.2 ih)

theorem Decode.pass_toDraft {j : Json} (hj : j.Valid) : pass j.toDraft = .ok () := by
  have hskip := hj.skipFault_toDraft
  cases hj <;> simp only [Json.toDraft, pass] at hskip ⊢ <;> rw [hskip]

namespace Ledger

theorem takeMember_toDraft {k : String} (hk : k ≠ "emitted") {j : Json} (hj : j.Valid)
    (keys : Option (List String)) : takeMember keys (k, j.toDraft) = .ok keys := by
  unfold takeMember
  split
  · next heq =>
    cases heq
    exact absurd rfl hk
  · next heq =>
    cases heq
    rw [pass_toDraft hj]
    rfl

/-- An object without the member of a ledger is a ledger without keys. -/
theorem decode_toDraft {ms : List (String × Json)} (hnames : "emitted" ∉ Keyed.keys ms)
    (hvalues : ∀ e ∈ ms, e.2.Valid) : decode (Json.object ms).toDraft = .ok [] := by
  have hmembers : (Json.membersToDraft ms).foldlM takeMember none = .ok none := by
    induction ms with
    | nil => rfl
    | cons e ms ih =>
      obtain ⟨hvalue, hvalues⟩ := List.forall_mem_cons.1 hvalues
      have hname : e.1 ≠ "emitted" := by
        intro heq
        refine hnames ?_
        rw [← heq]
        exact List.mem_cons_self
      show ((e.1, e.2.toDraft) :: Json.membersToDraft ms).foldlM takeMember none = _
      rw [List.foldlM_cons, takeMember_toDraft hname hvalue]
      exact ih (fun hmem => hnames (List.mem_cons_of_mem _ hmem)) hvalues
  show (do return (← (Json.membersToDraft ms).foldlM takeMember none).getD [] :
    Except ReadError (List String)) = _
  rw [hmembers]
  rfl

/-- A history without a member of that name is read as a ledger without keys. -/
theorem read_render_history {h : History} (hh : h.Valid)
    (hdepth : h.toJson.nesting ≤ Json.maxDepth) (hother : "emitted" ∉ Keyed.keys h.other) :
    Decode.read decode (h.render .json).toList = .ok [] := by
  have htext : (h.render .json).toList = Json.text .pretty 0 h.toJson := String.toList_ofList
  have hdecode : decode h.toJson.toDraft = .ok [] := by
    have hvalid := hh.toJson
    rw [History.toJson_eq] at hvalid ⊢
    cases hvalid with
    | object _ hvalues =>
      refine decode_toDraft ?_ hvalues
      rw [Keyed.keys_append, List.mem_append, not_or]
      exact ⟨by simp [Keyed.keys, History.own], hother⟩
  unfold Decode.read
  rw [htext, Json.draft_text Json.Layout.blank_pretty hh.toJson hdepth 0]
  simp only [hdecode]
  rfl

theorem load_of_history {h : History} (hh : h.Valid)
    (hdepth : h.toJson.nesting ≤ Json.maxDepth) (hother : "emitted" ∉ Keyed.keys h.other)
    {disk : σ} {path : String} (hread : Storage.read disk path = .text (h.render .json)) :
    load disk path = .ok ⟨some path, []⟩ := by
  unfold load
  simp only [hread, read_render_history hh hdepth hother]

end Ledger

namespace History

/-- What is read of the file of a ledger: no runs. -/
def ofKeys (keys : List String) : History :=
  ⟨0, "", [], [("emitted", .array (keys.map .string))]⟩

theorem decode_ledger (keys : List String) :
    decode (Ledger.toJson keys).toDraft = .ok (ofKeys keys) := by
  have hvalid : (Json.array (keys.map .string)).Valid :=
    .array (List.forall_mem_map.2 fun k _ => .string k)
  have hkeep : keep [] "emitted" (Json.array (keys.map .string)).toDraft =
      .ok [("emitted", .array (keys.map .string))] := by
    unfold keep
    rw [json_toDraft hvalid]
    rfl
  have htake : Slots.take ⟨none, none, none, []⟩
      ("emitted", (Json.array (keys.map .string)).toDraft) =
        .ok ⟨none, none, none, [("emitted", .array (keys.map .string))]⟩ := by
    show (do
      return ⟨none, none, none, ← keep [] "emitted" (Json.array (keys.map .string)).toDraft⟩ :
        Except ReadError Slots) = _
    rw [hkeep]
    rfl
  show (do return (← [("emitted", (Json.array (keys.map .string)).toDraft)].foldlM Slots.take
    ⟨none, none, none, []⟩).finish : Except ReadError History) = _
  rw [List.foldlM_cons, htake]
  rfl

/-- A ledger is read as a history without runs. -/
theorem ofText_render_ledger (keys : List String) :
    ofText (Ledger.render keys) = .ok (ofKeys keys) := by
  have hbody : body (Ledger.render keys).toList = Json.text .pretty 0 (Ledger.toJson keys) := by
    obtain ⟨cs, hcs⟩ := Json.exists_text_object .pretty 0 [("emitted", .array (keys.map .string))]
    unfold Ledger.render Json.pretty Ledger.toJson
    rw [String.toList_ofList, hcs]
    exact body_object cs
  unfold ofText Decode.read
  rw [hbody, Json.draft_text Json.Layout.blank_pretty (Ledger.valid_toJson keys)
    (Ledger.nesting_toJson_le keys) 0]
  simp only [decode_ledger]
  rfl

end History

/-! ## Telling -/

namespace Settings

variable {s : Settings} {data : String} {ev : Detector.Evaluation} {r : Run} {disk : σ}

/--
What telling does to a file that is history and ledger. It stays as it is as long as nothing is
delivered. From the first delivery on it is loaded as a history without runs.
-/
theorem read_tell_shared (hshared : s.alerts.ledgerFor data = data)
    (hkeeps : Storage.Keeps σ data) {sink : ρ} {n : EmitCounts}
    (hcounts : (s.tell (.ok (some sink)) data ev r disk).counts = .ok n) :
    let told := s.tell (.ok (some sink)) data ev r disk
    (n.delivered = 0 → Storage.read told.disk data = Storage.read disk data) ∧
      (0 < n.delivered → ∃ keys, History.load told.disk data = .ok (.ofKeys keys)) := by
  have hload : Storage.Keeps σ (s.alerts.ledgerFor data) := by
    rw [hshared]
    exact hkeeps
  cases hledger : Ledger.load disk (s.alerts.ledgerFor data) with
  | error e =>
    rw [tell_of_not_load sink hledger] at hcounts
    cases hcounts
  | ok l =>
    rw [tell_of_load sink hledger] at hcounts ⊢
    cases hcounts
    have hread := Emitter.read_ledger_tellAll (e := ⟨sink, l, s.detector⟩)
      (Ledger.path_of_load hledger) hload disk (ev.notices r)
    rw [hshared] at hread
    simp only
    rw [Emitter.delivered_foldl_add, Nat.zero_add, List.length_eq_zero_iff, List.length_pos_iff]
    refine ⟨fun hnone => hread.trans (if_pos hnone), fun hsome => ?_⟩
    have htext := hread.trans (if_neg hsome)
    exact ⟨_, (History.load_eq_ok_iff_of_text htext).2 (History.ofText_render_ledger _)⟩

end Settings

end BenchHistory
