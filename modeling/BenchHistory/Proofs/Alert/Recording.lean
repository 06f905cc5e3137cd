import BenchHistory.Proofs.Alert.Ledger
import BenchHistory.Snapshot
import Mathlib.Data.Finset.Sort

/-!
# Keys recorded one by one

Recording a key keeps a ledger and its file in agreement, whether the file can be written or not
(`load_record`). So they agree after any number of calls, between which writing may become
possible or impossible (`load_calls`), and the text that a call writes is that of the set of keys
(`render_of_ascending`).
-/

namespace BenchHistory.Ledger

variable {σ : Type} [Storage σ] {path : String} {disk : σ} {l : Ledger}

/-! ## The text of a set -/

/-- The text of the file for a set of keys. -/
def textOf (keys : Finset String) : String :=
  render (keys.sort (· ≤ ·))

/-- The text for keys in order is that of the set of them. -/
theorem render_of_ascending {keys : List String} (h : Ascending keys) :
    render keys = textOf keys.toFinset := by
  have hnodup : keys.Nodup := h.imp ne_of_lt
  have hsorted : keys.Pairwise (· ≤ ·) := h.imp le_of_lt
  unfold textOf
  rw [(List.toFinset_sort (· ≤ ·) hnodup).2 hsorted]

theorem toFinset_insert (key : String) (keys : List String) :
    (insert key keys).toFinset = {key} ∪ keys.toFinset := by
  ext k
  rw [List.mem_toFinset, mem_insert, Finset.mem_union, Finset.mem_singleton, List.mem_toFinset]

/-! ## One call -/

theorem load_congr {disk' : σ} (h : Storage.read disk' path = Storage.read disk path) :
    load disk' path = load disk path := by
  unfold load
  rw [h]

theorem record_of_mem {key : String} (h : key ∈ l.keys) (disk : σ) :
    l.record key disk = (.ok false, l, disk) := if_pos h

/-- Recording keeps ledger and file in agreement. -/
theorem load_record (hkeeps : Storage.Keeps σ path) (hload : load disk path = .ok l)
    (key : String) :
    let t := l.record key disk
    load t.2.2 path = .ok t.2.1 := by
  intro t
  by_cases hmem : key ∈ l.keys
  · rw [show t = _ from record_of_mem hmem disk]
    exact hload
  · obtain ⟨disk', hrecord, hwrite⟩ | ⟨path', place, hpath, -, hrecord⟩ := record_cases hmem disk
    · rw [show t = _ from hrecord]
      have hpath := path_of_load hload
      exact ((backed_of_load hload hkeeps).insert hwrite).synced path hpath
    · rw [show t = _ from hrecord]
      exact hload

/-! ## Any number of calls -/

/--
A call to record a key. Before it anything may happen to the files that leaves the ledger's file
as it reads, so that a write that was possible is refused or the other way round.
-/
structure Call (σ : Type) [Storage σ] (path : String) where
  key : String
  meanwhile : σ → σ
  reads_same : ∀ disk, Storage.read (meanwhile disk) path = Storage.read disk path

/-- The ledger and the files after several calls, one after the other. -/
def calls (l : Ledger) (disk : σ) : List (Call σ path) → Ledger × σ
  | [] => (l, disk)
  | c :: cs =>
    let after := (l.record c.key (c.meanwhile disk)).2
    after.1.calls after.2 cs

/-- Ledger and file agree after any number of calls. -/
theorem load_calls (hkeeps : Storage.Keeps σ path) (hload : load disk path = .ok l)
    (cs : List (Call σ path)) : load (l.calls disk cs).2 path = .ok (l.calls disk cs).1 := by
  induction cs generalizing l disk with
  | nil => exact hload
  | cons c cs ih =>
    have hmeanwhile : load (c.meanwhile disk) path = .ok l := by
      rw [load_congr (c.reads_same disk)]
      exact hload
    exact ih (load_record hkeeps hmeanwhile c.key)

/--
A ledger that was loaded from a path, and any number of calls, some of which could write the file
and some not. Loading gives the keys that the ledger holds, before one more call and after it.
That call answers that the key is new exactly if it was not there and the file was written, that
it is old exactly if it was there, and else fails; unless it is new, ledger and files stay as they
are. The text that is written is that of the set of keys, whatever the order in which they came.
-/
theorem record_after_calls (hload : load disk path = .ok l) (hkeeps : Storage.Keeps σ path)
    (cs : List (Call σ path)) (c : Call σ path) :
    let before := l.calls disk cs
    let files := c.meanwhile before.2
    let after := before.1.record c.key files
    let grown := {c.key} ∪ before.1.keys.toFinset
    load before.2 path = .ok before.1 ∧ load after.2.2 path = .ok after.2.1 ∧
      (after.1 = .ok true ↔
        c.key ∉ before.1.keys ∧ ∃ disk', Storage.write files path (textOf grown) = .ok disk') ∧
      (after.1 = .ok false ↔ c.key ∈ before.1.keys) ∧
      ((∃ e, after.1 = .error e) ↔
        c.key ∉ before.1.keys ∧ ∃ place, Storage.write files path (textOf grown) = .error place) ∧
      (after.1 ≠ .ok true → after.2 = (before.1, files)) ∧
      (after.1 = .ok true →
        after.2.1.keys.toFinset = grown ∧ Storage.read after.2.2 path = .text (textOf grown)) := by
  intro before files after grown
  have hbefore : load before.2 path = .ok before.1 := load_calls hkeeps hload cs
  have hfiles : load files path = .ok before.1 := by
    rw [load_congr (c.reads_same before.2)]
    exact hbefore
  have hafter : load after.2.2 path = .ok after.2.1 := load_record hkeeps hfiles c.key
  have hpath := path_of_load hfiles
  have htext : render (insert c.key before.1.keys) = textOf grown := by
    rw [render_of_ascending (ascending_insert (ascending_of_load hfiles) c.key), toFinset_insert]
  refine ⟨hbefore, hafter, ?_⟩
  by_cases hmem : c.key ∈ before.1.keys
  · have hrecord : after = _ := record_of_mem hmem files
    simp [hrecord, hmem]
  · obtain ⟨disk', hrecord, hwrite⟩ | ⟨path', place, hpath', hwrite, hrecord⟩ :=
      record_cases hmem files
    · have hwritten := hwrite path hpath
      have hread := hkeeps files disk' _ hwritten
      rw [htext] at hwritten hread
      have hset : (insert c.key before.1.keys).toFinset = grown := toFinset_insert _ _
      rw [show after = _ from hrecord, hwritten]
      simp [hmem, hread, hset]
    · rw [hpath] at hpath'
      cases hpath'
      rw [htext] at hwrite
      rw [show after = _ from hrecord, hwrite]
      simp [hmem]

/-- A key that could not be written is not there, and it is recorded once it can be. -/
theorem record_after_calls_refused_write :
    let disk := Snapshot.ofFound []
    let refuse (s : Snapshot) : Snapshot :=
      { s with failures := [(⟨"alerts.json", render ["a", "b"]⟩, ".")] }
    let permit (s : Snapshot) : Snapshot := { s with failures := [] }
    let cs : List (Call Snapshot "alerts.json") :=
      [⟨"b", id, fun _ => rfl⟩, ⟨"a", refuse, fun _ => rfl⟩]
    let c : Call Snapshot "alerts.json" := ⟨"a", permit, fun _ => rfl⟩
    let l : Ledger := ⟨some "alerts.json", []⟩
    let before := l.calls disk cs
    let files := c.meanwhile before.2
    let after := before.1.record c.key files
    load disk "alerts.json" = .ok l ∧ Storage.Keeps Snapshot "alerts.json" ∧
      before.1.keys = ["b"] ∧ (before.1.record "a" before.2).1 = .error (.file ".") ∧
      load before.2 "alerts.json" = .ok before.1 ∧ after.1 = .ok true ∧
      load after.2.2 "alerts.json" = .ok after.2.1 ∧ after.2.1.keys.toFinset = {"a", "b"} := by
  intro disk refuse permit cs c l before files after
  have hload : load disk "alerts.json" = .ok l := rfl
  have hkeeps : Storage.Keeps Snapshot "alerts.json" := fun _ _ _ => Snapshot.read_write
  have hkeys : before.1.keys = ["b"] := by decide
  have hrefused : (before.1.record "a" before.2).1 = .error (.file ".") := by decide
  have htrue : after.1 = .ok true := by decide
  have hall := record_after_calls hload hkeeps cs c
  extract_lets grown at hall
  have hgrown : grown = {"a", "b"} := by
    show {c.key} ∪ before.1.keys.toFinset = _
    rw [hkeys]
    rfl
  clear_value grown after files before
  obtain ⟨hbefore, hafter, -, -, -, -, hwritten⟩ := hall
  rw [hgrown] at hwritten
  exact ⟨hload, hkeeps, hkeys, hrefused, hbefore, htrue, hafter, (hwritten htrue).1⟩

end BenchHistory.Ledger
