import BenchHistory.Disk
import BenchHistory.Proofs.Alert.Emission

/-!
# Keys of alerts

The key of an alert is the hash of one text, in which the commit, the tool, the name and the
label stand behind one another. Where the separators stand in none of the parts before them, the
text tells all parts, but not a missing label from an empty one (`keyBytes_eq_iff`). There are
two series, differing in this only, of which the second is taken to have been told once the first
was (`alreadyEmitted_of_missing_label`). Among notices that are `Plain` it does not happen
(`alreadyEmitted_iff_of_plain`).
-/

namespace BenchHistory

/-- A separator that stands in neither first part tells where both end. -/
theorem append_cons_inj {α : Type} {a : α} {xs xs' ys ys' : List α} (h : a ∉ xs) (h' : a ∉ xs') :
    xs ++ a :: ys = xs' ++ a :: ys' ↔ xs = xs' ∧ ys = ys' := by
  induction xs generalizing xs' with
  | nil =>
    cases xs' with
    | nil => simp
    | cons x' xs' =>
      have hne : a ≠ x' := fun heq => h' (by rw [heq]; exact List.mem_cons_self)
      simp [hne]
  | cons x xs ih =>
    cases xs' with
    | nil =>
      have hne : x ≠ a := fun heq => h (by rw [heq]; exact List.mem_cons_self)
      simp [hne]
    | cons x' xs' =>
      have hrest := ih (fun hmem => h (List.mem_cons_of_mem x hmem))
        (fun hmem => h' (List.mem_cons_of_mem x' hmem))
      simp only [List.cons_append, List.cons.injEq, hrest, and_assoc]

/-- Among labels that are not empty a missing one differs from all others. -/
theorem getD_empty_inj {a b : Option String} (ha : a ≠ some "") (hb : b ≠ some "") :
    a.getD "" = b.getD "" ↔ a = b := by
  cases a <;> cases b <;> grind

namespace Sha256

theorem digitChar_inj : ∀ a < 16, ∀ b < 16, Nat.digitChar a = Nat.digitChar b → a = b := by
  decide

/-- Bytes can be read off their hexadecimal digits. -/
theorem hex_injective : Function.Injective hex := by
  intro xs ys h
  have hdigits := String.ofList_injective h
  clear h
  induction xs generalizing ys with
  | nil =>
    cases ys with
    | nil => rfl
    | cons y ys => cases hdigits
  | cons x xs ih =>
    cases ys with
    | nil => cases hdigits
    | cons y ys =>
      simp only [List.flatMap_cons, List.cons_append, List.nil_append, List.cons.injEq] at hdigits
      obtain ⟨hhigh, hlow, hrest⟩ := hdigits
      have hx := x.toNat_lt
      have hy := y.toNat_lt
      have hdiv := digitChar_inj (x.toNat / 16) (by omega) (y.toNat / 16) (by omega) hhigh
      have hmod := digitChar_inj (x.toNat % 16) (by omega) (y.toNat % 16) (by omega) hlow
      have hxy : x = y := UInt8.toNat_inj.1 (by omega)
      rw [hxy, ih hrest]

end Sha256

namespace Alert

theorem utf8_append (s t : String) : utf8 (s ++ t) = utf8 s ++ utf8 t := by
  unfold utf8 String.toUTF8
  rw [String.toByteArray_append, ByteArray.data_append, Array.toList_append]

theorem utf8_injective : Function.Injective utf8 := by
  intro s t h
  exact String.toByteArray_inj.1 (ByteArray.ext (Array.toList_inj.1 h))

/-- The text that an alert's key is the hash of. -/
def keyText (commitId : String) (series : SeriesKey) : String :=
  commitId ++ "\x1e" ++ series.canonical

theorem keyBytes_eq_utf8 (commitId : String) (series : SeriesKey) :
    keyBytes commitId series = utf8 (keyText commitId series) := by
  unfold keyBytes keyText
  rw [utf8_append, utf8_append, List.append_assoc]
  rfl

theorem toList_keyText (commitId : String) (k : SeriesKey) :
    (keyText commitId k).toList = commitId.toList ++ '\x1e' ::
      (k.tool.toList ++ '\x1f' :: (k.name.toList ++ '\x1f' :: (k.extra.getD "").toList)) := by
  simp [keyText, SeriesKey.canonical, SeriesKey.separator]

/-- The separators stand in none of the parts that they follow. -/
structure Separable (commitId : String) (k : SeriesKey) : Prop where
  commit : '\x1e' ∉ commitId.toList
  tool : '\x1f' ∉ k.tool.toList
  name : '\x1f' ∉ k.name.toList

/-- The hashed bytes tell the commit, the tool, the name, and the label, if a missing one is
taken for an empty one. -/
theorem keyBytes_eq_iff {commitId commitId' : String} {k k' : SeriesKey}
    (h : Separable commitId k) (h' : Separable commitId' k') :
    keyBytes commitId k = keyBytes commitId' k' ↔
      commitId = commitId' ∧ k.tool = k'.tool ∧ k.name = k'.name ∧
        k.extra.getD "" = k'.extra.getD "" := by
  rw [keyBytes_eq_utf8, keyBytes_eq_utf8, utf8_injective.eq_iff, ← String.toList_inj,
    toList_keyText, toList_keyText, append_cons_inj h.commit h'.commit,
    append_cons_inj h.tool h'.tool, append_cons_inj h.name h'.name]
  simp only [String.toList_inj]

end Alert

namespace Notice

/-- The bytes that the key of the notice's alert is the hash of. -/
def keyBytes (n : Notice) : List UInt8 :=
  Alert.keyBytes n.run.commit.id n.series

/-- A notice whose parts hold no separator, and whose label is not empty. -/
structure Plain (n : Notice) : Prop extends Alert.Separable n.run.commit.id n.series where
  label : n.series.extra ≠ some ""

/-- The hashed bytes of plain notices tell the commit and the series. -/
theorem Plain.keyBytes_eq_iff {n m : Notice} (hn : n.Plain) (hm : m.Plain) :
    m.keyBytes = n.keyBytes ↔ m.run.commit.id = n.run.commit.id ∧ m.series = n.series := by
  unfold keyBytes
  rw [Alert.keyBytes_eq_iff hm.toSeparable hn.toSeparable, getD_empty_inj hm.label hn.label]
  cases n.series
  cases m.series
  simp only [SeriesKey.mk.injEq]

/-- Where the hash does not collide, keys are the same only for the same bytes. -/
theorem key_eq_iff {n m : Notice}
    (hhash : Sha256.digest m.keyBytes = Sha256.digest n.keyBytes → m.keyBytes = n.keyBytes) :
    m.key = n.key ↔ m.keyBytes = n.keyBytes := by
  constructor
  · exact fun hkey => hhash (Sha256.hex_injective hkey)
  · exact fun hbytes => congrArg (fun bytes => Sha256.hex (Sha256.digest bytes)) hbytes

end Notice

namespace Emitter

variable {ρ σ : Type} [Sink ρ] [Storage σ]

/--
Two samples of one run, of which one has no label and the other an empty one. The run has no
problems, but the alerts of the two have the same key: once the first is delivered, the second is
taken to have been delivered before.
-/
theorem alreadyEmitted_of_missing_label :
    let r : Run := ⟨.ofId "c1" "", 1, "t",
      [⟨"m", 2, none, "s", none, []⟩, ⟨"m", 2, none, "s", some "", []⟩], []⟩
    let n : Notice := ⟨"t", ⟨"t", "m", none⟩, .regression 2 1, r⟩
    let m : Notice := ⟨"t", ⟨"t", "m", some ""⟩, .regression 2 1, r⟩
    let e : Emitter Rehearsal := ⟨⟨[], []⟩, .inMemory, .default⟩
    r.problems "t" = [] ∧ n.series ≠ m.series ∧ n.keyBytes = m.keyBytes ∧
      (e.tellAll Disk.empty [n, m]).1 =
        [.ok (.delivered n.key), .ok (.alreadyEmitted m.key)] := by
  intro r n m e
  have hbytes : n.keyBytes = m.keyBytes := rfl
  have hkey : n.key = m.key := congrArg (fun bytes => Sha256.hex (Sha256.digest bytes)) hbytes
  obtain ⟨a, ha⟩ : ∃ a, n.alert? e.config = some a := ⟨_, rfl⟩
  let e' : Emitter Rehearsal := { e with sink := ⟨[], [a]⟩, ledger := ⟨none, [n.key]⟩ }
  have hfirst : e.tell Disk.empty n = (.ok (.delivered n.key), e', Disk.empty) := by
    rw [tell_of_regression _ _ rfl, ha]
    simp only [e', ← Notice.key_of_alert? ha]
    rfl
  have hsecond : (e'.tell Disk.empty m).1 = .ok (.alreadyEmitted m.key) :=
    tell_eq_alreadyEmitted_iff.2 ⟨rfl, by rw [← hkey]; exact List.mem_singleton_self n.key⟩
  refine ⟨by decide, by decide, hbytes, ?_⟩
  simp only [tellAll_cons, tellAll_nil, hfirst, hsecond]

/--
An emitter whose ledger is empty at first, and notices that are plain: an alert is said to have
been delivered before exactly if it is of a regression and an alert of the same commit and the
same series was delivered for an earlier notice.
-/
theorem alreadyEmitted_iff_of_plain {e : Emitter ρ} {disk : σ} (hempty : e.ledger.keys = [])
    {ns : List Notice} (hplain : ∀ n ∈ ns, n.Plain)
    (hhash : ∀ n ∈ ns, ∀ m ∈ ns,
      Sha256.digest m.keyBytes = Sha256.digest n.keyBytes → m.keyBytes = n.keyBytes)
    {i : ℕ} {n : Notice} (hn : ns[i]? = some n) :
    (e.tellAll disk ns).1[i]? = some (.ok (.alreadyEmitted n.key)) ↔
      n.verdict.isRegression = true ∧
        ∃ j m, j < i ∧ ns[j]? = some m ∧ m.run.commit.id = n.run.commit.id ∧ m.series = n.series ∧
          (e.tellAll disk ns).1[j]? = some (.ok (.delivered m.key)) := by
  have hmem := List.mem_of_getElem? hn
  have hsame : ∀ m ∈ ns, m.key = n.key ↔
      m.run.commit.id = n.run.commit.id ∧ m.series = n.series := by
    intro m hm
    rw [Notice.key_eq_iff (hhash n hmem m hm), (hplain n hmem).keyBytes_eq_iff (hplain m hm)]
  rw [tellAll_eq_alreadyEmitted_iff hempty hn]
  refine and_congr_right fun _ => exists_congr fun j => exists_congr fun m => ?_
  refine and_congr_right fun _ => ?_
  constructor
  · rintro ⟨hm, hkey, hdelivered⟩
    obtain ⟨hcommit, hseries⟩ := (hsame m (List.mem_of_getElem? hm)).1 hkey
    exact ⟨hm, hcommit, hseries, hdelivered⟩
  · rintro ⟨hm, hcommit, hseries, hdelivered⟩
    exact ⟨hm, (hsame m (List.mem_of_getElem? hm)).2 ⟨hcommit, hseries⟩, hdelivered⟩

/-- Two scenarios of one run, the first of which is told of twice. -/
theorem alreadyEmitted_iff_of_plain_scenarios :
    let r : Run := ⟨.ofId "c1" "", 1, "t",
      [⟨"m", 2, none, "s", none, []⟩, ⟨"m", 2, none, "s", some "x", []⟩], []⟩
    let n : Notice := ⟨"t", ⟨"t", "m", none⟩, .regression 2 1, r⟩
    let m : Notice := ⟨"t", ⟨"t", "m", some "x"⟩, .regression 2 1, r⟩
    let e : Emitter Rehearsal := ⟨⟨[], []⟩, .inMemory, .default⟩
    let ns := [n, m, n]
    e.ledger.keys = [] ∧ (∀ a ∈ ns, a.Plain) ∧
      (∀ a ∈ ns, ∀ b ∈ ns,
        Sha256.digest b.keyBytes = Sha256.digest a.keyBytes → b.keyBytes = a.keyBytes) ∧
      ns[2]? = some n ∧
      ((e.tellAll Disk.empty ns).1[2]? = some (.ok (.alreadyEmitted n.key)) ↔
        n.verdict.isRegression = true ∧
          ∃ j m, j < 2 ∧ ns[j]? = some m ∧ m.run.commit.id = n.run.commit.id ∧
            m.series = n.series ∧
            (e.tellAll Disk.empty ns).1[j]? = some (.ok (.delivered m.key))) := by
  intro r n m e ns
  have hn : n.Plain := ⟨⟨by decide, by decide, by decide⟩, by decide⟩
  have hm : m.Plain := ⟨⟨by decide, by decide, by decide⟩, by decide⟩
  have hplain : ∀ a ∈ ns, a.Plain := by
    simp only [ns, List.forall_mem_cons]
    exact ⟨hn, hm, hn, List.forall_mem_nil _⟩
  have hhash : Sha256.digest n.keyBytes ≠ Sha256.digest m.keyBytes := by decide +kernel
  have hcases : ∀ a ∈ ns, a = n ∨ a = m := by
    simp only [ns, List.forall_mem_cons, true_or, or_true, true_and]
    exact List.forall_mem_nil _
  have hnone : ∀ a ∈ ns, ∀ b ∈ ns,
      Sha256.digest b.keyBytes = Sha256.digest a.keyBytes → b.keyBytes = a.keyBytes := by
    intro a ha b hb hsame
    obtain ha | ha := hcases a ha <;> obtain hb | hb := hcases b hb <;> rw [ha, hb] at hsame ⊢
    · exact absurd hsame.symm hhash
    · exact absurd hsame hhash
  exact ⟨rfl, hplain, hnone, rfl, alreadyEmitted_iff_of_plain rfl hplain hnone rfl⟩

end Emitter

end BenchHistory
