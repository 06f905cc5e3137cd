import BenchHistory.Proofs.Run.Ingest

/-!
# Reading a list of samples, element by element

What is asked of an element is a short list of rules. An element that keeps them is read as the
sample that it says (`exists_readAs`); of one that breaks some each broken rule is told, with what
is wrong (`mem_sample_iff`). So the samples that are read are the readable elements in their order
(`forall₂_samples`), and the problems are those of the others (`mem_samples_iff`).
-/

namespace BenchHistory.Ingest

/-! ## The rules -/

/-- What is asked of an element of a list of samples. -/
inductive Rule where
  | object
  | name
  | value
  | text (field : String)
deriving DecidableEq

/-- All that is asked of an element. -/
def rules : List Rule :=
  [.object, .name, .value, .text "unit", .text "range", .text "extra"]

/-- The text that an optional member holds. -/
def text? : Option Json → Option String
  | some (.string s) => some s
  | _ => none

theorem text?_eq_some_iff {o : Option Json} {s : String} :
    text? o = some s ↔ o = some (.string s) := by
  unfold text?
  split <;> simp_all

/-- Whether a name is a string that is not blank. -/
def isName : Option Json → Bool
  | some (.string s) => !Text.allBlank s
  | _ => false

def isNumber : Option Json → Bool
  | some (.number _) => true
  | _ => false

/-- Whether an optional text is absent, `null` or a string. -/
def isText : Option Json → Bool
  | none | some .null | some (.string _) => true
  | _ => false

theorem isName_iff {o : Option Json} :
    isName o = true ↔ ∃ s, o = some (.string s) ∧ Text.allBlank s = false := by
  unfold isName
  split <;> simp_all

theorem isNumber_iff {o : Option Json} : isNumber o = true ↔ ∃ n, o = some (.number n) := by
  unfold isNumber
  split <;> simp_all

theorem isText_eq_false_iff {o : Option Json} :
    isText o = false ↔ ∃ j, o = some j ∧ j ≠ .null ∧ ∀ s, j ≠ .string s := by
  unfold isText
  split
  · simp
  · simp
  · simp
  · next hnone hnull hstring =>
    obtain ⟨j, rfl⟩ := Option.ne_none_iff_exists'.1 hnone
    refine iff_of_true rfl ⟨j, rfl, fun hj => hnull (by rw [hj]), fun s hj => hstring s ?_⟩
    rw [hj]

/-- Whether an element keeps a rule. Of an element that is no object nothing more is asked. -/
def Rule.kept : Rule → Json → Bool
  | .object, .object _ => true
  | .name, .object ms => isName (Keyed.get? "name" ms)
  | .value, .object ms => isNumber (Keyed.get? "value" ms)
  | .text field, .object ms => isText (Keyed.get? field ms)
  | rule, _ => rule ≠ .object

/-- Whether an element keeps all rules. -/
def readable (j : Json) : Bool :=
  rules.all fun rule => rule.kept j

/-- What an optional member holds, where `null` counts as absent. -/
def present : Option Json → Option Json
  | some .null => none
  | o => o

theorem present_of_isText {o : Option Json} (h : isText o = true) :
    present o = (text? o).map .string := by
  unfold isText at h
  split at h
  · rfl
  · rfl
  · rfl
  · cases h

/-- What tells an element from the others: its name and its label. -/
def metricOf (j : Json) : Option Json × Option Json :=
  (j.get? "name", present (j.get? "extra"))

/-- An element is read as a sample. -/
structure ReadAs (j : Json) (s : Sample) : Prop where
  name : j.get? "name" = some (.string s.name)
  value : ∃ n, j.get? "value" = some (.number n) ∧ s.value = n.toFloat
  unit : (present (j.get? "unit")).getD (.string "") = .string s.unit
  range : present (j.get? "range") = s.range.map .string
  extra : present (j.get? "extra") = s.extra.map .string
  other : ∃ ms, j = .object ms ∧
    s.other = ms.filter fun e => e.1 ∉ ["name", "value", "unit", "range", "extra"]

theorem ReadAs.metricOf_eq {j : Json} {s : Sample} (h : ReadAs j s) :
    metricOf j = (some (.string s.name), s.extra.map .string) := by
  unfold metricOf
  rw [h.name, h.extra]

theorem ReadAs.named {j : Json} {s : Sample} (h : ReadAs j s) (hj : readable j = true) :
    Text.allBlank s.name = false := by
  have hname : Rule.kept .name j = true := List.all_eq_true.1 hj _ (by decide)
  obtain ⟨ms, rfl, -⟩ := h.other
  obtain ⟨name, hget, hblank⟩ := isName_iff.1 hname
  cases hget.symm.trans h.name
  exact hblank

/-- What is told of an element that breaks a rule. -/
inductive Breach (path : String) (index : ℕ) : Json → Rule → Problem → Prop
  | object {j : Json} (hj : ∀ ms, j ≠ .object ms) :
    Breach path index j .object (.sampleInvalid path index)
  | nameMissing {ms : List (String × Json)} (hname : text? (Keyed.get? "name" ms) = none) :
    Breach path index (.object ms) .name (.nameMissing path index)
  | nameEmpty {ms : List (String × Json)} {s : String}
    (hname : text? (Keyed.get? "name" ms) = some s) (hblank : Text.allBlank s = true) :
    Breach path index (.object ms) .name (.nameEmpty path index)
  | value {ms : List (String × Json)}
    (hvalue : ∀ n, Keyed.get? "value" ms ≠ some (.number n)) :
    Breach path index (.object ms) .value (.valueMissing path index
      (((text? (Keyed.get? "name" ms)).filter fun s => !Text.allBlank s).getD ""))
  | text {ms : List (String × Json)} {field : String} {j : Json}
    (hj : Keyed.get? field ms = some j) (hnull : j ≠ .null) (hstring : ∀ s, j ≠ .string s) :
    Breach path index (.object ms) (.text field) (.textInvalid path index field j.compact)

variable {path : String} {index : ℕ} {ms : List (String × Json)} {j : Json} {p : Problem}

theorem Breach.rule_eq {rule rule' : Rule} {p' : Problem} (h : Breach path index j rule p)
    (h' : Breach path index j rule' p') (hp : p' = p) : rule' = rule := by
  cases h <;> cases h' <;> simp_all

/-! ## One member -/

theorem mem_optionalText_iff {field : String} :
    p ∈ (optionalText ms field path index).2 ↔
      Breach path index (.object ms) (.text field) p := by
  unfold optionalText
  constructor
  · intro hp
    split at hp
    · cases hp
    · cases hp
    · cases hp
    · next j hnull hstring hj =>
      rw [List.mem_singleton.1 hp]
      exact .text hj hnull hstring
  · rintro (⟨⟩ | ⟨⟩ | ⟨⟩ | ⟨⟩ | ⟨hj, hnull, hstring⟩)
    rw [hj]
    split
    · next h => cases h
    · next h => cases h; exact absurd rfl hnull
    · next s h => cases h; exact absurd rfl (hstring s)
    · next h => cases h; exact List.mem_singleton_self _

theorem nameOf_eq (path : String) (index : ℕ) (ms : List (String × Json)) :
    nameOf ms path index = match text? (Keyed.get? "name" ms) with
      | some s => if Text.allBlank s then ("", [.nameEmpty path index]) else (s, [])
      | none => ("", [.nameMissing path index]) := by
  unfold nameOf
  split
  · next s hs => rw [hs]; rfl
  · next hno =>
    have hnone : text? (Keyed.get? "name" ms) = none :=
      Option.eq_none_iff_forall_ne_some.2 fun s hs => hno s (text?_eq_some_iff.1 hs)
    rw [hnone]

theorem fst_nameOf (path : String) (index : ℕ) (ms : List (String × Json)) :
    (nameOf ms path index).1 =
      ((text? (Keyed.get? "name" ms)).filter fun s => !Text.allBlank s).getD "" := by
  rw [nameOf_eq]
  cases text? (Keyed.get? "name" ms) with
  | none => rfl
  | some s => cases hblank : Text.allBlank s <;> simp [Option.filter, hblank]

theorem mem_nameOf_iff :
    p ∈ (nameOf ms path index).2 ↔ Breach path index (.object ms) .name p := by
  rw [nameOf_eq]
  constructor
  · intro hp
    split at hp
    · next s hs =>
      split at hp
      · next hblank => exact List.mem_singleton.1 hp ▸ .nameEmpty hs hblank
      · cases hp
    · next hnone => exact List.mem_singleton.1 hp ▸ .nameMissing hnone
  · rintro (⟨⟩ | ⟨hname⟩ | ⟨hname, hblank⟩)
    · simp [hname]
    · simp [hname, hblank]

theorem mem_valueOf_iff :
    p ∈ (valueOf ms path index (nameOf ms path index).1).2 ↔
      Breach path index (.object ms) .value p := by
  rw [fst_nameOf]
  unfold valueOf
  constructor
  · intro hp
    split at hp
    · cases hp
    · next hno =>
      rw [List.mem_singleton.1 hp]
      exact .value hno
  · rintro (⟨⟩ | ⟨⟩ | ⟨⟩ | ⟨hvalue⟩)
    split
    · next n hn => exact absurd hn (hvalue n)
    · exact List.mem_singleton_self _

theorem fst_optionalText (path : String) (index : ℕ) (ms : List (String × Json))
    (field : String) : (optionalText ms field path index).1 = text? (Keyed.get? field ms) := by
  unfold optionalText text?
  split <;> simp_all

/-! ## One element -/

theorem snd_sample_object (path : String) (index : ℕ) (ms : List (String × Json)) :
    (sample path index (.object ms)).2 = (nameOf ms path index).2 ++
      (valueOf ms path index (nameOf ms path index).1).2 ++
      (optionalText ms "unit" path index).2 ++ (optionalText ms "range" path index).2 ++
      (optionalText ms "extra" path index).2 := by
  unfold sample
  simp only
  split
  · next hnil => exact hnil.symm
  · rfl

theorem breach_iff_of_not_object (hj : ∀ ms, j ≠ .object ms) {rule : Rule} :
    Breach path index j rule p ↔ rule = .object ∧ p = .sampleInvalid path index := by
  constructor
  · intro hp
    cases hp with
    | object => exact ⟨rfl, rfl⟩
    | _ => exact absurd rfl (hj _)
  · rintro ⟨rfl, rfl⟩
    exact .object hj

/-- Each broken rule of an element is told, and nothing else. -/
theorem mem_sample_iff :
    p ∈ (sample path index j).2 ↔ ∃ rule ∈ rules, Breach path index j rule p := by
  cases j with
  | object ms =>
    rw [snd_sample_object]
    simp only [List.mem_append, mem_nameOf_iff, mem_valueOf_iff, mem_optionalText_iff]
    constructor
    · rintro ((((hp | hp) | hp) | hp) | hp) <;> exact ⟨_, by simp [rules], hp⟩
    · rintro ⟨rule, hrule, hp⟩
      simp only [rules, List.mem_cons, List.not_mem_nil, or_false] at hrule
      obtain rfl | rfl | rfl | rfl | rfl | rfl := hrule
      · cases hp with
        | object hj => exact absurd rfl (hj ms)
      · exact .inl (.inl (.inl (.inl hp)))
      · exact .inl (.inl (.inl (.inr hp)))
      · exact .inl (.inl (.inr hp))
      · exact .inl (.inr hp)
      · exact .inr hp
  | _ => simp [sample, breach_iff_of_not_object, rules]

theorem exists_breach_name_iff :
    (∃ p, Breach path index (.object ms) .name p) ↔
      isName (Keyed.get? "name" ms) = false := by
  rw [← Bool.not_eq_true, isName_iff]
  constructor
  · rintro ⟨p, ⟨⟩ | ⟨hname⟩ | ⟨hname, hblank⟩⟩ ⟨s, hs, hs'⟩ <;>
      rw [text?_eq_some_iff.2 hs] at hname <;> cases hname
    rw [hs'] at hblank
    cases hblank
  · intro hno
    cases hname : text? (Keyed.get? "name" ms) with
    | none => exact ⟨_, .nameMissing hname⟩
    | some s =>
      refine ⟨_, .nameEmpty hname ?_⟩
      by_contra hblank
      exact hno ⟨s, text?_eq_some_iff.1 hname, by simpa using hblank⟩

theorem exists_breach_value_iff :
    (∃ p, Breach path index (.object ms) .value p) ↔
      isNumber (Keyed.get? "value" ms) = false := by
  rw [← Bool.not_eq_true, isNumber_iff, not_exists]
  constructor
  · rintro ⟨p, ⟨⟩ | ⟨⟩ | ⟨⟩ | ⟨hvalue⟩⟩
    exact hvalue
  · exact fun hvalue => ⟨_, .value hvalue⟩

theorem exists_breach_text_iff {field : String} :
    (∃ p, Breach path index (.object ms) (.text field) p) ↔
      isText (Keyed.get? field ms) = false := by
  rw [isText_eq_false_iff]
  constructor
  · rintro ⟨p, ⟨⟩ | ⟨⟩ | ⟨⟩ | ⟨⟩ | ⟨hj, hnull, hstring⟩⟩
    exact ⟨_, hj, hnull, hstring⟩
  · rintro ⟨j, hj, hnull, hstring⟩
    exact ⟨_, .text hj hnull hstring⟩

theorem exists_breach_iff {rule : Rule} :
    (∃ p, Breach path index j rule p) ↔ rule.kept j = false := by
  cases j with
  | object ms =>
    cases rule with
    | object =>
      refine ⟨?_, fun h => by cases h⟩
      rintro ⟨p, ⟨hj⟩⟩
      exact absurd rfl (hj ms)
    | name => exact exists_breach_name_iff
    | value => exact exists_breach_value_iff
    | text field => exact exists_breach_text_iff
  | _ => cases rule <;> simp [breach_iff_of_not_object, Rule.kept]

theorem readable_iff : readable j = true ↔ ∀ rule ∈ rules, rule.kept j = true :=
  List.all_eq_true

theorem snd_sample_eq_nil_iff : (sample path index j).2 = [] ↔ readable j = true := by
  rw [readable_iff, List.eq_nil_iff_forall_not_mem]
  constructor
  · intro hnone rule hrule
    by_contra hbroken
    obtain ⟨p, hp⟩ : ∃ p, Breach path index j rule p :=
      exists_breach_iff.2 (by simpa using hbroken)
    exact hnone p (mem_sample_iff.2 ⟨rule, hrule, hp⟩)
  · intro hkept p hp
    obtain ⟨rule, hrule, hbreach⟩ := mem_sample_iff.1 hp
    have hbroken := exists_breach_iff.1 ⟨p, hbreach⟩
    rw [hkept rule hrule] at hbroken
    cases hbroken

/-- An element that keeps the rules is read, wherever it stands. -/
theorem exists_readAs (h : readable j = true) :
    ∃ s, ReadAs j s ∧ ∀ path index, sample path index j = (some s, []) := by
  have hkept := readable_iff.1 h
  simp only [rules, List.forall_mem_cons] at hkept
  obtain ⟨hobject, hname, hvalue, hunit, hrange, hextra, -⟩ := hkept
  obtain ⟨ms, rfl⟩ : ∃ ms, j = .object ms := by
    cases j with
    | object ms => exact ⟨ms, rfl⟩
    | _ => cases hobject
  obtain ⟨s, hs, hblank⟩ := isName_iff.1 hname
  obtain ⟨n, hn⟩ := isNumber_iff.1 hvalue
  refine ⟨⟨s, n.toFloat, text? (Keyed.get? "range" ms), (text? (Keyed.get? "unit" ms)).getD "",
    text? (Keyed.get? "extra" ms), others sampleFields ms⟩,
    ⟨hs, ⟨n, hn, rfl⟩, ?_, present_of_isText hrange, present_of_isText hextra, ms, rfl, rfl⟩,
    fun path index => ?_⟩
  · rw [Json.get?, present_of_isText hunit]
    cases text? (Keyed.get? "unit" ms) <;> rfl
  · have hnone : (sample path index (.object ms)).2 = [] := snd_sample_eq_nil_iff.2 h
    rw [snd_sample_object] at hnone
    unfold sample
    simp only
    rw [if_pos hnone]
    simp only [fst_nameOf, fst_optionalText, valueOf, hn, text?_eq_some_iff.2 hs]
    simp [Option.filter, hblank]

theorem fst_sample_of_not_readable (h : readable j = false) : (sample path index j).1 = none := by
  have hsome : (sample path index j).2 ≠ [] := by
    rw [Ne, snd_sample_eq_nil_iff, h]
    exact Bool.false_ne_true
  unfold sample at hsome ⊢
  split
  · simp only at hsome ⊢
    split
    · next hnil => rw [if_pos hnil] at hsome; exact absurd rfl hsome
    · rfl
  · rfl

/-! ## All elements -/

variable {js : List Json}

theorem forall₂_samplesFrom :
    List.Forall₂ ReadAs (js.filter readable) (samplesFrom path index js).1 := by
  induction js generalizing index with
  | nil => exact .nil
  | cons j js ih =>
    unfold samplesFrom
    cases h : readable j with
    | true =>
      obtain ⟨s, hs, hsample⟩ := exists_readAs h
      rw [List.filter_cons_of_pos h, hsample]
      exact .cons hs ih
    | false =>
      rw [List.filter_cons_of_neg (by simp [h])]
      simp only [fst_sample_of_not_readable h]
      exact ih

/-- The samples are the readable elements in their order. -/
theorem forall₂_samples :
    List.Forall₂ ReadAs (js.filter readable) (samples path (.array js)).1 :=
  forall₂_samplesFrom

theorem mem_samplesFrom_iff : p ∈ (samplesFrom path index js).2 ↔
    ∃ n j, js[n]? = some j ∧ ∃ rule ∈ rules, Breach path (index + n) j rule p := by
  induction js generalizing index with
  | nil => simp [samplesFrom]
  | cons j js ih =>
    unfold samplesFrom
    simp only [List.mem_append, mem_sample_iff, ih]
    constructor
    · rintro (hfirst | ⟨n, j', hj', hmore⟩)
      · exact ⟨0, j, rfl, hfirst⟩
      · exact ⟨n + 1, j', hj', by rwa [Nat.add_comm n, ← Nat.add_assoc]⟩
    · rintro ⟨n, j', hj', hp⟩
      cases n with
      | zero => cases hj'; exact .inl hp
      | succ n => exact .inr ⟨n, j', hj', by rwa [Nat.add_comm n, ← Nat.add_assoc] at hp⟩

/-- The problems of an array are those of its elements, each with the element's place. -/
theorem mem_samples_iff : p ∈ (samples path (.array js)).2 ↔
    ∃ i j, js[i]? = some j ∧ ∃ rule ∈ rules, Breach path i j rule p := by
  have h : p ∈ (samples path (.array js)).2 ↔ _ := mem_samplesFrom_iff
  simpa only [Nat.zero_add] using h

theorem snd_samplesFrom_eq_nil_iff :
    (samplesFrom path index js).2 = [] ↔ ∀ j ∈ js, readable j = true := by
  induction js generalizing index with
  | nil => simp [samplesFrom]
  | cons j js ih =>
    unfold samplesFrom
    simp only [List.append_eq_nil_iff, snd_sample_eq_nil_iff, ih, List.forall_mem_cons]

theorem forall₂_of_samples (h : (samples path j).2 = []) :
    ∃ js, j = .array js ∧ (∀ j ∈ js, readable j = true) ∧
      List.Forall₂ ReadAs js (samples path j).1 := by
  cases j with
  | array js =>
    have hall : ∀ j ∈ js, readable j = true := snd_samplesFrom_eq_nil_iff.1 h
    have hread : List.Forall₂ ReadAs (js.filter readable) (samples path (.array js)).1 :=
      forall₂_samples
    rw [List.filter_eq_self.2 hall] at hread
    exact ⟨js, rfl, hall, hread⟩
  | _ => cases h

/-- The members that tell a metric. -/
def metricMembers (m : String × Option String) : Option Json × Option Json :=
  (some (.string m.1), m.2.map .string)

theorem metricMembers_injective : Function.Injective metricMembers := by
  rintro ⟨name, extra⟩ ⟨name', extra'⟩ h
  cases extra <;> cases extra' <;> simp_all [metricMembers]

theorem map_metricOf {ss : List Sample} (h : List.Forall₂ ReadAs js ss) :
    js.map metricOf = (ss.map Sample.metric).map metricMembers := by
  induction h with
  | nil => rfl
  | cons hread _ ih =>
    rw [List.map_cons, List.map_cons, List.map_cons, ih, hread.metricOf_eq]
    rfl

theorem nodup_metrics_iff {ss : List Sample} (h : List.Forall₂ ReadAs js ss) :
    (ss.map Sample.metric).Nodup ↔ (js.map metricOf).Nodup := by
  rw [map_metricOf h, List.nodup_map_iff metricMembers_injective]

end BenchHistory.Ingest
