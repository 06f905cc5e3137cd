import BenchHistory.Detector.Judge
import BenchHistory.Proofs.Json.Record
import BenchHistory.Proofs.Json.RoundTrip
import BenchHistory.Verdict.Json

/-!
# Verdicts read back

The text of a verdict gives the verdict back unless the ratio or the mean in it is not finite
(`Verdict.read_text`). The detector says so of a mean of zero, and may come to it by overflow
(`Detector.read_judge`).
-/

namespace BenchHistory

open Decode

namespace Json

/-- A float, or `null` in place of one that is not finite. -/
def finiteOrNull (x : Float) : Json :=
  if x.isFinite then .real x else .null

theorem text_finiteOrNull (l : Layout) (depth : ℕ) (x : Float) :
    text l depth (finiteOrNull x) = text l depth (.real x) := by
  unfold finiteOrNull real
  by_cases hfinite : x.isFinite = true
  · rw [if_pos hfinite]
  · rw [if_neg hfinite]
    show "null".toList = realText x
    unfold realText
    rw [if_neg hfinite]

theorem valid_finiteOrNull (x : Float) : (finiteOrNull x).Valid := by
  unfold finiteOrNull
  split
  · next hfinite => exact .number hfinite
  · exact .null

theorem nesting_finiteOrNull (x : Float) : (finiteOrNull x).nesting = 0 := by
  unfold finiteOrNull
  split <;> rfl

end Json

namespace Decode

/-- Members are put by, in order, while the tag is looked for. -/
theorem foldlM_untag {α : Type} {name : String} {decode : Decoder α} {case : Option α}
    {done ms : List (String × Json)} (hnames : ∀ e ∈ ms, e.1 ≠ name)
    (hvalues : ∀ e ∈ ms, e.2.Valid) :
    (Json.membersToDraft ms).foldlM (untag name decode) (case, Json.membersToDraft done) =
      .ok (case, Json.membersToDraft (done ++ ms)) := by
  induction ms generalizing done with
  | nil =>
    rw [List.append_nil]
    rfl
  | cons e ms ih =>
    obtain ⟨hname, hnames⟩ := List.forall_mem_cons.1 hnames
    obtain ⟨hvalue, hvalues⟩ := List.forall_mem_cons.1 hvalues
    have hstep : untag name decode (case, Json.membersToDraft done) (e.1, e.2.toDraft) =
        .ok (case, Json.membersToDraft (done ++ [e])) := by
      unfold untag
      rw [if_neg hname, json_toDraft hvalue, Json.membersToDraft_eq, Json.membersToDraft_eq,
        List.map_append]
      rfl
    show ((e.1, e.2.toDraft) :: Json.membersToDraft ms).foldlM _ _ = _
    rw [List.foldlM_cons, hstep]
    show (Json.membersToDraft ms).foldlM (untag name decode)
      (case, Json.membersToDraft (done ++ [e])) = _
    rw [ih hnames hvalues, List.append_assoc, List.singleton_append]

/-- A tag in front of the other members is found, and the others are left. -/
theorem tagged_object {α : Type} {type name tag : String} {decode : Decoder α} {case : α}
    {ms : List (String × Json)} (hcase : decode (.string tag) = .ok case)
    (hnames : ∀ e ∈ ms, e.1 ≠ name) (hvalues : ∀ e ∈ ms, e.2.Valid) :
    tagged type name decode (Json.object ((name, .string tag) :: ms)).toDraft =
      .ok (case, (Json.object ms).toDraft) := by
  have htag : untag name decode (none, []) (name, .string tag) = .ok (some case, []) := by
    unfold untag fill
    rw [if_pos rfl, hcase]
    rfl
  have hread : ((name, Draft.string tag) :: Json.membersToDraft ms).foldlM (untag name decode)
      (none, []) = .ok (some case, Json.membersToDraft ms) := by
    have hrest : (Json.membersToDraft ms).foldlM (untag name decode)
        (some case, Json.membersToDraft []) = .ok (some case, Json.membersToDraft ms) :=
      foldlM_untag hnames hvalues
    rw [List.foldlM_cons, htag]
    exact hrest
  show tagged type name decode (.object ((name, Draft.string tag) :: Json.membersToDraft ms)) = _
  unfold tagged
  simp only [hread]
  rfl

theorem count_int {n : ℕ} (hn : n < 2 ^ 64) : count (Json.int n).toDraft = .ok n := by
  have hrange : (0 : ℤ) ≤ n ∧ (n : ℤ) ≤ 0xFFFFFFFFFFFFFFFF := by omega
  have hinteger : integer 0 0xFFFFFFFFFFFFFFFF "usize" (Json.int n).toDraft = .ok (n : ℤ) :=
    if_pos hrange
  unfold count
  rw [hinteger]
  rfl

end Decode

namespace Discontinuity

/-- A broken history is read from its members. -/
theorem decodeWith_members {d : Discontinuity} (hd : ∀ n, d = .gap n → n < 2 ^ 64) :
    decodeWith (innerTag cases) (Json.object d.members).toDraft = .ok d := by
  cases d with
  | gap n =>
    have hn := hd n rfl
    have hcount : (Json.int n).Valid := .number ⟨by omega, by omega⟩
    have htagged : tagged "Discontinuity" "cause" (innerTag cases)
        (Json.object (gap n).members).toDraft =
          .ok (.gap, (Json.object [("missing_runs", .int n)]).toDraft) :=
      tagged_object rfl (List.forall_mem_singleton.2 (by simp))
        (List.forall_mem_singleton.2 hcount)
    have htake : takeGap none ("missing_runs", (Json.int n).toDraft) = .ok (some n) := by
      show (count (Json.int n).toDraft).map some = _
      rw [count_int hn]
      rfl
    unfold decodeWith
    rw [htagged]
    show (do
      return gap (← required "missing_runs"
        (← [("missing_runs", (Json.int n).toDraft)].foldlM takeGap none))) = _
    rw [List.foldlM_cons, htake]
    rfl
  | _ => rfl

end Discontinuity

namespace Verdict

/-- Whether all floats of a verdict are finite. -/
def isFinite (v : Verdict) : Bool :=
  v.ratio?.all Float.isFinite && v.baseline?.all Float.isFinite

theorem isFinite_regression (ratio mean : Float) :
    (regression ratio mean).isFinite = (ratio.isFinite && mean.isFinite) := rfl

theorem isFinite_nominal (ratio mean : Float) :
    (nominal ratio mean).isFinite = (ratio.isFinite && mean.isFinite) := rfl

/-- Whether the runs that are missing can be counted in 64 bits. -/
def Countable (v : Verdict) : Prop :=
  ∀ n, v = .discontinuity (.gap n) → n < 2 ^ 64

/-- The members of a verdict behind its tag, with `null` in place of floats that are not finite. -/
def printedMembers : Verdict → List (String × Json)
  | .baseline => []
  | .unitDrift expected found => [("expected", .string expected), ("found", .string found)]
  | .discontinuity cause => cause.members
  | .regression ratio mean =>
    [("ratio", Json.finiteOrNull ratio), ("baseline", Json.finiteOrNull mean)]
  | .nominal ratio mean =>
    [("ratio", Json.finiteOrNull ratio), ("baseline", Json.finiteOrNull mean)]

/-- The value that the text of a verdict writes. -/
def printed (v : Verdict) : Json :=
  .object (("verdict", .string v.kind) :: v.printedMembers)

theorem compact_printed (v : Verdict) : v.printed.compact = v.text := by
  unfold text Json.compact printed toJson
  cases v with
  | regression ratio mean | nominal ratio mean =>
    simp only [printedMembers, Json.text, Json.membersText, Json.text_finiteOrNull]
  | _ => rfl

theorem nodup_keys_printed (v : Verdict) :
    ("verdict" :: Keyed.keys v.printedMembers).Nodup := by
  cases v with
  | discontinuity cause =>
    cases cause <;> simp [printedMembers, Discontinuity.members, Keyed.keys]
  | _ => simp [printedMembers, Keyed.keys]

/-- The members hold plain values that can be read. -/
theorem plain_printedMembers {v : Verdict} (hv : v.Countable) :
    ∀ e ∈ v.printedMembers, e.2.Valid ∧ e.2.nesting = 0 := by
  cases v with
  | baseline => exact fun e he => by cases he
  | unitDrift expected found =>
    exact List.forall_mem_cons.2 ⟨⟨.string expected, rfl⟩,
      List.forall_mem_singleton.2 ⟨.string found, rfl⟩⟩
  | discontinuity cause =>
    cases cause with
    | gap n =>
      have hn := hv n rfl
      have hcount : (Json.int n).Valid := .number ⟨by omega, by omega⟩
      exact List.forall_mem_cons.2 ⟨⟨.string "gap", rfl⟩,
        List.forall_mem_singleton.2 ⟨hcount, rfl⟩⟩
    | _ => exact List.forall_mem_singleton.2 ⟨.string _, rfl⟩
  | _ ratio mean =>
    exact List.forall_mem_cons.2 ⟨⟨Json.valid_finiteOrNull ratio, Json.nesting_finiteOrNull ratio⟩,
      List.forall_mem_singleton.2 ⟨Json.valid_finiteOrNull mean, Json.nesting_finiteOrNull mean⟩⟩

theorem valid_printed {v : Verdict} (hv : v.Countable) : v.printed.Valid :=
  .object (nodup_keys_printed v) <|
    List.forall_mem_cons.2 ⟨.string v.kind, fun e he => (plain_printedMembers hv e he).1⟩

theorem nesting_printed {v : Verdict} (hv : v.Countable) : v.printed.nesting ≤ 1 := by
  unfold printed
  rw [Json.nesting_object_le_iff]
  exact List.forall_mem_cons.2 ⟨le_rfl, fun e he => (plain_printedMembers hv e he).2.le⟩

/-- The case of a verdict. -/
def case : Verdict → Case
  | .baseline => .baseline
  | .unitDrift _ _ => .unitDrift
  | .discontinuity _ => .discontinuity
  | .regression _ _ => .regression
  | .nominal _ _ => .nominal

theorem decode_printed_eq {v : Verdict} (hv : v.Countable) :
    decode v.printed.toDraft = ofCase v.case (Json.object v.printedMembers).toDraft := by
  have htag : tag cases (.string v.kind) = .ok v.case := by
    cases v <;> rfl
  have hnames : ∀ e ∈ v.printedMembers, e.1 ≠ "verdict" := by
    rintro e he hname
    refine (List.nodup_cons.1 (nodup_keys_printed v)).1 ?_
    rw [← hname]
    exact Keyed.mem_keys_of_mem he
  unfold decode printed
  rw [tagged_object htag hnames fun e he => (plain_printedMembers hv e he).1]
  rfl

/-- Two floats are read, unless one of them is not finite. -/
theorem decodePair_finiteOrNull (type : String) (ratio mean : Float) :
    decodePair type "ratio" "baseline" float
        (Json.object [("ratio", Json.finiteOrNull ratio),
          ("baseline", Json.finiteOrNull mean)]).toDraft =
      if ratio.isFinite && mean.isFinite then .ok (ratio, mean)
      else .error (.invalidType .null "f64") := by
  unfold Json.finiteOrNull
  by_cases hratio : ratio.isFinite = true
  · by_cases hmean : mean.isFinite = true
    · simp only [hratio, hmean]
      rfl
    · simp only [hratio, hmean]
      rfl
  · simp only [hratio]
    rfl

/-- What is written of a verdict is read as the verdict, unless it holds a `null`. -/
theorem decode_printed {v : Verdict} (hv : v.Countable) :
    decode v.printed.toDraft =
      if v.isFinite then .ok v else .error (.invalidType .null "f64") := by
  rw [decode_printed_eq hv]
  cases v with
  | baseline => rfl
  | unitDrift expected found => rfl
  | discontinuity cause =>
    have hcause := Discontinuity.decodeWith_members fun n hn => hv n (congrArg discontinuity hn)
    show (do return discontinuity (← Discontinuity.decodeWith (innerTag Discontinuity.cases)
      (Json.object cause.members).toDraft)) = _
    rw [hcause]
    rfl
  | regression ratio mean =>
    show (do
      let p ← decodePair "Regression" "ratio" "baseline" float (Json.object _).toDraft
      return regression p.1 p.2) = _
    rw [printedMembers, decodePair_finiteOrNull, isFinite_regression]
    cases ratio.isFinite && mean.isFinite <;> rfl
  | nominal ratio mean =>
    show (do
      let p ← decodePair "Nominal" "ratio" "baseline" float (Json.object _).toDraft
      return nominal p.1 p.2) = _
    rw [printedMembers, decodePair_finiteOrNull, isFinite_nominal]
    cases ratio.isFinite && mean.isFinite <;> rfl

/-- The text of a verdict gives the verdict back, unless it holds a float that is not finite. -/
theorem read_text {v : Verdict} (hv : v.Countable) :
    Decode.read decode v.text.toList =
      if v.isFinite then .ok v else .error (.invalidType .null "f64") := by
  have hnesting : v.printed.nesting ≤ Json.maxDepth := (nesting_printed hv).trans (by decide)
  unfold Decode.read
  rw [← compact_printed, Json.compact, String.toList_ofList,
    Json.draft_text Json.Layout.blank_compact (valid_printed hv) hnesting 0]
  simp only [decode_printed hv]
  split <;> rfl

end Verdict

namespace Detector

/-- The ratio of a value to a mean. -/
def ratioTo (mean value : Float) : Float :=
  if mean == 0 then if value == 0 then 1 else infinity else value / mean

theorem isFinite_infinity : infinity.isFinite = false := by
  decide

/-- The ratio is not finite if the mean alone is zero, or if the quotient is too great. -/
theorem isFinite_ratioTo_eq_false_iff {mean value : Float} :
    (ratioTo mean value).isFinite = false ↔
      (mean == 0) = true ∧ (value == 0) = false ∨
        (mean == 0) = false ∧ (value / mean).isFinite = false := by
  have hone : (1 : Float).isFinite = true := by decide
  unfold ratioTo
  by_cases hmean : (mean == 0) = true
  · by_cases hvalue : (value == 0) = true
    · simp [hmean, hvalue, hone]
    · simp [hmean, hvalue, isFinite_infinity]
  · simp [hmean]

/-- A verdict that compares a value with a mean. -/
inductive Compared (mean value : Float) : Verdict → Prop
  | regression : Compared mean value (.regression (ratioTo mean value) mean)
  | nominal : Compared mean value (.nominal (ratioTo mean value) mean)

/-- A verdict on an observation that is not compared with a mean. -/
inductive Uncompared (o : Observation) : Verdict → Prop
  | baseline : Uncompared o .baseline
  | unitDrift (expected : String) : Uncompared o (.unitDrift expected o.unit)
  | discontinuity {cause : Discontinuity}
    (hgap : ∀ missing, cause = .gap missing → missing ≤ o.runIndex) :
    Uncompared o (.discontinuity cause)

section

variable {mean value : Float} {v : Verdict} {o : Observation}

theorem Compared.isFinite_eq_false_iff (h : Compared mean value v) :
    v.isFinite = false ↔ mean.isFinite = false ∨ (mean == 0) = true ∧ (value == 0) = false ∨
      (mean == 0) = false ∧ (value / mean).isFinite = false := by
  have hfloats : v.isFinite = ((ratioTo mean value).isFinite && mean.isFinite) := by
    cases h <;> rfl
  rw [hfloats, Bool.and_eq_false_iff, isFinite_ratioTo_eq_false_iff]
  exact or_comm

theorem Compared.countable (h : Compared mean value v) : v.Countable := by
  rintro n rfl
  cases h

theorem Uncompared.isFinite (h : Uncompared o v) : v.isFinite = true := by
  cases h <;> rfl

theorem Uncompared.countable (h : Uncompared o v) (ho : o.runIndex < 2 ^ 64) : v.Countable := by
  rintro n rfl
  cases h with
  | discontinuity hgap => exact (hgap n rfl).trans_lt ho

end

theorem compare_cases (direction : Direction) (threshold value mean : Float) :
    Compared mean value (compare direction threshold value mean) ∨
      compare direction threshold value mean = .discontinuity .collapseToZero := by
  unfold compare
  by_cases hmean : (mean == 0) = true
  · left
    by_cases hvalue : (value == 0) = true
    · have hratio : ratioTo mean value = 1 := by
        unfold ratioTo
        rw [if_pos hmean, if_pos hvalue]
      rw [if_pos hmean, if_pos hvalue, ← hratio]
      exact .nominal
    · have hratio : ratioTo mean value = infinity := by
        unfold ratioTo
        rw [if_pos hmean, if_neg hvalue]
      rw [if_pos hmean, if_neg hvalue, ← hratio]
      cases direction with
      | smallerIsBetter => exact .regression
      | biggerIsBetter => exact .nominal
  · have hratio : ratioTo mean value = value / mean := by
      unfold ratioTo
      rw [if_neg hmean]
    rw [if_neg hmean, ← hratio]
    split
    · exact .inr rfl
    · left
      simp only
      split
      · exact .regression
      · exact .nominal

theorem le_of_gap?_eq_some {c : Config} {previous o : Observation} {missing : ℕ}
    (h : gap? c previous o = some missing) : missing ≤ o.runIndex := by
  unfold gap? missingRuns at h
  simp only at h
  split at h
  · split at h
    · cases h
      omega
    · cases h
  · cases h

theorem judge_cases (c : Config) (tool : String) (o : Observation) (w : List Observation) :
    Uncompared o (judge c tool o w) ∨
      ∃ mean, mean? w = some mean ∧ Compared mean o.value (judge c tool o w) := by
  have hunbroken : ∀ cause : Discontinuity, (∀ missing, cause ≠ .gap missing) →
      Uncompared o (.discontinuity cause) :=
    fun cause hcause => .discontinuity fun missing h => absurd h (hcause missing)
  unfold judge
  split
  · exact .inl (hunbroken .nonFinite nofun)
  split
  · exact .inl (hunbroken .negativeValue nofun)
  split
  · exact .inl .baseline
  split
  · next hgap =>
    refine .inl (.discontinuity ?_)
    rintro _ ⟨⟩
    exact le_of_gap?_eq_some hgap
  split
  · exact .inl (.unitDrift _)
  split
  · exact .inl .baseline
  next mean hmean =>
  obtain hcompared | hcollapse := compare_cases (c.direction tool) c.threshold o.value mean
  · exact .inr ⟨mean, hmean, hcompared⟩
  · rw [hcollapse]
    exact .inl (hunbroken .collapseToZero nofun)

end Detector

end BenchHistory
