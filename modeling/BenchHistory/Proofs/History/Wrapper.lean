import BenchHistory.Proofs.History.Carried
import BenchHistory.Proofs.Json.Extent

/-!
# Documents in wrappers

A document is read alike alone and with blanks around it, and so it is behind the start of a script,
with blanks between them and semicolons at the end (`ofText_wrapped`). What is left of a script
without all that has to be a document.
-/

namespace BenchHistory

namespace Text

/-- What is left of a text without the blanks at its ends. -/
structure Trimmed (cs t : List Char) : Prop where
  exists_blanks : ∃ w w', w.all isBlank = true ∧ w'.all isBlank = true ∧ cs = w ++ (t ++ w')
  start : ∀ c ∈ t.head?, isBlank c = false
  last : ∀ c ∈ t.getLast?, isBlank c = false

theorem trimStart_of_head {t : List Char} (ht : ∀ c ∈ t.head?, isBlank c = false) :
    trimStart t = t := by
  cases t with
  | nil => rfl
  | cons c t => exact List.dropWhile_cons_of_neg (by rw [ht c rfl]; nofun)

theorem trimEnd_of_last {t : List Char} (ht : ∀ c ∈ t.getLast?, isBlank c = false) :
    trimEnd t = t := by
  have hreverse := trimStart_of_head (t := t.reverse) (by rwa [List.head?_reverse])
  unfold trimStart at hreverse
  unfold trimEnd
  rw [hreverse, List.reverse_reverse]

theorem Trimmed.trim_eq {cs t : List Char} (h : Trimmed cs t) : trim cs = t := by
  obtain ⟨w, w', hw, hw', rfl⟩ := h.exists_blanks
  unfold trim
  rw [trimStart_append_of_blank hw]
  cases t with
  | nil =>
    have hnone := trimStart_append_of_blank hw' []
    rw [List.append_nil] at hnone
    rw [List.nil_append, hnone]
    rfl
  | cons c t =>
    rw [trimStart_of_head (t := c :: t ++ w') h.start, trimEnd_append_of_blank hw',
      trimEnd_of_last h.last]

theorem isBlank_of_isSpace {c : Char} (hc : Json.isSpace c = true) : isBlank c = true := by
  unfold Json.isSpace at hc
  simp only [Bool.or_eq_true, decide_eq_true_eq] at hc
  obtain ((rfl | rfl) | rfl) | rfl := hc <;> decide

theorem all_isBlank_of_isSpace {s : List Char} (hs : ∀ c ∈ s, Json.isSpace c = true) :
    s.all isBlank = true :=
  List.all_eq_true.2 fun c hc => isBlank_of_isSpace (hs c hc)

end Text

namespace History

open Decode Text

/-! ## What a file holds -/

theorem dropSemicolons_append {b : List Char} (hb : b.getLast? ≠ some ';') (n : ℕ) :
    dropSemicolons (b ++ List.replicate n ';') = b := by
  have hstart : b.reverse.dropWhile (· = ';') = b.reverse := by
    rw [← List.head?_reverse] at hb
    cases hreverse : b.reverse with
    | nil => rfl
    | cons c cs =>
      rw [hreverse] at hb
      exact List.dropWhile_cons_of_neg (by simpa using hb)
  unfold dropSemicolons
  rw [List.reverse_append, List.reverse_replicate, List.dropWhile_append_of_pos, hstart,
    List.reverse_reverse]
  intro c hc
  simpa using List.eq_of_mem_replicate hc

theorem body_of_script {cs rest b : List Char} {n : ℕ} (hcs : Trimmed cs (scriptStart ++ rest))
    (hrest : Trimmed rest (b ++ List.replicate n ';')) (hb : b.getLast? ≠ some ';') :
    body cs = b := by
  have hstart : afterStart? scriptStart (trim cs) = some rest :=
    afterStart?_eq_some_iff.2 hcs.trim_eq
  unfold body
  rw [hstart]
  simp only [hrest.trim_eq]
  exact dropSemicolons_append hb n

theorem body_of_brace {cs t : List Char} (hcs : Trimmed cs ('{' :: t)) : body cs = '{' :: t := by
  have hstart : afterStart? scriptStart ('{' :: t) = none := by
    rw [scriptStart_eq]
    rfl
  unfold body
  rw [hcs.trim_eq, hstart]

/-! ## Documents -/

/-- A document that is read is an object between blanks. -/
theorem exists_of_read {cs : List Char} {h : History} (hread : read decode cs = .ok h) :
    ∃ s p r, (∀ c ∈ s, Json.isSpace c = true) ∧ (∀ c ∈ r, Json.isSpace c = true) ∧
      cs = s ++ ('{' :: (p ++ '}' :: r)) ∧
        ∀ r', (∀ c ∈ r', Json.isSpace c = true) →
          read decode ('{' :: (p ++ '}' :: r')) = .ok h := by
  obtain ⟨d, r, hdraft, hdecode, hempty⟩ := read_eq_ok.1 hread
  have hfits := Json.fits_draft cs
  rw [hdraft] at hfits
  have hreadable := readable_carry _ _ (carries_decode hfits hdecode)
  cases d with
  | object ms =>
    obtain ⟨s, p, hs, rfl, hp⟩ := Json.exists_of_draft_object hdraft hreadable
    have hspace : ∀ c ∈ r, Json.isSpace c = true := by
      unfold Json.skipSpace at hempty
      exact List.dropWhile_eq_nil_iff.1 hempty
    refine ⟨s, p, r, hs, hspace, rfl, fun r' hr' => ?_⟩
    have hends : Json.Ends r' := by
      simpa using Json.ends_append hr' (show Json.Ends [] from nofun)
    refine read_eq_ok.2 ⟨_, r', hp r' hends, hdecode, ?_⟩
    exact List.dropWhile_eq_nil_iff.2 hr'
  | _ => cases hdecode

/-- Blanks around a document are passed over. -/
theorem read_body_between {j w w' : List Char} {h : History} (hread : read decode j = .ok h)
    (hw : w.all isBlank = true) (hw' : w'.all isBlank = true) :
    read decode (body (w ++ (j ++ w'))) = .ok h := by
  obtain ⟨s, p, r, hs, hr, rfl, hp⟩ := exists_of_read hread
  have htrimmed : Trimmed (w ++ (s ++ ('{' :: (p ++ '}' :: r)) ++ w')) ('{' :: (p ++ ['}'])) := by
    refine ⟨⟨w ++ s, r ++ w', ?_, ?_, by simp⟩, ?_, ?_⟩
    · rw [List.all_append, hw, all_isBlank_of_isSpace hs]
      rfl
    · rw [List.all_append, hw', all_isBlank_of_isSpace hr]
      rfl
    · rintro c hc
      cases hc
      decide
    · intro c hc
      rw [← List.cons_append, List.getLast?_append] at hc
      cases hc
      decide
  rw [body_of_brace htrimmed]
  exact hp [] nofun

theorem getLast?_object_ne (p : List Char) {r : List Char}
    (hr : ∀ c ∈ r, Json.isSpace c = true) : ('{' :: (p ++ '}' :: r)).getLast? ≠ some ';' := by
  intro hlast
  rw [← List.cons_append, List.getLast?_append_of_ne_nil _ (List.cons_ne_nil _ _)] at hlast
  obtain heq | hmem := List.mem_cons.1 (List.mem_of_getLast? hlast)
  · exact absurd heq (by decide)
  · exact absurd (hr _ hmem) (by decide)

/-- The start of a script and its semicolons are passed over. -/
theorem read_body_script {j w₁ w₂ w₃ : List Char} {h : History} (hread : read decode j = .ok h)
    (hw₁ : w₁.all isBlank = true) (hw₂ : w₂.all isBlank = true) (hw₃ : w₃.all isBlank = true)
    (n : ℕ) :
    read decode (body (w₁ ++ (scriptStart ++ (w₂ ++ (j ++ (List.replicate n ';' ++ w₃)))))) =
      .ok h := by
  obtain ⟨s, p, r, hs, hr, rfl, hp⟩ := exists_of_read hread
  -- Blanks behind the object are trimmed only where no semicolon follows them.
  obtain ⟨r₀, r₁, rfl, hend⟩ : ∃ r₀ r₁, r = r₀ ++ r₁ ∧ (n = 0 ∧ r₀ = [] ∨ n ≠ 0 ∧ r₁ = []) := by
    by_cases hn : n = 0
    · exact ⟨[], r, rfl, .inl ⟨hn, rfl⟩⟩
    · exact ⟨r, [], by simp, .inr ⟨hn, rfl⟩⟩
  rw [List.forall_mem_append] at hr
  obtain ⟨hr₀, hr₁⟩ := hr
  have hlast : ∀ a : List Char, ∀ c ∈ (a ++ ('{' :: (p ++ '}' :: r₀) ++
      List.replicate n ';')).getLast?, isBlank c = false := by
    intro a c hc
    rw [List.getLast?_append_of_ne_nil _ (by simp)] at hc
    obtain ⟨rfl, rfl⟩ | ⟨hn, -⟩ := hend
    · rw [List.replicate_zero, List.append_nil, ← List.cons_append, List.getLast?_append] at hc
      cases hc
      decide
    · rw [List.getLast?_append_of_ne_nil _ (by simpa using hn)] at hc
      rw [List.eq_of_mem_replicate (List.mem_of_getLast? hc)]
      decide
  have hswap : r₁ ++ (List.replicate n ';' ++ w₃) = List.replicate n ';' ++ (r₁ ++ w₃) := by
    obtain ⟨rfl, -⟩ | ⟨-, rfl⟩ := hend <;> rfl
  have hrest : Trimmed (w₂ ++ (s ++ ('{' :: (p ++ '}' :: r₀) ++ List.replicate n ';')))
      ('{' :: (p ++ '}' :: r₀) ++ List.replicate n ';') := by
    refine ⟨⟨w₂ ++ s, [], ?_, rfl, by simp⟩, ?_, hlast []⟩
    · rw [List.all_append, hw₂, all_isBlank_of_isSpace hs]
      rfl
    · rintro c hc
      cases hc
      decide
  have hscript : Trimmed (w₁ ++ (scriptStart ++ (w₂ ++ (s ++ ('{' :: (p ++ '}' :: (r₀ ++ r₁))) ++
      (List.replicate n ';' ++ w₃))))) (scriptStart ++
        (w₂ ++ (s ++ ('{' :: (p ++ '}' :: r₀) ++ List.replicate n ';')))) := by
    refine ⟨⟨w₁, r₁ ++ w₃, hw₁, ?_, ?_⟩, ?_, ?_⟩
    · rw [List.all_append, hw₃, all_isBlank_of_isSpace hr₁]
      rfl
    · simp [hswap]
    · rw [scriptStart_eq]
      rintro c hc
      cases hc
      decide
    · rw [← List.append_assoc w₂, ← List.append_assoc scriptStart]
      exact hlast _
  rw [body_of_script hscript hrest (getLast?_object_ne p hr₀)]
  exact hp r₀ hr₀

/--
A document is read alike alone, between blanks, and in a script, which may have blanks in front of
the document and semicolons and blanks behind it. What is left of a script without its start, the
blanks at its ends and the semicolons has to be a document.
-/
theorem ofText_wrapped :
    (∀ (j : String) (h : History), Decode.read decode j.toList = .ok h →
      ∀ w₁ w₂ w₃ : String, allBlank w₁ = true → allBlank w₂ = true → allBlank w₃ = true → ∀ n : ℕ,
        ofText (w₁ ++ j ++ w₃) = .ok h ∧
          ofText (w₁ ++ "window.BENCHMARK_DATA =" ++ w₂ ++ j ++
            String.ofList (List.replicate n ';') ++ w₃) = .ok h) ∧
    ∀ (text rest b : String) (n : ℕ),
      Trimmed text.toList ("window.BENCHMARK_DATA =" ++ rest).toList →
        Trimmed rest.toList (b.toList ++ List.replicate n ';') → b.toList.getLast? ≠ some ';' →
          (∀ h, Decode.read decode b.toList ≠ .ok h) → ∃ e, ofText text = .error e := by
  refine ⟨fun j h hread w₁ w₂ w₃ hw₁ hw₂ hw₃ n => ⟨?_, ?_⟩,
    fun text rest b n htext hrest hb hnone => ?_⟩
  · unfold ofText
    rw [String.toList_append, String.toList_append, List.append_assoc]
    exact read_body_between hread hw₁ hw₃
  · unfold ofText
    simp only [String.toList_append, List.append_assoc, String.toList_ofList]
    exact read_body_script hread hw₁ hw₂ hw₃ n
  · rw [String.toList_append] at htext
    unfold ofText
    rw [body_of_script htext hrest hb]
    match hread : Decode.read decode b.toList with
    | .error e => exact ⟨e, rfl⟩
    | .ok h => exact absurd hread (hnone h)

/--
A document that holds the start of a script, a semicolon and a brace in a name, and a script that
holds a list in place of a document.
-/
theorem ofText_wrapped_names :
    let j := " \x7b\"entries\":\x7b\"window.BENCHMARK_DATA =\x7d;\":[]\x7d\x7d\n"
    let h : History := ⟨0, "", [("window.BENCHMARK_DATA =\x7d;", [])], []⟩
    let text := "\t window.BENCHMARK_DATA = [];;\n"
    Decode.read decode j.toList = .ok h ∧
      allBlank "\u00a0\n" = true ∧ allBlank "" = true ∧ allBlank "\u2003" = true ∧
      ofText ("\u00a0\n" ++ j ++ "\u2003") = .ok h ∧
      ofText ("\u00a0\n" ++ "window.BENCHMARK_DATA =" ++ "" ++ j ++
        String.ofList (List.replicate 2 ';') ++ "\u2003") = .ok h ∧
      Trimmed text.toList ("window.BENCHMARK_DATA =" ++ " [];;").toList ∧
      Trimmed " [];;".toList ("[]".toList ++ List.replicate 2 ';') ∧
      "[]".toList.getLast? ≠ some ';' ∧ (∀ h, Decode.read decode "[]".toList ≠ .ok h) ∧
      ∃ e, ofText text = .error e := by
  intro j h text
  have hread : Decode.read decode j.toList = .ok h := by
    simp only [j, String.reduceToList]
    unfold Decode.read Json.draft
    rfl
  have hblank : allBlank "\u00a0\n" = true := by decide
  have hnone : allBlank "" = true := by decide
  have hblank' : allBlank "\u2003" = true := by decide
  obtain ⟨hplain, hscript⟩ := ofText_wrapped.1 j h hread _ _ _ hblank hnone hblank' 2
  have hends : ∀ {o : Option Char} {b : Char}, o = some b → isBlank b = false →
      ∀ c ∈ o, isBlank c = false := by
    rintro o b rfl hb c hc
    cases hc
    exact hb
  have htext : Trimmed text.toList ("window.BENCHMARK_DATA =" ++ " [];;").toList :=
    ⟨⟨['\t', ' '], ['\n'], by decide, by decide, by decide⟩,
      hends (b := 'w') (by decide) (by decide), hends (b := ';') (by decide) (by decide)⟩
  have hrest : Trimmed " [];;".toList ("[]".toList ++ List.replicate 2 ';') :=
    ⟨⟨[' '], [], by decide, by decide, by decide⟩,
      hends (b := '[') (by decide) (by decide), hends (b := ';') (by decide) (by decide)⟩
  have hend : "[]".toList.getLast? ≠ some ';' := by decide
  have hlist : ∀ h, Decode.read decode "[]".toList ≠ .ok h := by
    have herror : Decode.read decode "[]".toList =
        .error (.invalidType .sequence "struct BenchmarkData") := by
      simp only [String.reduceToList]
      unfold Decode.read Json.draft
      rfl
    rw [herror]
    intro h heq
    cases heq
  exact ⟨hread, hblank, hnone, hblank', hplain, hscript, htext, hrest, hend, hlist,
    ofText_wrapped.2 text " [];;" "[]" 2 htext hrest hend hlist⟩

end History

end BenchHistory
