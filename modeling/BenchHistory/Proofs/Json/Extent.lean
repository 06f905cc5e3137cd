import BenchHistory.Proofs.Json.Depth
import Mathlib.Data.List.TakeWhile

/-!
# How far a text is read

A value that is read without a gap ends somewhere in the text. Where the text up to there stands
in front of something else, the same value is read, as long as no number goes on behind it, and the
fuel that is needed depends on what is read alone (`AllLocal`). So an object is read from the text
between its braces, whatever follows (`exists_of_draft_object`).
-/

namespace BenchHistory.Json

/-! ## Tokens -/

theorem eq_append_of_afterWord {w cs r : List Char} (h : afterWord w cs = .ok r) :
    cs = w ++ r := by
  induction w generalizing cs with
  | nil =>
    cases h
    rfl
  | cons c w ih =>
    cases cs with
    | nil => cases h
    | cons b cs =>
      rw [afterWord] at h
      split at h
      · next hc => rw [hc, ih h, List.cons_append]
      · cases h

theorem afterWord_append (w r : List Char) : afterWord w (w ++ r) = .ok r := by
  induction w with
  | nil => rfl
  | cons c w ih => rw [List.cons_append, afterWord, if_pos rfl, ih]

theorem someDigits_eq_ok {cs ds r : List Char} (h : someDigits cs = .ok (ds, r)) :
    cs = ds ++ r ∧ (∀ c ∈ ds, c.isDigit = true) ∧ ds ≠ [] := by
  unfold someDigits at h
  rw [List.span_eq_takeWhile_dropWhile] at h
  simp only at h
  split at h
  · cases h
  · next hne =>
    cases h
    refine ⟨List.takeWhile_append_dropWhile.symm, fun c hc => ?_, by simpa using hne⟩
    exact List.mem_takeWhile_imp hc

/-- A fraction is read alike wherever neither digits nor a point follow. -/
theorem exists_of_fractionPart {cs ds r : List Char} (h : fractionPart cs = .ok (ds, r)) :
    ∃ p, cs = p ++ r ∧ (∀ c ∈ p.head?, c.isDigit = false) ∧
      ∀ r' : List Char, (∀ c ∈ r'.head?, c.isDigit = false ∧ c ≠ '.') →
        fractionPart (p ++ r') = .ok (ds, r') := by
  unfold fractionPart at h
  split at h
  · next cs =>
    obtain ⟨rfl, hdigits, hne⟩ := someDigits_eq_ok h
    refine ⟨'.' :: ds, rfl, ?_, fun r' hr' => ?_⟩
    · rintro c hc
      cases hc
      rfl
    · exact fractionPart_append hdigits hne fun c hc => (hr' c hc).1
  · cases h
    exact ⟨[], rfl, nofun, fun r' hr' => fractionPart_none fun c hc => (hr' c hc).2⟩

/-- The sign of an exponent is read in front of any digits. -/
theorem exists_of_powerSign {cs ds r : List Char} (hds : ∀ c ∈ ds, c.isDigit = true) (hne : ds ≠ [])
    (h : (powerSign cs).2 = ds ++ r) :
    ∃ s, cs = s ++ (ds ++ r) ∧
      ∀ r', powerSign (s ++ (ds ++ r')) = ((powerSign cs).1, ds ++ r') := by
  unfold powerSign at h
  split at h
  · next cs => exact ⟨['-'], by rw [← h]; rfl, fun r' => rfl⟩
  · next cs => exact ⟨['+'], by rw [← h]; rfl, fun r' => rfl⟩
  · next hminus hplus =>
    obtain ⟨c, ds, rfl⟩ := List.exists_cons_of_ne_nil hne
    have hplain : ∀ r', powerSign (c :: ds ++ r') = (false, c :: ds ++ r') := by
      intro r'
      have hc := hds c List.mem_cons_self
      unfold powerSign
      split
      · next heq =>
        cases heq
        cases hc
      · next heq =>
        cases heq
        cases hc
      · rfl
    rw [show cs = c :: ds ++ r from h, hplain]
    exact ⟨[], rfl, hplain⟩

/-- An exponent is read alike wherever no number goes on. -/
theorem exists_of_powerPart {cs r : List Char} {power : Option ℤ}
    (h : powerPart cs = .ok (power, r)) :
    ∃ p, cs = p ++ r ∧ (∀ c ∈ p.head?, c.isDigit = false ∧ c ≠ '.') ∧
      ∀ r', Ends r' → powerPart (p ++ r') = .ok (power, r') := by
  unfold powerPart at h
  split at h
  · next c cs =>
    split at h
    · next hc =>
      simp only at h
      obtain ⟨⟨ds, rest⟩, hdigits, h⟩ := bind_eq_ok.1 h
      obtain ⟨hcs, hds, hne⟩ := someDigits_eq_ok hdigits
      obtain ⟨s, rfl, hsign⟩ := exists_of_powerSign hds hne hcs
      cases h
      refine ⟨c :: (s ++ ds), by simp, ?_, fun r' hr' => ?_⟩
      · rintro b hb
        cases hb
        simp only [Bool.or_eq_true, decide_eq_true_eq] at hc
        obtain rfl | rfl := hc <;> decide
      · have hread := someDigits_append hds hne fun b hb => (hr' b hb).1
        rw [List.cons_append, List.append_assoc, powerPart, if_pos hc, hsign]
        simp only [hread]
        rfl
    · cases h
      exact ⟨[], rfl, by simp, fun r' hr' => powerPart_none fun b hb => (hr' b hb).2.2⟩
  · cases h
    exact ⟨[], rfl, by simp, fun r' hr' => powerPart_none fun b hb => (hr' b hb).2.2⟩

/-- A number without its sign is read alike wherever no number goes on. -/
theorem exists_of_unsigned {negative : Bool} {cs r : List Char} {n : Numeral}
    (h : unsigned negative cs = .ok (n, r)) :
    ∃ p, cs = p ++ r ∧ p ≠ [] ∧ ∀ r', Ends r' → unsigned negative (p ++ r') = .ok (n, r') := by
  unfold unsigned at h
  obtain ⟨⟨whole, r₁⟩, hwhole, hrest⟩ := bind_eq_ok.1 h
  obtain ⟨rfl, hdigits, hne⟩ := someDigits_eq_ok hwhole
  dsimp only at hrest
  split at hrest
  · obtain ⟨u, hu, -⟩ := bind_eq_ok.1 hrest
    cases hu
  next hshort =>
  simp only [Bool.and_eq_true, decide_eq_true_eq] at hshort
  have hlead : whole.head? = some '0' → whole.length = 1 := by
    intro hzero
    have hpos := List.length_pos_iff.2 hne
    by_contra hlong
    exact hshort ⟨hzero, by omega⟩
  obtain ⟨⟨fraction, r₂⟩, hfraction, htail⟩ := bind_eq_ok.1 hrest
  obtain ⟨⟨power, r₃⟩, hpower, hend⟩ := bind_eq_ok.1 htail
  obtain ⟨p₁, rfl, hp₁, hfraction'⟩ := exists_of_fractionPart hfraction
  obtain ⟨p₂, rfl, hp₂, hpower'⟩ := exists_of_powerPart hpower
  cases hend
  refine ⟨whole ++ (p₁ ++ p₂), by simp, by simp [hne], fun r' hr' => ?_⟩
  have hmiddle : ∀ c ∈ (p₂ ++ r').head?, c.isDigit = false ∧ c ≠ '.' := by
    cases p₂ with
    | nil => exact fun c hc => ⟨(hr' c hc).1, (hr' c hc).2.1⟩
    | cons b p₂ => exact hp₂
  have htail : ∀ c ∈ (p₁ ++ (p₂ ++ r')).head?, c.isDigit = false := by
    cases p₁ with
    | nil => exact fun c hc => (hmiddle c hc).1
    | cons b p₁ => exact hp₁
  rw [List.append_assoc, List.append_assoc]
  exact unsigned_append negative hdigits hne hlead htail (hfraction' _ hmiddle) (hpower' r' hr')

theorem exists_of_numeral {cs r : List Char} {n : Numeral} (h : numeral cs = .ok (n, r)) :
    ∃ p, cs = p ++ r ∧ p ≠ [] ∧ ∀ r', Ends r' → numeral (p ++ r') = .ok (n, r') := by
  unfold numeral at h
  split at h
  · next cs =>
    obtain ⟨p, rfl, -, hp⟩ := exists_of_unsigned h
    refine ⟨'-' :: p, rfl, by simp, fun r' hr' => ?_⟩
    have hsigned := numeral_eq_ok (hp r' hr')
    exact hsigned
  · obtain ⟨p, rfl, hne, hp⟩ := exists_of_unsigned h
    refine ⟨p, rfl, hne, fun r' hr' => ?_⟩
    have hunsigned := numeral_eq_ok (hp r' hr')
    exact hunsigned

theorem consChar_eq_ok {c : Char} {x : Except Fault (List Char × List Char)} {s r : List Char}
    (h : consChar c x = .ok (s, r)) : ∃ s', s = c :: s' ∧ x = .ok (s', r) := by
  obtain ⟨⟨s', r'⟩, rfl, heq⟩ := map_eq_ok.1 h
  cases heq
  exact ⟨s', rfl, rfl⟩

theorem readString_cons {c : Char} (hquote : c ≠ '"') (hback : c ≠ '\\') (hlow : ¬ c.toNat < 0x20)
    (cs : List Char) : readString (c :: cs) = consChar c (readString cs) := by
  rw [readString.eq_def]
  split <;> simp_all

theorem readString_escape {c e : Char} (hu : c ≠ 'u') (he : escaped? c = some e)
    (cs : List Char) : readString ('\\' :: c :: cs) = consChar e (readString cs) := by
  rw [readString, he]
  · exact fun _ _ _ _ _ h => absurd h hu
  · exact fun h => absurd h hu

/-- A string is read up to its closing quote, whatever follows. -/
theorem exists_of_readString {cs s r : List Char} (h : readString cs = .ok (s, r)) :
    ∃ p, cs = p ++ '"' :: r ∧ ∀ r', readString (p ++ '"' :: r') = .ok (s, r') := by
  fun_induction readString cs generalizing s with
  | case2 =>
    cases h
    exact ⟨[], rfl, fun r' => rfl⟩
  | case6 a b c d n hn hlow hhigh e f g i rest m hm hpair ih =>
    obtain ⟨s, rfl, hs⟩ := consChar_eq_ok h
    obtain ⟨p, rfl, hp⟩ := ih hs
    refine ⟨'\\' :: 'u' :: a :: b :: c :: d :: '\\' :: 'u' :: e :: f :: g :: i :: p, rfl,
      fun r' => ?_⟩
    simp only [List.cons_append, readString, hn, hm, if_neg hlow, if_pos hhigh, if_pos hpair, hp]
    rfl
  | case9 a b c d rest n hn hlow hhigh ih =>
    obtain ⟨s, rfl, hs⟩ := consChar_eq_ok h
    obtain ⟨p, rfl, hp⟩ := ih hs
    refine ⟨'\\' :: 'u' :: a :: b :: c :: d :: p, rfl, fun r' => ?_⟩
    simp only [List.cons_append, readString, hn, if_neg hlow, if_neg hhigh, hp]
    rfl
  | case11 c rest _ hu e he ih =>
    obtain ⟨s, rfl, hs⟩ := consChar_eq_ok h
    obtain ⟨p, rfl, hp⟩ := ih hs
    refine ⟨'\\' :: c :: p, rfl, fun r' => ?_⟩
    rw [List.cons_append, List.cons_append, readString_escape hu he, hp]
    rfl
  | case15 c rest hquote _ _ hmore hend hlow ih =>
    obtain ⟨s, rfl, hs⟩ := consChar_eq_ok h
    obtain ⟨p, rfl, hp⟩ := ih hs
    have hback : c ≠ '\\' := by
      rintro rfl
      cases p with
      | nil => exact hmore _ _ rfl rfl
      | cons b p => exact hmore b _ rfl rfl
    refine ⟨c :: p, rfl, fun r' => ?_⟩
    rw [List.cons_append, readString_cons hquote hback hlow, hp]
    rfl
  | _ => cases h

/-! ## Values -/

/-- The text is read as this wherever there is fuel for it and no number goes on behind it. -/
def ReadOff {α : Type} (read : ℕ → List Char → Step α) (p : List Char) (x : α) : Prop :=
  ∀ fuel r, 2 * p.length ≤ fuel → Ends r → read fuel (p ++ r) = (x, some r)

/-- What stands behind the blanks is read with them in front, too. -/
theorem ReadOff.append {depth : ℕ} {s p : List Char} {x : Draft}
    (h : ReadOff (fun fuel => value fuel depth) p x) (hs : ∀ c ∈ s, isSpace c = true) :
    ReadOff (fun fuel => value fuel depth) (s ++ p) x := by
  intro fuel r hfuel hr
  rw [List.length_append] at hfuel
  show value fuel depth (s ++ p ++ r) = _
  rw [List.append_assoc, value_append hs]
  exact h fuel r (by omega) hr

theorem readOff_of {α : Type} {read : ℕ → List Char → Step α} {p : List Char} {x : α}
    (hne : p ≠ []) (h : ∀ fuel r, 2 * p.length ≤ fuel + 1 → Ends r →
      read (fuel + 1) (p ++ r) = (x, some r)) : ReadOff read p x := by
  intro fuel r hfuel hr
  have hpos := List.length_pos_iff.2 hne
  obtain ⟨fuel, rfl⟩ : ∃ f, fuel = f + 1 := Nat.exists_eq_succ_of_ne_zero (by omega)
  exact h fuel r hfuel hr

theorem readOff_cons {depth : ℕ} {c : Char} {p : List Char} {x : Draft}
    (h : ∀ fuel r, 2 * p.length ≤ fuel → Ends r →
      value (fuel + 1) depth (c :: (p ++ r)) = (x, some r)) :
    ReadOff (fun fuel => value fuel depth) (c :: p) x := by
  refine readOff_of (by simp) fun fuel r hfuel hr => ?_
  rw [List.length_cons] at hfuel
  exact h fuel r (by omega) hr

theorem skipSpace_eq_cons {cs t : List Char} {c : Char} (h : skipSpace cs = c :: t) :
    isSpace c = false ∧ ∃ s, (∀ b ∈ s, isSpace b = true) ∧ cs = s ++ c :: t := by
  refine ⟨?_, cs.takeWhile isSpace, fun b hb => List.mem_takeWhile_imp hb, ?_⟩
  · have hhead := List.head?_dropWhile_not isSpace cs
    unfold skipSpace at h
    rw [h] at hhead
    simpa using hhead
  · rw [← h]
    exact List.takeWhile_append_dropWhile.symm

theorem skipSpace_append_cons {s : List Char} {c : Char} (hs : ∀ b ∈ s, isSpace b = true)
    (hc : isSpace c = false) (t : List Char) : skipSpace (s ++ c :: t) = c :: t := by
  rw [skipSpace_append hs, skipSpace_cons hc]

theorem nested_eq_ok {depth : ℕ} {v x : Draft} {rest : Option (List Char)} {r : List Char}
    (h : nested depth v rest = (x, some r)) (hx : x.Readable) :
    depth ≠ 0 ∧ v = x ∧ rest = some r := by
  unfold nested at h
  split at h
  · cases h
    exact absurd hx (Draft.not_readable_gap _)
  · next hpos =>
    cases h
    exact ⟨hpos, rfl, rfl⟩

theorem nested_of_ne_zero {depth : ℕ} (h : depth ≠ 0) (v : Draft) (rest : Option (List Char)) :
    nested depth v rest = (v, rest) :=
  if_neg h

theorem items_ne_bracket {fuel depth : ℕ} {cs r : List Char} {xs : List Draft}
    (h : items fuel depth cs = (xs, some r)) (t : List Char) : skipSpace cs ≠ ']' :: t := by
  cases fuel with
  | zero =>
    rw [items] at h
    cases h
  | succ fuel =>
    rw [items] at h
    match hvalue : value fuel depth cs with
    | (x, some r) => exact skipSpace_ne_bracket hvalue t
    | (x, none) =>
      simp only [hvalue] at h
      cases h

theorem members_ne_brace {fuel depth : ℕ} {cs r : List Char} {ms : List (String × Draft)}
    (h : members fuel depth cs = (ms, some r)) (t : List Char) : skipSpace cs ≠ '}' :: t := by
  intro hbrace
  cases fuel with
  | zero =>
    rw [members] at h
    cases h
  | succ fuel =>
    rw [members, hbrace] at h
    cases h

theorem exists_of_wordValue {v x : Draft} {word cs r : List Char}
    (h : wordValue v word cs = (x, some r)) :
    x = v ∧ cs = word ++ r ∧ ∀ r', wordValue v word (word ++ r') = (v, some r') := by
  unfold wordValue at h
  split at h
  · next r hword =>
    cases h
    refine ⟨rfl, eq_append_of_afterWord hword, fun r' => ?_⟩
    unfold wordValue
    rw [afterWord_append]
  · cases h

theorem exists_of_stringValue {cs r : List Char} {x : Draft}
    (h : stringValue cs = (x, some r)) (hx : x.Readable) :
    ∃ p, cs = p ++ '"' :: r ∧ ∀ r', stringValue (p ++ '"' :: r') = (x, some r') := by
  unfold stringValue at h
  split at h
  · next s rest hread =>
    cases h
    obtain ⟨p, hp, hread⟩ := exists_of_readString hread
    refine ⟨p, hp, fun r' => ?_⟩
    unfold stringValue
    rw [hread]
  · split at h
    · cases h
      exact absurd hx (Draft.not_readable_gap _)
    · cases h

theorem exists_of_numberValue {cs r : List Char} {x : Draft}
    (h : numberValue cs = (x, some r)) (hx : x.Readable) :
    ∃ p, cs = p ++ r ∧ p ≠ [] ∧ ∀ fuel depth r', Ends r' →
      value (fuel + 1) depth (p ++ r') = (x, some r') := by
  unfold numberValue at h
  split at h
  · cases h
  · next n rest hnumeral =>
    obtain ⟨p, rfl, hne, hp⟩ := exists_of_numeral hnumeral
    split at h
    · next a ha =>
      cases h
      refine ⟨p, rfl, hne, fun fuel depth r' hr' => ?_⟩
      rw [value_of_numeral (hp r' hr')]
      unfold numberValue
      simp only [hp r' hr', ha]
    · cases h
      exact absurd hx (Draft.not_readable_gap _)

/--
What one reader after the other does, with the same fuel: what is read without a gap is read
wherever it stands. A container ends with its bracket or brace.
-/
structure AllLocal (fuel : ℕ) : Prop where
  value {depth : ℕ} {cs r : List Char} {x : Draft} : value fuel depth cs = (x, some r) →
    x.Readable → ∃ p, cs = p ++ r ∧ ReadOff (fun fuel => value fuel depth) p x
  items {depth : ℕ} {cs r : List Char} {xs : List Draft} : items fuel depth cs = (xs, some r) →
    (∀ x ∈ xs, x.Readable) →
      ∃ p, cs = p ++ ']' :: r ∧ ReadOff (fun fuel => items fuel depth) (p ++ [']']) xs
  members {depth : ℕ} {cs r : List Char} {ms : List (String × Draft)} :
    members fuel depth cs = (ms, some r) → (∀ e ∈ ms, e.2.Readable) →
      ∃ p, cs = p ++ '}' :: r ∧ ReadOff (fun fuel => members fuel depth) (p ++ ['}']) ms
  member {depth : ℕ} {k : String} {cs r : List Char} {ms : List (String × Draft)} :
    member fuel depth k cs = (ms, some r) → (∀ e ∈ ms, e.2.Readable) →
      ∃ p, cs = p ++ '}' :: r ∧ ReadOff (fun fuel => member fuel depth k) (p ++ ['}']) ms

theorem allLocal_zero : AllLocal 0 where
  value := by
    intro depth cs r x h _
    rw [Json.value] at h
    cases h
  items := by
    intro depth cs r xs h _
    rw [Json.items] at h
    cases h
  members := by
    intro depth cs r ms h _
    rw [Json.members] at h
    cases h
  member := by
    intro depth k cs r ms h _
    rw [Json.member] at h
    cases h

section

variable {fuel depth : ℕ} {cs r : List Char}

theorem AllLocal.array (h : AllLocal fuel) {t : List Char} {x : Draft}
    (hread : Json.value (fuel + 1) depth ('[' :: t) = (x, some r)) (hx : x.Readable) :
    ∃ p, t = p ++ ']' :: r ∧
      ReadOff (fun fuel => Json.value fuel depth) ('[' :: (p ++ [']'])) x := by
  rw [Json.value, skipSpace_cons (by decide)] at hread
  simp only at hread
  split at hread
  · next rest hempty =>
    obtain ⟨hpos, rfl, hrest⟩ := nested_eq_ok hread hx
    cases hrest
    obtain ⟨hbracket, s, hs, rfl⟩ := skipSpace_eq_cons hempty
    refine ⟨s, rfl, readOff_cons fun fuel r' _ _ => ?_⟩
    rw [Json.value, skipSpace_cons (by decide), List.append_assoc]
    simp only [List.singleton_append, skipSpace_append_cons hs hbracket]
    exact nested_of_ne_zero hpos _ _
  · next hitems =>
    obtain ⟨hpos, rfl, hrest⟩ := nested_eq_ok hread hx
    obtain ⟨p, rfl, hp⟩ := h.items (Prod.ext rfl hrest) (Draft.readable_array_iff.1 hx)
    refine ⟨p, rfl, readOff_cons fun fuel' r' hfuel hr' => ?_⟩
    have hagain : Json.items fuel' (depth - 1) (p ++ [']'] ++ r') = (_, some r') :=
      hp fuel' r' hfuel hr'
    rw [Json.value, skipSpace_cons (by decide)]
    simp only
    split
    · next hbracket => exact absurd hbracket (items_ne_bracket hagain _)
    · rw [hagain]
      exact nested_of_ne_zero hpos _ _

theorem AllLocal.object (h : AllLocal fuel) {t : List Char} {x : Draft}
    (hread : Json.value (fuel + 1) depth ('{' :: t) = (x, some r)) (hx : x.Readable) :
    ∃ p, t = p ++ '}' :: r ∧
      ReadOff (fun fuel => Json.value fuel depth) ('{' :: (p ++ ['}'])) x := by
  rw [Json.value, skipSpace_cons (by decide)] at hread
  simp only at hread
  split at hread
  · next rest hempty =>
    obtain ⟨hpos, rfl, hrest⟩ := nested_eq_ok hread hx
    cases hrest
    obtain ⟨hbrace, s, hs, rfl⟩ := skipSpace_eq_cons hempty
    refine ⟨s, rfl, readOff_cons fun fuel r' _ _ => ?_⟩
    rw [Json.value, skipSpace_cons (by decide), List.append_assoc]
    simp only [List.singleton_append, skipSpace_append_cons hs hbrace]
    exact nested_of_ne_zero hpos _ _
  · next hmembers =>
    obtain ⟨hpos, rfl, hrest⟩ := nested_eq_ok hread hx
    obtain ⟨p, rfl, hp⟩ := h.members (Prod.ext rfl hrest) (Draft.readable_object_iff.1 hx)
    refine ⟨p, rfl, readOff_cons fun fuel' r' hfuel hr' => ?_⟩
    have hagain : Json.members fuel' (depth - 1) (p ++ ['}'] ++ r') = (_, some r') :=
      hp fuel' r' hfuel hr'
    rw [Json.value, skipSpace_cons (by decide)]
    simp only
    split
    · next hbrace => exact absurd hbrace (members_ne_brace hagain _)
    · rw [hagain]
      exact nested_of_ne_zero hpos _ _

theorem exists_of_word {v x : Draft} {c : Char} {word t : List Char}
    (hword : ∀ fuel depth cs, Json.value (fuel + 1) depth (c :: cs) = wordValue v word cs)
    (hread : Json.value (fuel + 1) depth (c :: t) = (x, some r)) :
    ∃ p, c :: t = p ++ r ∧ ReadOff (fun fuel => Json.value fuel depth) p x := by
  rw [hword] at hread
  obtain ⟨rfl, rfl, hp⟩ := exists_of_wordValue hread
  refine ⟨c :: word, rfl, readOff_cons fun fuel r' _ _ => ?_⟩
  rw [hword, hp]

/-- A value is read behind its first character. -/
theorem AllLocal.value_cons (h : AllLocal fuel) {c : Char} {t : List Char} (hc : isSpace c = false)
    {x : Draft} (hread : Json.value (fuel + 1) depth (c :: t) = (x, some r)) (hx : x.Readable) :
    ∃ p, c :: t = p ++ r ∧ ReadOff (fun fuel => Json.value fuel depth) p x := by
  have hsame := hread
  unfold Json.value at hread
  rw [skipSpace_cons hc] at hread
  split at hread
  case h_1 heq => cases heq
  case h_2 t heq =>
    cases heq
    obtain ⟨p, rfl, hp⟩ := exists_of_stringValue hread hx
    refine ⟨'"' :: (p ++ ['"']), by simp, readOff_cons fun fuel r' _ _ => ?_⟩
    rw [Json.value, skipSpace_cons hc, List.append_assoc]
    exact hp r'
  case h_3 t heq =>
    cases heq
    obtain ⟨p, rfl, hp⟩ := h.array hsame hx
    exact ⟨'[' :: (p ++ [']']), by simp, hp⟩
  case h_4 t heq =>
    cases heq
    obtain ⟨p, rfl, hp⟩ := h.object hsame hx
    exact ⟨'{' :: (p ++ ['}']), by simp, hp⟩
  case h_5 t heq =>
    cases heq
    exact exists_of_word (fun fuel depth cs => by rw [Json.value, skipSpace_cons hc]; rfl) hsame
  case h_6 t heq =>
    cases heq
    exact exists_of_word (fun fuel depth cs => by rw [Json.value, skipSpace_cons hc]; rfl) hsame
  case h_7 t heq =>
    cases heq
    exact exists_of_word (fun fuel depth cs => by rw [Json.value, skipSpace_cons hc]; rfl) hsame
  case h_8 b t _ _ _ _ _ _ heq =>
    cases heq
    split at hread
    · obtain ⟨p, heq, hne, hp⟩ := exists_of_numberValue hread hx
      exact ⟨p, heq, readOff_of hne fun fuel' r' _ hr' => hp fuel' depth r' hr'⟩
    · cases hread

theorem AllLocal.value_succ (h : AllLocal fuel) {x : Draft}
    (hread : Json.value (fuel + 1) depth cs = (x, some r)) (hx : x.Readable) :
    ∃ p, cs = p ++ r ∧ ReadOff (fun fuel => Json.value fuel depth) p x := by
  match hhead : skipSpace cs with
  | [] =>
    rw [Json.value, hhead] at hread
    cases hread
  | c :: t =>
    obtain ⟨hc, s, hs, rfl⟩ := skipSpace_eq_cons hhead
    rw [value_append hs] at hread
    obtain ⟨p, hp, hoff⟩ := h.value_cons hc hread hx
    exact ⟨s ++ p, by rw [hp, List.append_assoc], hoff.append hs⟩

theorem ends_skipped {s : List Char} (hs : ∀ b ∈ s, isSpace b = true) {c : Char}
    (hc : c.isDigit = false ∧ c ≠ '.' ∧ c ≠ 'e' ∧ c ≠ 'E') (t : List Char) : Ends (s ++ c :: t) :=
  ends_append hs (ends_cons hc t)

theorem AllLocal.items_succ (h : AllLocal fuel) {xs : List Draft}
    (hread : Json.items (fuel + 1) depth cs = (xs, some r)) (hxs : ∀ x ∈ xs, x.Readable) :
    ∃ p, cs = p ++ ']' :: r ∧ ReadOff (fun fuel => Json.items fuel depth) (p ++ [']']) xs := by
  have hfirst := value_mem_items fuel depth cs
  rw [hread] at hfirst
  rw [Json.items] at hread
  match hvalue : Json.value fuel depth cs with
  | (x, none) =>
    simp only [hvalue] at hread
    cases hread
  | (x, some rest) =>
    rw [hvalue] at hfirst
    obtain ⟨p, rfl, hp⟩ := h.value hvalue (hxs x hfirst)
    simp only [hvalue] at hread
    split at hread
    · next hend =>
      cases hread
      obtain ⟨hc, s, hs, rfl⟩ := skipSpace_eq_cons hend
      refine ⟨p ++ s, by rw [List.append_assoc], readOff_of (by simp) fun fuel' r' hfuel hr' => ?_⟩
      simp only [List.length_append, List.length_singleton] at hfuel
      have hagain : Json.value fuel' depth (p ++ (s ++ ']' :: r')) = (x, some (s ++ ']' :: r')) :=
        hp fuel' _ (by omega) (ends_skipped hs (by decide) r')
      simp only [List.append_assoc, List.singleton_append, Json.items, hagain,
        skipSpace_append_cons hs hc]
    · next rest hmore =>
      obtain ⟨rfl, hrest⟩ := Prod.mk.inj hread
      obtain ⟨hc, s, hs, rfl⟩ := skipSpace_eq_cons hmore
      obtain ⟨q, rfl, hq⟩ := h.items (Prod.ext rfl hrest) (List.forall_mem_cons.1 hxs).2
      refine ⟨p ++ (s ++ ',' :: q), by simp, readOff_of (by simp) fun fuel' r' hfuel hr' => ?_⟩
      simp only [List.length_append, List.length_cons, List.length_nil] at hfuel
      have hagain : Json.value fuel' depth (p ++ (s ++ ',' :: (q ++ ']' :: r'))) = (x, some _) :=
        hp fuel' _ (by omega) (ends_skipped hs (by decide) _)
      have hothers := hq fuel' r' (by simp; omega) hr'
      simp only [List.append_assoc, List.cons_append, List.nil_append] at hothers
      simp only [List.append_assoc, List.cons_append, List.nil_append, Json.items, hagain,
        skipSpace_append_cons hs hc, hothers]
    · cases hread

/-- The name of a member, or what stands in its place. -/
theorem AllLocal.members_succ (h : AllLocal fuel) {ms : List (String × Draft)}
    (hread : Json.members (fuel + 1) depth cs = (ms, some r)) (hms : ∀ e ∈ ms, e.2.Readable) :
    ∃ p, cs = p ++ '}' :: r ∧ ReadOff (fun fuel => Json.members fuel depth) (p ++ ['}']) ms := by
  rw [Json.members] at hread
  split at hread
  · cases hread
  · next t hquote =>
    obtain ⟨hc, s, hs, rfl⟩ := skipSpace_eq_cons hquote
    split at hread
    · next k rest hname =>
      obtain ⟨p, rfl, hp⟩ := exists_of_readString hname
      obtain ⟨q, rfl, hq⟩ := h.member hread hms
      refine ⟨s ++ '"' :: (p ++ '"' :: q), by simp,
        readOff_of (by simp) fun fuel' r' hfuel hr' => ?_⟩
      simp only [List.length_append, List.length_cons, List.length_nil] at hfuel
      have hmember := hq fuel' r' (by simp; omega) hr'
      simp only [List.append_assoc, List.cons_append, List.nil_append] at hmember
      simp only [List.append_assoc, List.cons_append, List.nil_append, Json.members,
        skipSpace_append_cons hs hc, hp, hmember]
    · split at hread
      · cases hread
      · obtain ⟨rfl, -⟩ := Prod.mk.inj hread
        exact absurd (hms _ List.mem_cons_self) (Draft.not_readable_gap _)
  · cases hread

theorem AllLocal.member_succ (h : AllLocal fuel) {k : String} {ms : List (String × Draft)}
    (hread : Json.member (fuel + 1) depth k cs = (ms, some r)) (hms : ∀ e ∈ ms, e.2.Readable) :
    ∃ p, cs = p ++ '}' :: r ∧ ReadOff (fun fuel => Json.member fuel depth k) (p ++ ['}']) ms := by
  by_cases hcolon : ∃ t, skipSpace cs = ':' :: t
  · obtain ⟨t, hcolon⟩ := hcolon
    have hfirst := value_mem_member hcolon fuel depth k
    rw [hread] at hfirst
    obtain ⟨hc, s, hs, rfl⟩ := skipSpace_eq_cons hcolon
    rw [Json.member, hcolon] at hread
    match hvalue : Json.value fuel depth t with
    | (v, none) =>
      simp only [hvalue] at hread
      cases hread
    | (v, some rest) =>
      rw [hvalue] at hfirst
      obtain ⟨p, rfl, hp⟩ := h.value hvalue (hms _ hfirst)
      simp only [hvalue] at hread
      split at hread
      · next hend =>
        cases hread
        obtain ⟨hc', s', hs', rfl⟩ := skipSpace_eq_cons hend
        refine ⟨s ++ ':' :: (p ++ s'), by simp, readOff_of (by simp) fun fuel' r' hfuel hr' => ?_⟩
        simp only [List.length_append, List.length_cons, List.length_nil] at hfuel
        have hagain : Json.value fuel' depth (p ++ (s' ++ '}' :: r')) = (v, some _) :=
          hp fuel' _ (by omega) (ends_skipped hs' (by decide) r')
        simp only [List.append_assoc, List.cons_append, List.nil_append, Json.member,
          skipSpace_append_cons hs hc, hagain, skipSpace_append_cons hs' hc']
      · next rest hmore =>
        obtain ⟨rfl, hrest⟩ := Prod.mk.inj hread
        obtain ⟨hc', s', hs', rfl⟩ := skipSpace_eq_cons hmore
        obtain ⟨q, rfl, hq⟩ := h.members (Prod.ext rfl hrest) (List.forall_mem_cons.1 hms).2
        refine ⟨s ++ ':' :: (p ++ (s' ++ ',' :: q)), by simp,
          readOff_of (by simp) fun fuel' r' hfuel hr' => ?_⟩
        simp only [List.length_append, List.length_cons, List.length_nil] at hfuel
        have hagain : Json.value fuel' depth (p ++ (s' ++ ',' :: (q ++ '}' :: r'))) =
            (v, some _) := hp fuel' _ (by omega) (ends_skipped hs' (by decide) _)
        have hothers := hq fuel' r' (by simp; omega) hr'
        simp only [List.append_assoc, List.cons_append, List.nil_append] at hothers
        simp only [List.append_assoc, List.cons_append, List.nil_append, Json.member,
          skipSpace_append_cons hs hc, hagain, skipSpace_append_cons hs' hc', hothers]
      · cases hread
  · rw [Json.member] at hread
    split at hread
    · cases hread
    · next t heq => exact absurd ⟨t, heq⟩ hcolon
    · cases hread

end

theorem allLocal (fuel : ℕ) : AllLocal fuel := by
  induction fuel with
  | zero => exact allLocal_zero
  | succ fuel ih => exact ⟨ih.value_succ, ih.items_succ, ih.members_succ, ih.member_succ⟩

/-! ## Objects -/

theorem exists_of_value_object {fuel depth : ℕ} {cs : List Char} {ms : List (String × Draft)}
    {rest : Option (List Char)} (h : value fuel depth cs = (.object ms, rest)) :
    ∃ t, skipSpace cs = '{' :: t := by
  cases fuel with
  | zero =>
    rw [value] at h
    cases h
  | succ fuel =>
    have hnested : ∀ (xs : List Draft) rest',
        nested depth (.array xs) rest' ≠ (.object ms, rest) := by
      intro xs rest' heq
      unfold nested at heq
      split at heq <;> cases heq
    have hword : ∀ {v : Draft} (word t : List Char), v ≠ .object ms →
        wordValue v word t ≠ (.object ms, rest) := by
      intro v word t hv heq
      unfold wordValue at heq
      split at heq
      · exact hv (Prod.mk.inj heq).1
      · cases heq
    rw [value] at h
    split at h
    case h_4 t heq => exact ⟨t, heq⟩
    case h_1 => cases h
    case h_2 t heq =>
      unfold stringValue at h
      split at h
      · cases h
      · split at h <;> cases h
    case h_3 t heq =>
      simp only at h
      split at h
      · exact absurd h (hnested _ _)
      · exact absurd h (hnested _ _)
    case h_8 =>
      split at h
      · unfold numberValue at h
        split at h
        · cases h
        · split at h <;> cases h
      · cases h
    all_goals exact absurd h (hword _ _ (by simp))

/--
An object that is read from a text stands between braces, with blanks in front of it. It is read
from any text that starts with its first brace and holds it up to its last one, as long as no number
goes on.
-/
theorem exists_of_draft_object {cs r : List Char} {ms : List (String × Draft)}
    (h : draft cs = (.object ms, some r)) (hread : (Draft.object ms).Readable) :
    ∃ s p, (∀ c ∈ s, isSpace c = true) ∧ cs = s ++ ('{' :: (p ++ '}' :: r)) ∧
      ∀ r', Ends r' → draft ('{' :: (p ++ '}' :: r')) = (.object ms, some r') := by
  unfold draft at h
  obtain ⟨t, ht⟩ := exists_of_value_object h
  obtain ⟨-, s, hs, rfl⟩ := skipSpace_eq_cons ht
  rw [value_append hs] at h
  obtain ⟨p, rfl, hp⟩ := (allLocal _).object h hread
  refine ⟨s, p, hs, rfl, fun r' hr' => ?_⟩
  have hagain := hp (2 * ('{' :: (p ++ '}' :: r')).length + 2) r' (by simp; omega) hr'
  unfold draft
  simpa using hagain

end BenchHistory.Json
