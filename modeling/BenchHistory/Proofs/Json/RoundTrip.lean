import BenchHistory.Proofs.Json.Reading

/-!
# Values read back

The text of a valid value, in any form whose blanks are blanks, is read as the draft of the
value, and what stands behind it is left (`Valid.readsBack`). So a valid value that is not nested
too deep is read back from its text (`draft_text`).
-/

namespace BenchHistory.Json

-- Writer and reader are opened by their equations throughout.
attribute [local simp] text itemsText membersText value items members member

/-! ## Blanks -/

/-- Between the tokens of the form there is nothing but blanks. -/
structure Layout.Blank (l : Layout) : Prop where
  line : ∀ depth, ∀ c ∈ l.line depth, isSpace c = true
  gap : ∀ c ∈ l.gap, isSpace c = true

theorem Layout.blank_pretty : Layout.pretty.Blank where
  line depth := by
    show ∀ c ∈ '\n' :: List.replicate (2 * depth) ' ', isSpace c = true
    rw [List.forall_mem_cons]
    refine ⟨rfl, fun c hc => ?_⟩
    rw [List.eq_of_mem_replicate hc]
    rfl
  gap := by
    show ∀ c ∈ [' '], isSpace c = true
    rw [List.forall_mem_singleton]
    rfl

theorem Layout.blank_compact : Layout.compact.Blank where
  line _ _ hc := by cases hc
  gap _ hc := by cases hc

theorem skipSpace_append {bs : List Char} (hbs : ∀ c ∈ bs, isSpace c = true) (cs : List Char) :
    skipSpace (bs ++ cs) = skipSpace cs :=
  List.dropWhile_append_of_pos hbs

theorem skipSpace_cons {c : Char} (hc : isSpace c = false) (cs : List Char) :
    skipSpace (c :: cs) = c :: cs :=
  List.dropWhile_cons_of_neg (by rw [hc]; nofun)

theorem value_append {bs : List Char} (hbs : ∀ c ∈ bs, isSpace c = true) (fuel depth : ℕ)
    (cs : List Char) : value fuel depth (bs ++ cs) = value fuel depth cs := by
  cases fuel with
  | zero => rw [value, value]
  | succ fuel => rw [value, value, skipSpace_append hbs]

theorem ends_append {bs rest : List Char} (hbs : ∀ c ∈ bs, isSpace c = true) (hrest : Ends rest) :
    Ends (bs ++ rest) := by
  cases bs with
  | nil => exact hrest
  | cons b bs =>
    intro c hc
    cases hc
    have hspace := hbs b List.mem_cons_self
    unfold isSpace at hspace
    simp only [Bool.or_eq_true, decide_eq_true_eq] at hspace
    obtain ((rfl | rfl) | rfl) | rfl := hspace <;> decide

theorem ends_cons {c : Char} (hc : c.isDigit = false ∧ c ≠ '.' ∧ c ≠ 'e' ∧ c ≠ 'E')
    (rest : List Char) : Ends (c :: rest) := by
  intro b hb
  cases hb
  exact hc

/-! ## How texts start -/

/-- A number starts with its sign or with a digit. -/
theorem head_of_numeral {cs : List Char} {p : Numeral × List Char} (h : numeral cs = .ok p) :
    ∃ c r, cs = c :: r ∧ (c = '-' ∨ c.isDigit = true) := by
  cases cs with
  | nil => cases h
  | cons c r =>
    refine ⟨c, r, rfl, ?_⟩
    by_cases hminus : c = '-'
    · exact .inl hminus
    · refine .inr ?_
      by_contra hdigit
      rw [Bool.not_eq_true] at hdigit
      have hnumeral : numeral (c :: r) = unsigned false (c :: r) := by
        unfold numeral
        split
        · next heq => exact absurd (List.cons.inj heq).1 hminus
        · rfl
      have hfault : unsigned false (c :: r) = .error (digitsMissing (c :: r)) := by
        unfold unsigned someDigits
        rw [List.span_eq_takeWhile_dropWhile, List.takeWhile_cons_of_neg (by simp [hdigit]),
          List.dropWhile_cons_of_neg (by simp [hdigit])]
        rfl
      rw [hnumeral, hfault] at h
      cases h

/-- A value that starts like a number is read as one. -/
theorem value_of_numeral {cs : List Char} {p : Numeral × List Char} (h : numeral cs = .ok p)
    (fuel depth : ℕ) : value (fuel + 1) depth cs = numberValue cs := by
  obtain ⟨c, r, rfl, hc⟩ := head_of_numeral h
  have hspace : isSpace c = false := by
    by_contra hspace
    rw [Bool.not_eq_false] at hspace
    unfold isSpace at hspace
    simp only [Bool.or_eq_true, decide_eq_true_eq] at hspace
    obtain ((rfl | rfl) | rfl) | rfl := hspace <;> revert hc <;> decide
  unfold value
  rw [skipSpace_cons hspace]
  split
  case h_1 heq => cases heq
  case h_8 heq =>
    cases heq
    rw [if_pos (by simpa using hc)]
  -- The other cases are those of the characters that start a value of another kind.
  all_goals
    next heq =>
      cases heq
      exact absurd hc (by decide)

theorem numberValue_text {n : Number} (hn : n.InRange) {rest : List Char} (hrest : Ends rest) :
    numberValue (numberText n ++ rest) = (.number n, some rest) := by
  cases n with
  | whole n => exact numberValue_intText hn.1 hn.2 hrest
  | real x => exact numberValue_realText hn hrest

theorem exists_numeral {n : Number} (hn : n.InRange) {rest : List Char} (hrest : Ends rest) :
    ∃ p, numeral (numberText n ++ rest) = .ok p := by
  have hvalue := numberValue_text hn hrest
  match hnumeral : numeral (numberText n ++ rest) with
  | .ok p => exact ⟨p, rfl⟩
  | .error g =>
    unfold numberValue at hvalue
    rw [hnumeral] at hvalue
    cases hvalue

theorem numberText_ne_nil {n : Number} (hn : n.InRange) : numberText n ≠ [] := by
  intro hnil
  obtain ⟨p, hp⟩ := exists_numeral hn (show Ends [] from nofun)
  rw [hnil] at hp
  cases hp

theorem skipSpace_ne_bracket {fuel depth : ℕ} {cs rest : List Char} {d : Draft}
    (h : value fuel depth cs = (d, some rest)) (r : List Char) : skipSpace cs ≠ ']' :: r := by
  intro hbracket
  cases fuel with
  | zero =>
    rw [value] at h
    cases h
  | succ fuel =>
    rw [value, hbracket] at h
    cases h

/-! ## Items and members -/

section

variable {l : Layout} (hl : l.Blank) {fuel depth : ℕ} {cs after rest : List Char} {d : Draft}
include hl

theorem items_last (level : ℕ) (hvalue : value fuel depth cs = (d, some after))
    (hend : skipSpace after = ']' :: rest) :
    items (fuel + 1) depth (l.line level ++ cs) = ([d], some rest) := by
  rw [items, value_append (hl.line level), hvalue]
  simp only [hend]

theorem items_more (level : ℕ) (hvalue : value fuel depth cs = (d, some (',' :: after)))
    {ds : List Draft} (hmore : items fuel depth after = (ds, some rest)) :
    items (fuel + 1) depth (l.line level ++ cs) = (d :: ds, some rest) := by
  rw [items, value_append (hl.line level), hvalue]
  simp only
  rw [skipSpace_cons (by decide)]
  simp only [hmore]

theorem members_name (level : ℕ) (k : String) :
    members (fuel + 1) depth (l.line level ++ (stringText k ++ cs)) = member fuel depth k cs := by
  rw [members, skipSpace_append (hl.line level), stringText, List.cons_append,
    skipSpace_cons (by decide)]
  simp only [List.append_assoc, List.singleton_append, readString_flatMap, String.ofList_toList]

theorem member_last (k : String) (hvalue : value fuel depth cs = (d, some after))
    (hend : skipSpace after = '}' :: rest) :
    member (fuel + 1) depth k (':' :: l.gap ++ cs) = ([(k, d)], some rest) := by
  rw [member, List.cons_append, skipSpace_cons (by decide)]
  simp only [value_append hl.gap, hvalue, hend]

theorem member_more (k : String) (hvalue : value fuel depth cs = (d, some (',' :: after)))
    {ds : List (String × Draft)} (hmore : members fuel depth after = (ds, some rest)) :
    member (fuel + 1) depth k (':' :: l.gap ++ cs) = ((k, d) :: ds, some rest) := by
  rw [member, List.cons_append, skipSpace_cons (by decide)]
  simp only [value_append hl.gap, hvalue]
  rw [skipSpace_cons (by decide)]
  simp only [hmore]

theorem ends_itemsText (level : ℕ) (xs : List Json) (rest : List Char) :
    Ends (itemsText l level xs ++ rest) := by
  cases xs with
  | nil =>
    rw [itemsText, List.append_assoc]
    exact ends_append (hl.line level) (ends_cons (by decide) _)
  | cons x xs =>
    rw [itemsText]
    exact ends_cons (by decide) _

theorem ends_membersText (level : ℕ) (ms : List (String × Json)) (rest : List Char) :
    Ends (membersText l level ms ++ rest) := by
  cases ms with
  | nil =>
    rw [membersText, List.append_assoc]
    exact ends_append (hl.line level) (ends_cons (by decide) _)
  | cons e ms =>
    rw [membersText]
    exact ends_cons (by decide) _

end

/-! ## Containers -/

/-- The text of the value is read as its draft, wherever there is fuel and depth enough. -/
def ReadsBack (l : Layout) (j : Json) : Prop :=
  ∀ fuel depth level rest, j.nesting ≤ depth → 2 * (text l level j).length ≤ fuel → Ends rest →
    value fuel depth (text l level j ++ rest) = (j.toDraft, some rest)

/-- Items are read one after the other up to the closing bracket. -/
theorem items_text {l : Layout} (hl : l.Blank) {x : Json} {xs : List Json}
    (hread : ∀ y ∈ x :: xs, ReadsBack l y) {fuel depth : ℕ} (level : ℕ) (rest : List Char)
    (hdepth : ∀ y ∈ x :: xs, y.nesting ≤ depth)
    (hfuel : 2 * ((text l (level + 1) x).length + (itemsText l level xs).length) ≤ fuel) :
    items fuel depth
        (l.line (level + 1) ++ (text l (level + 1) x ++ (itemsText l level xs ++ rest))) =
      ((x :: xs).map toDraft, some rest) := by
  induction xs generalizing x fuel with
  | nil =>
    rw [itemsText, List.length_append, List.length_singleton] at hfuel
    obtain ⟨fuel, rfl⟩ : ∃ f, fuel = f + 1 := Nat.exists_eq_succ_of_ne_zero (by omega)
    have hvalue := hread x List.mem_cons_self fuel depth (level + 1) (itemsText l level [] ++ rest)
      (hdepth x List.mem_cons_self) (by omega) (ends_itemsText hl level [] rest)
    have hend : skipSpace (itemsText l level [] ++ rest) = ']' :: rest := by
      rw [itemsText, List.append_assoc, skipSpace_append (hl.line level)]
      rfl
    exact items_last hl (level + 1) hvalue hend
  | cons y ys ih =>
    have hitems : itemsText l level (y :: ys) ++ rest = ',' :: (l.line (level + 1) ++
        (text l (level + 1) y ++ (itemsText l level ys ++ rest))) := by
      rw [itemsText]
      simp only [List.append_assoc, List.cons_append]
    rw [itemsText] at hfuel
    simp only [List.cons_append, List.length_cons, List.length_append] at hfuel
    obtain ⟨fuel, rfl⟩ : ∃ f, fuel = f + 1 := Nat.exists_eq_succ_of_ne_zero (by omega)
    have hvalue := hread x List.mem_cons_self fuel depth (level + 1)
      (itemsText l level (y :: ys) ++ rest) (hdepth x List.mem_cons_self) (by omega)
      (ends_itemsText hl level (y :: ys) rest)
    have hmore := ih (fun z hz => hread z (List.mem_cons_of_mem x hz))
      (fun z hz => hdepth z (List.mem_cons_of_mem x hz)) (show _ ≤ fuel by omega)
    rw [hitems] at hvalue ⊢
    exact items_more hl (level + 1) hvalue hmore

/-- Members are read one after the other up to the closing brace. -/
theorem members_text {l : Layout} (hl : l.Blank) {k : String} {v : Json}
    {ms : List (String × Json)} (hread : ∀ e ∈ (k, v) :: ms, ReadsBack l e.2) {fuel depth : ℕ}
    (level : ℕ) (rest : List Char) (hdepth : ∀ e ∈ (k, v) :: ms, e.2.nesting ≤ depth)
    (hfuel : 2 * ((stringText k).length + (text l (level + 1) v).length +
      (membersText l level ms).length) ≤ fuel) :
    members fuel depth (l.line (level + 1) ++ (stringText k ++ (':' :: l.gap ++
        (text l (level + 1) v ++ (membersText l level ms ++ rest))))) =
      (((k, v) :: ms).map fun e => (e.1, e.2.toDraft), some rest) := by
  have hname : ∀ k, 2 ≤ (stringText k).length := by simp [stringText]
  induction ms generalizing k v fuel with
  | nil =>
    have hlong := hname k
    obtain ⟨fuel, rfl⟩ : ∃ f, fuel = f + 2 := Nat.exists_eq_add_of_le' (by omega)
    have hfirst : ReadsBack l v := hread (k, v) List.mem_cons_self
    have hvalue := hfirst fuel depth (level + 1) (membersText l level [] ++ rest)
      (hdepth (k, v) List.mem_cons_self) (by omega) (ends_membersText hl level [] rest)
    have hend : skipSpace (membersText l level [] ++ rest) = '}' :: rest := by
      rw [membersText, List.append_assoc, skipSpace_append (hl.line level)]
      rfl
    rw [members_name hl]
    exact member_last hl k hvalue hend
  | cons e ms ih =>
    obtain ⟨k', v'⟩ := e
    have hmembers : membersText l level ((k', v') :: ms) ++ rest =
        ',' :: (l.line (level + 1) ++ (stringText k' ++ (':' :: l.gap ++
          (text l (level + 1) v' ++ (membersText l level ms ++ rest))))) := by
      rw [membersText]
      simp only [List.append_assoc, List.cons_append]
    rw [membersText] at hfuel
    simp only [List.cons_append, List.length_cons, List.length_append] at hfuel
    have hlong := hname k
    obtain ⟨fuel, rfl⟩ : ∃ f, fuel = f + 2 := Nat.exists_eq_add_of_le' (by omega)
    have hfirst : ReadsBack l v := hread (k, v) List.mem_cons_self
    have hvalue := hfirst fuel depth (level + 1) (membersText l level ((k', v') :: ms) ++ rest)
      (hdepth (k, v) List.mem_cons_self) (by omega) (ends_membersText hl level _ rest)
    have hmore := ih (fun d hd => hread d (List.mem_cons_of_mem _ hd))
      (fun d hd => hdepth d (List.mem_cons_of_mem _ hd)) (show _ ≤ fuel by omega)
    rw [hmembers] at hvalue ⊢
    rw [members_name hl]
    exact member_more hl k hvalue hmore

/-! ## Values -/

theorem text_ne_nil {j : Json} (hj : j.Valid) (l : Layout) (level : ℕ) : text l level j ≠ [] := by
  cases hj with
  | null =>
    rw [text]
    nofun
  | bool b =>
    rw [text]
    cases b <;> nofun
  | number hn =>
    rw [text]
    exact numberText_ne_nil hn
  | string s =>
    rw [text]
    nofun
  | @array xs hitems =>
    cases xs with
    | nil =>
      rw [text]
      nofun
    | cons x xs =>
      rw [text]
      nofun
  | @object ms hnames hvalues =>
    cases ms with
    | nil =>
      rw [text]
      nofun
    | cons e ms =>
      obtain ⟨k, v⟩ := e
      rw [text]
      nofun

section

variable (l : Layout) (fuel depth level : ℕ) (rest : List Char)

theorem value_null : value (fuel + 1) depth (text l level .null ++ rest) = (.null, some rest) := by
  rw [text, value]
  rfl

theorem value_bool (b : Bool) :
    value (fuel + 1) depth (text l level (.bool b) ++ rest) = (.bool b, some rest) := by
  rw [text, value]
  cases b <;> rfl

theorem value_number {n : Number} (hn : n.InRange) {rest : List Char} (hrest : Ends rest) :
    value (fuel + 1) depth (text l level (.number n) ++ rest) = (.number n, some rest) := by
  obtain ⟨p, hp⟩ := exists_numeral hn hrest
  rw [text, value_of_numeral hp]
  exact numberValue_text hn hrest

theorem value_string (s : String) :
    value (fuel + 1) depth (text l level (.string s) ++ rest) = (.string s, some rest) := by
  rw [text, stringText, List.cons_append, value, skipSpace_cons (by decide), List.append_assoc]
  exact stringValue_text s rest

end

theorem value_array {l : Layout} (hl : l.Blank) {xs : List Json} (hread : ∀ x ∈ xs, ReadsBack l x)
    {fuel depth level : ℕ} (rest : List Char) (hdepth : (array xs).nesting ≤ depth)
    (hfuel : 2 * (text l level (.array xs)).length ≤ fuel + 1) :
    value (fuel + 1) depth (text l level (.array xs) ++ rest) =
      ((array xs).toDraft, some rest) := by
  obtain ⟨depth, rfl⟩ : ∃ d, depth = d + 1 :=
    Nat.exists_eq_succ_of_ne_zero (by rw [nesting] at hdepth; omega)
  rw [nesting_array_le_iff] at hdepth
  cases xs with
  | nil =>
    rw [text, value]
    rfl
  | cons x xs =>
    rw [text] at hfuel
    simp only [List.cons_append, List.length_cons, List.length_append] at hfuel
    have hfirst := hread x List.mem_cons_self fuel depth (level + 1) (itemsText l level xs ++ rest)
      (hdepth x List.mem_cons_self) (by omega) (ends_itemsText hl level xs rest)
    rw [← value_append (hl.line (level + 1))] at hfirst
    have hitems := items_text hl hread level rest hdepth (show _ ≤ fuel by omega)
    rw [text, value]
    simp only [List.append_assoc, List.cons_append]
    rw [skipSpace_cons (by decide)]
    simp only
    split
    · next r hend => exact absurd hend (skipSpace_ne_bracket hfirst r)
    · rw [Nat.add_sub_cancel, hitems, toDraft, itemsToDraft_eq]
      rfl

theorem value_object {l : Layout} (hl : l.Blank) {ms : List (String × Json)}
    (hread : ∀ e ∈ ms, ReadsBack l e.2) {fuel depth level : ℕ} (rest : List Char)
    (hdepth : (object ms).nesting ≤ depth)
    (hfuel : 2 * (text l level (.object ms)).length ≤ fuel + 1) :
    value (fuel + 1) depth (text l level (.object ms) ++ rest) =
      ((object ms).toDraft, some rest) := by
  obtain ⟨depth, rfl⟩ : ∃ d, depth = d + 1 :=
    Nat.exists_eq_succ_of_ne_zero (by rw [nesting] at hdepth; omega)
  rw [nesting_object_le_iff] at hdepth
  cases ms with
  | nil =>
    rw [text, value]
    rfl
  | cons e ms =>
    obtain ⟨k, v⟩ := e
    rw [text] at hfuel
    simp only [List.cons_append, List.length_cons, List.length_append] at hfuel
    have hmembers := members_text hl hread level rest hdepth (show _ ≤ fuel by omega)
    rw [text, value]
    simp only [List.append_assoc, List.cons_append]
    rw [skipSpace_cons (by decide)]
    simp only
    split
    · next r hend =>
      rw [skipSpace_append (hl.line _), stringText, List.cons_append,
        skipSpace_cons (by decide)] at hend
      cases hend
    · rw [List.cons_append] at hmembers
      rw [Nat.add_sub_cancel, hmembers, toDraft, membersToDraft_eq]
      rfl

theorem readsBack_of {l : Layout} {j : Json} (hj : j.Valid)
    (h : ∀ fuel depth level rest, j.nesting ≤ depth → 2 * (text l level j).length ≤ fuel + 1 →
      Ends rest → value (fuel + 1) depth (text l level j ++ rest) = (j.toDraft, some rest)) :
    ReadsBack l j := by
  intro fuel depth level rest hdepth hfuel hrest
  have hpos := List.length_pos_iff.2 (text_ne_nil hj l level)
  obtain ⟨fuel, rfl⟩ : ∃ f, fuel = f + 1 := Nat.exists_eq_succ_of_ne_zero (by omega)
  exact h fuel depth level rest hdepth hfuel hrest

/-- The text of a valid value is read as the draft of the value. -/
theorem Valid.readsBack {l : Layout} (hl : l.Blank) {j : Json} (hj : j.Valid) :
    ReadsBack l j := by
  induction hj with
  | null =>
    refine readsBack_of .null fun fuel depth level rest _ _ _ => ?_
    exact value_null l fuel depth level rest
  | bool b =>
    refine readsBack_of (.bool b) fun fuel depth level rest _ _ _ => ?_
    exact value_bool l fuel depth level rest b
  | number hn =>
    refine readsBack_of (.number hn) fun fuel depth level rest _ _ hrest => ?_
    exact value_number l fuel depth level hn hrest
  | string s =>
    refine readsBack_of (.string s) fun fuel depth level rest _ _ _ => ?_
    exact value_string l fuel depth level rest s
  | array hitems ih =>
    refine readsBack_of (.array hitems) fun fuel depth level rest hdepth hfuel _ => ?_
    exact value_array hl ih rest hdepth hfuel
  | object hnames hvalues ih =>
    refine readsBack_of (.object hnames hvalues) fun fuel depth level rest hdepth hfuel _ => ?_
    exact value_object hl ih rest hdepth hfuel

/-- A valid value that is not nested too deep is read back from its text. -/
theorem draft_text {l : Layout} (hl : l.Blank) {j : Json} (hj : j.Valid)
    (hdepth : j.nesting ≤ maxDepth) (level : ℕ) :
    draft (text l level j) = (j.toDraft, some []) := by
  have hread := hj.readsBack hl (2 * (text l level j).length + 2) maxDepth level [] hdepth
    (Nat.le_add_right _ _) nofun
  rw [List.append_nil] at hread
  unfold draft
  exact hread

end BenchHistory.Json
