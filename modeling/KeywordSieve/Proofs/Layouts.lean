import KeywordSieve.Proofs.Rendering
import KeywordSieve.Proofs.Spelling

/-!
Every tree is read from its text as the value that is written. So the texts that hold a JSON value
are those of trees, and trees of one text have one value. As for values that are written on one
line, two steps of reading for every character are enough.
-/
namespace KeywordSieve.Json

open Text

variable {t rest : Text} {fuel : Nat}

/-- What may stand behind a value: white space, a comma, the end of a collection, or nothing. -/
def Follows (rest : Text) : Prop :=
  ∀ c ∈ rest.head?, isSpace c = true ∨ c = ',' ∨ c = ']' ∨ c = '\x7d'

theorem Follows.stops (h : Follows rest) : Numeral.Stops rest := by
  intro c hc
  rcases h c hc with hs | rfl | rfl | rfl
  · simp only [isSpace, Bool.or_eq_true, beq_iff_eq] at hs
    rcases hs with ((rfl | rfl) | rfl) | rfl <;> decide
  all_goals decide

theorem follows_gap (g : Gap) (h : Follows rest) : Follows (g.text ++ rest) := by
  intro c hc
  rw [List.head?_append, Option.mem_def, Option.or_eq_some_iff] at hc
  rcases hc with hc | ⟨-, hc⟩
  · exact Or.inl (g.blank c (List.mem_of_head? hc))
  · exact h c hc

theorem skipSpace_gap (g : Gap) (t : Text) : skipSpace (g.text ++ t) = skipSpace t :=
  List.dropWhile_append_of_pos g.blank

theorem codes?_pieces (ps : List Piece) (rest : Text) :
    codes? (ps.flatMap Piece.text ++ '"' :: rest) = some (ps.map Piece.number, rest) := by
  induction ps with
  | nil => rfl
  | cons p ps ih =>
    rw [List.flatMap_cons, List.append_assoc]
    cases p with
    | plain c h =>
      obtain ⟨hquote, hslash, hc⟩ := h
      rw [Piece.text, List.singleton_append, codes?, if_neg (Nat.not_lt.2 hc), ih]
      · rfl
      · exact hquote
      · rintro a b' c' d more h -
        exact hslash h
      · rintro e more h -
        exact hslash h
    | letter e c h =>
      rw [Piece.text, List.cons_append, List.singleton_append, codes?, h, ih]
      · rfl
      · rintro a b' c' d more he
        cases he
        cases h
    | code a b c d n h =>
      simp only [Piece.text, List.cons_append, List.nil_append, codes?, h, ih]
      rfl

theorem string?_inside (l : Literal) (rest : Text) :
    string? (l.inside ++ '"' :: rest) = some (l.value, rest) := by
  rw [string?, Literal.inside, codes?_pieces]
  show (textOfCodes? _).bind _ = _
  rw [l.denotes]
  rfl

theorem Simple.exists_head (s : Simple) : ∃ c more, s.text = c :: more ∧
    (c.isAlphanum = true ∨ c = '-') := by
  obtain ⟨c, more, ht, hc⟩ := s.exists_cons
  exact ⟨c, more, ht, hc.imp_right And.left⟩

/-- No value begins with white space or with the end of a collection. -/
theorem Written.exists_head (w : Written) :
    ∃ c more, w.text = c :: more ∧ isSpace c = false ∧ c ≠ ']' ∧ c ≠ '\x7d' := by
  cases w with
  | simple s =>
    obtain ⟨c, more, ht, hc⟩ := s.exists_head
    have hne : ∀ d : Char, d.isAlphanum = false → d ≠ '-' → c ≠ d := by
      rintro d hd hm rfl
      rcases hc with hc | hc
      · rw [hd] at hc
        cases hc
      · exact hm hc
    refine ⟨c, more, ht, ?_, hne _ rfl (by decide), hne _ rfl (by decide)⟩
    simp [isSpace, hne ' ' rfl (by decide), hne '\t' rfl (by decide), hne '\n' rfl (by decide),
      hne '\r' rfl (by decide)]
  | _ => exact ⟨_, _, rfl, by decide⟩

theorem Written.solid (w : Written) (rest : Text) : Solid (w.text ++ rest) := by
  obtain ⟨c, more, ht, hs, -⟩ := w.exists_head
  exact Solid.append ⟨c, more, ht, hs⟩ rest

theorem Written.head?_ne (w : Written) (rest : Text) : (w.text ++ rest).head? ≠ some ']' := by
  obtain ⟨c, more, ht, -, hc, -⟩ := w.exists_head
  simpa [ht] using hc

theorem value?_simple (s : Simple) (h : Follows rest) :
    value? (fuel + 1) (s.text ++ rest) = some (s.value, rest) := by
  have hs := s.simple?_text_append h.stops
  obtain ⟨c, more, ht, hc⟩ := s.exists_head
  rw [ht, List.cons_append] at hs ⊢
  rw [value?]
  · exact hs
  all_goals
    rintro behind ⟨⟩
    rcases hc with hc | hc <;> cases hc

/-! The parts of a collection, from the first one on. -/

section

variable (name : Name) (before after : Gap) (w : Written)

theorem skipSpace_elements (more : Elements) (rest : Text) :
    skipSpace ((Elements.cons before w after more).text true ++ rest) =
      w.text ++ (after.text ++ (more.text false ++ rest)) := by
  simp only [Elements.text, comma, if_true, List.nil_append, List.append_assoc]
  rw [skipSpace_gap, (w.solid _).skipSpace]

theorem skipSpace_fields (more : Fields) (rest : Text) :
    skipSpace ((Fields.cons name before w after more).text true ++ rest) =
      '"' :: (name.literal.inside ++ '"' :: (name.after.text ++ ':' :: (before.text ++
        (w.text ++ (after.text ++ (more.text false ++ rest)))))) := by
  simp only [Fields.text, Name.text, Literal.text, comma, if_true, List.nil_append,
    List.append_assoc, List.cons_append]
  rw [skipSpace_gap]
  rfl

/-- Behind a part the next one follows or the end. -/
theorem follows_elements (more : Elements) (rest : Text) :
    Follows (after.text ++ (more.text false ++ ']' :: rest)) := by
  apply follows_gap
  cases more <;> simp [Follows, Elements.text, comma]

theorem follows_fields (more : Fields) (rest : Text) :
    Follows (after.text ++ (more.text false ++ '\x7d' :: rest)) := by
  apply follows_gap
  cases more <;> simp [Follows, Fields.text, comma]

end

mutual

/-- A written value is read as the value that it denotes, up to where it ends. -/
theorem Written.value?_text (w : Written) {fuel : Nat} {rest : Text} (h : Follows rest)
    (hf : 2 * w.text.length + 1 ≤ fuel) : value? fuel (w.text ++ rest) = some (w.json, rest) := by
  obtain ⟨fuel, rfl⟩ := Nat.exists_eq_add_of_le' (Nat.le_trans (Nat.le_add_left 1 _) hf)
  match w with
  | .simple s => exact value?_simple s h
  | .string l =>
    rw [Written.text, Literal.text, List.cons_append, List.append_assoc, List.singleton_append,
      value?, string?_inside]
    rfl
  | .array gap elements =>
    simp only [Written.text, List.length_cons, List.length_append, List.length_nil] at hf
    rw [Written.text, List.cons_append, List.append_assoc, List.append_assoc, List.singleton_append]
    match elements with
    | .nil =>
      rw [value?, skipSpace_gap]
      rfl
    | .cons before v after more =>
      apply value?_array
      · rw [skipSpace_gap, skipSpace_elements]
        exact v.head?_ne _
      · rw [skipSpace_gap]
        exact (Elements.cons before v after more).elements?_text nofun (by omega)
  | .object gap fields =>
    simp only [Written.text, List.length_cons, List.length_append, List.length_nil] at hf
    rw [Written.text, List.cons_append, List.append_assoc, List.append_assoc, List.singleton_append]
    match fields with
    | .nil =>
      rw [value?, skipSpace_gap]
      rfl
    | .cons name before v after more =>
      apply value?_object
      · rw [skipSpace_gap, skipSpace_fields]
        nofun
      · rw [skipSpace_gap]
        exact (Fields.cons name before v after more).fields?_text nofun (by omega)

theorem Elements.elements?_text (elements : Elements) {fuel : Nat} {rest : Text}
    (hne : elements ≠ .nil) (hf : 2 * (elements.text true).length + 2 ≤ fuel) :
    elements? fuel (skipSpace (elements.text true ++ ']' :: rest)) = some (elements.json, rest) :=
  match elements with
  | .nil => absurd rfl hne
  | .cons before w after more => by
    obtain ⟨fuel, rfl⟩ := Nat.exists_eq_add_of_le' (Nat.le_trans (Nat.le_add_left 1 _) hf)
    simp only [Elements.text, comma, if_true, List.nil_append, List.length_append] at hf
    have hv : value? fuel _ = _ := w.value?_text (follows_elements after more rest) (by omega)
    rw [skipSpace_elements]
    match more with
    | .nil => exact elements?_last hv (skipSpace_gap after _)
    | .cons before' w' after' more' =>
      have hcomma : (Elements.cons before' w' after' more').text false =
        ',' :: (Elements.cons before' w' after' more').text true := rfl
      rw [hcomma, List.length_cons] at hf
      exact elements?_comma hv (skipSpace_gap after _)
        ((Elements.cons before' w' after' more').elements?_text nofun (by omega))

theorem Fields.fields?_text (fields : Fields) {fuel : Nat} {rest : Text}
    (hne : fields ≠ .nil) (hf : 2 * (fields.text true).length + 2 ≤ fuel) :
    fields? fuel (skipSpace (fields.text true ++ '\x7d' :: rest)) = some (fields.json, rest) :=
  match fields with
  | .nil => absurd rfl hne
  | .cons name before w after more => by
    obtain ⟨fuel, rfl⟩ := Nat.exists_eq_add_of_le' (Nat.le_trans (Nat.le_add_left 1 _) hf)
    simp only [Fields.text, comma, if_true, List.nil_append, List.length_append] at hf
    have hw : ∀ behind, skipSpace (before.text ++ (w.text ++ behind)) = w.text ++ behind :=
      fun behind => (skipSpace_gap before _).trans (w.solid behind).skipSpace
    have hv := (congrArg (value? fuel) (hw _)).trans
      (w.value?_text (follows_fields after more rest) (by omega))
    have hkey := string?_inside name.literal (name.after.text ++ ':' :: (before.text ++
      (w.text ++ (after.text ++ (more.text false ++ '\x7d' :: rest)))))
    rw [skipSpace_fields]
    match more with
    | .nil => exact fields?_last hkey (skipSpace_gap name.after _) hv (skipSpace_gap after _)
    | .cons name' before' w' after' more' =>
      have hcomma : (Fields.cons name' before' w' after' more').text false =
        ',' :: (Fields.cons name' before' w' after' more').text true := rfl
      rw [hcomma, List.length_cons] at hf
      exact fields?_comma hkey (skipSpace_gap name.after _) hv (skipSpace_gap after _)
        ((Fields.cons name' before' w' after' more').fields?_text nofun (by omega))

end

/-- A written text is read as its value. -/
theorem Whole.ofText?_text (w : Whole) : ofText? w.text = some w.json := by
  have hafter : Follows w.after.text := by
    intro c hc
    exact Or.inl (w.after.blank c (List.mem_of_head? hc))
  have hrest : skipSpace w.after.text = [] := by
    rw [← List.append_nil w.after.text, skipSpace_gap]
    rfl
  have hlength : w.root.text.length ≤ w.text.length := by
    rw [Whole.text, List.length_append, List.length_append]
    omega
  have hv := w.root.value?_text hafter (Nat.add_le_add_right (Nat.mul_le_mul_left 2 hlength) 1)
  rw [ofText?, Whole.text, skipSpace_gap, (w.root.solid _).skipSpace, ← Whole.text, hv]
  simp [hrest, Whole.json]

/-- The texts that hold a JSON value are those of the trees with that value. -/
theorem ofText?_eq_some {j : Json} : ofText? t = some j ↔ ∃ w : Whole, w.text = t ∧ w.json = j := by
  constructor
  · exact exists_whole
  · rintro ⟨w, rfl, rfl⟩
    exact w.ofText?_text

end KeywordSieve.Json
