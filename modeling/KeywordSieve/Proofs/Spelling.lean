import KeywordSieve.Proofs.Numerals

/-!
Every text that is read as a JSON value is the text of a tree with that value. What reads a part
leaves the text behind it, so the part in front of that is found with each step of reading, and the
white space in front of the next part goes with that part.
-/
namespace KeywordSieve.Json

open Text

variable {t rest : Text} {codes : List Nat} {j : Json} {fuel : Nat}

/-- The white space at the head of a text. -/
def Gap.ofHead (t : Text) : Gap :=
  ⟨t.takeWhile isSpace, List.all_eq_true.1 List.all_takeWhile⟩

def Gap.none : Gap := ⟨[], by simp⟩

theorem ofHead_append (t : Text) : (Gap.ofHead t).text ++ skipSpace t = t :=
  List.takeWhile_append_dropWhile

/-- The pieces of a string are found with its codes. -/
theorem exists_pieces (h : codes? t = some (codes, rest)) : ∃ ps : List Piece,
    t = ps.flatMap Piece.text ++ '"' :: rest ∧ ps.map Piece.number = codes := by
  induction t using codes?.induct generalizing codes rest with
  | case1 => cases h
  | case2 rest =>
    rw [codes?] at h
    cases h
    exact ⟨[], rfl, rfl⟩
  | case3 a b c d t ih =>
    simp only [codes?, Option.bind_eq_bind, Option.bind_eq_some_iff] at h
    obtain ⟨n, hn, ⟨more, rest'⟩, hmore, he⟩ := h
    cases he
    obtain ⟨ps, ht, hps⟩ := ih hmore
    exact ⟨.code a b c d n hn :: ps, by simp [ht, Piece.text], by simp [hps, Piece.number]⟩
  | case4 e t hn ih =>
    rw [codes?] at h
    · simp only [Option.bind_eq_bind, Option.bind_eq_some_iff] at h
      obtain ⟨c, hc, ⟨more, rest'⟩, hmore, he⟩ := h
      cases he
      obtain ⟨ps, ht, hps⟩ := ih hmore
      exact ⟨.letter e c hc :: ps, by simp [ht, Piece.text], by simp [hps, Piece.number]⟩
    · exact hn
  | case5 c t hquote hcode hletter hc =>
    rw [codes?, if_pos hc] at h
    · cases h
    all_goals assumption
  | case6 c t hquote hcode hletter hc ih =>
    rw [codes?, if_neg hc] at h
    · simp only [Option.bind_eq_bind, Option.bind_eq_some_iff] at h
      obtain ⟨⟨more, rest'⟩, hmore, he⟩ := h
      cases he
      obtain ⟨ps, ht, hps⟩ := ih hmore
      have hslash : c ≠ '\\' := by
        rintro rfl
        cases t with
        | nil => cases hmore
        | cons e t => exact hletter e t rfl rfl
      exact ⟨.plain c ⟨hquote, hslash, Nat.le_of_not_lt hc⟩ :: ps, by simp [ht, Piece.text],
        by simp [hps, Piece.number]⟩
    all_goals assumption

/-- What is read as a string is one. -/
theorem exists_literal {value : Text} (h : string? t = some (value, rest)) :
    ∃ l : Literal, '"' :: t = l.text ++ rest ∧ l.value = value := by
  simp only [string?, Option.bind_eq_bind, Option.bind_eq_some_iff] at h
  obtain ⟨⟨codes, rest'⟩, hcodes, value', hvalue, he⟩ := h
  cases he
  obtain ⟨ps, rfl, rfl⟩ := exists_pieces hcodes
  exact ⟨⟨ps, value, hvalue⟩, by simp [Literal.text, Literal.inside], rfl⟩

/-- The text of the elements of an array, up to its end, behind some white space. -/
def SpellsElements (t rest : Text) (js : List Json) : Prop :=
  ∀ before : Gap, ∃ elements : Elements, elements.json = js ∧
    ∀ first, elements.text first ++ ']' :: rest = comma first ++ (before.text ++ t)

def SpellsFields (t rest : Text) (fields : List (Text × Json)) : Prop :=
  ∀ before : Gap, ∃ written : Fields, written.json = fields ∧
    ∀ first, written.text first ++ '\x7d' :: rest = comma first ++ (before.text ++ t)

structure Spelled (fuel : Nat) : Prop where
  value : ∀ {t j rest}, value? fuel t = some (j, rest) →
    ∃ w : Written, t = w.text ++ rest ∧ w.json = j
  elements : ∀ {t js rest}, elements? fuel t = some (js, rest) → SpellsElements t rest js
  fields : ∀ {t fields rest}, fields? fuel t = some (fields, rest) → SpellsFields t rest fields

theorem Spelled.value_succ (h : Spelled fuel) (hv : value? (fuel + 1) t = some (j, rest)) :
    ∃ w : Written, t = w.text ++ rest ∧ w.json = j := by
  unfold value? at hv
  split at hv
  · next r =>
    obtain ⟨⟨value, rest'⟩, hs, he⟩ := Option.map_eq_some_iff.1 hv
    cases he
    obtain ⟨l, ht, rfl⟩ := exists_literal hs
    exact ⟨.string l, ht, rfl⟩
  · next r =>
    split at hv
    · next rest' hr =>
      cases hv
      refine ⟨.array (Gap.ofHead r) .nil, ?_, rfl⟩
      have ht := ofHead_append r
      rw [hr] at ht
      simp [Written.text, Elements.text, ht]
    · obtain ⟨⟨js, rest'⟩, hs, he⟩ := Option.map_eq_some_iff.1 hv
      cases he
      obtain ⟨elements, rfl, ht⟩ := h.elements hs Gap.none
      refine ⟨.array (Gap.ofHead r) elements, ?_, rfl⟩
      have hgap : (Gap.ofHead r).text ++ (elements.text true ++ ']' :: rest') = r := by
        rw [ht true]
        exact ofHead_append r
      simp [Written.text, hgap]
  · next r =>
    split at hv
    · next rest' hr =>
      cases hv
      refine ⟨.object (Gap.ofHead r) .nil, ?_, rfl⟩
      have ht := ofHead_append r
      rw [hr] at ht
      simp [Written.text, Fields.text, ht]
    · obtain ⟨⟨fields, rest'⟩, hs, he⟩ := Option.map_eq_some_iff.1 hv
      cases he
      obtain ⟨written, rfl, ht⟩ := h.fields hs Gap.none
      refine ⟨.object (Gap.ofHead r) written, ?_, rfl⟩
      have hgap : (Gap.ofHead r).text ++ (written.text true ++ '\x7d' :: rest') = r := by
        rw [ht true]
        exact ofHead_append r
      simp [Written.text, hgap]
  · obtain ⟨s, ht, hj⟩ := exists_simple hv
    exact ⟨.simple s, ht, hj⟩

theorem Spelled.elements_succ (h : Spelled fuel) {js : List Json}
    (he : elements? (fuel + 1) t = some (js, rest)) : SpellsElements t rest js := by
  intro before
  simp only [elements?, Option.bind_eq_bind, Option.bind_eq_some_iff] at he
  obtain ⟨⟨j, r⟩, hv, he⟩ := he
  obtain ⟨w, rfl, rfl⟩ := h.value hv
  have hr := ofHead_append r
  dsimp only at he
  split at he
  · next r' hcomma =>
    obtain ⟨⟨more, rest'⟩, hmore, he⟩ := Option.bind_eq_some_iff.1 he
    cases he
    obtain ⟨others, rfl, ht⟩ := h.elements hmore (Gap.ofHead r')
    refine ⟨.cons before w (Gap.ofHead r) others, rfl, fun first => ?_⟩
    have hothers : others.text false ++ ']' :: rest' = ',' :: r' := by
      rw [ht false]
      exact congrArg (',' :: ·) (ofHead_append r')
    rw [hcomma, ← hothers] at hr
    simp [Elements.text, hr]
  · next r' hend =>
    cases he
    refine ⟨.cons before w (Gap.ofHead r) .nil, rfl, fun first => ?_⟩
    rw [hend] at hr
    simp [Elements.text, hr]
  · cases he

theorem Spelled.fields_succ (h : Spelled fuel) {fields : List (Text × Json)}
    (hf : fields? (fuel + 1) t = some (fields, rest)) : SpellsFields t rest fields := by
  intro before
  simp only [fields?, Option.bind_eq_bind, Option.bind_eq_some_iff] at hf
  obtain ⟨behindQuote, hquote, ⟨key, behindKey⟩, hkey, behindColon, hcolon, ⟨j, r⟩, hv, hf⟩ := hf
  obtain ⟨w, hw, rfl⟩ := h.value hv
  obtain ⟨l, hl, rfl⟩ := exists_literal hkey
  have hname : t = l.text ++ ((Gap.ofHead behindKey).text ++ ':' :: ((Gap.ofHead behindColon).text ++
      (w.text ++ r))) := by
    have hc := after?_eq_some hcolon
    rw [after?_eq_some hquote, ← hw, ofHead_append]
    calc "\"".toList ++ behindQuote = l.text ++ behindKey := hl
      _ = l.text ++ ((Gap.ofHead behindKey).text ++ skipSpace behindKey) := by rw [ofHead_append]
      _ = _ := by rw [hc]; rfl
  have hr := ofHead_append r
  dsimp only at hf
  split at hf
  · next r' hcomma =>
    obtain ⟨⟨more, rest'⟩, hmore, he⟩ := Option.bind_eq_some_iff.1 hf
    cases he
    obtain ⟨others, rfl, ht⟩ := h.fields hmore (Gap.ofHead r')
    refine ⟨.cons ⟨before, l, Gap.ofHead behindKey⟩ (Gap.ofHead behindColon) w (Gap.ofHead r) others,
      rfl, fun first => ?_⟩
    have hothers : others.text false ++ '\x7d' :: rest' = ',' :: r' := by
      rw [ht false]
      exact congrArg (',' :: ·) (ofHead_append r')
    rw [hcomma, ← hothers] at hr
    rw [hname]
    simp [Fields.text, Name.text, hr]
  · next r' hend =>
    cases hf
    refine ⟨.cons ⟨before, l, Gap.ofHead behindKey⟩ (Gap.ofHead behindColon) w (Gap.ofHead r) .nil,
      rfl, fun first => ?_⟩
    rw [hend] at hr
    rw [hname]
    simp [Fields.text, Name.text, hr]
  · cases hf

theorem spelled (fuel : Nat) : Spelled fuel := by
  induction fuel with
  | zero => exact ⟨by simp [value?], by simp [elements?], by simp [fields?]⟩
  | succ fuel ih => exact ⟨ih.value_succ, ih.elements_succ, ih.fields_succ⟩

/-- A text that holds a JSON value is the text of a tree with that value. -/
theorem exists_whole (h : ofText? t = some j) : ∃ w : Whole, w.text = t ∧ w.json = j := by
  unfold ofText? at h
  split at h
  · next v rest hv =>
    split at h
    · next hend =>
      cases h
      obtain ⟨root, ht, rfl⟩ := (spelled _).value hv
      refine ⟨⟨Gap.ofHead t, root, Gap.ofHead rest⟩, ?_, rfl⟩
      have hrest := ofHead_append rest
      rw [List.isEmpty_iff.1 hend, List.append_nil] at hrest
      rw [Whole.text, hrest, ← ht, ofHead_append]
    · cases h
  · cases h

end KeywordSieve.Json
