import KeywordSieve.Proofs.Sticking

/-!
The tokens of a JSON text that fits. Brackets, commas and scalars are tokens, and a field has the
mark of a key, its name and a colon in front of its value. If there is a tab between two parts, the
tokens break off there.
-/
namespace KeywordSieve.Json

open Text Yaml Yaml.Lexer

def commaKinds (first : Bool) : List Token.Kind := if first then [] else [.flowEntry]

mutual

def Written.kinds : Written → List Token.Kind
  | .simple s => [.scalar (.plain s.text)]
  | .string s => [.scalar (.verbatim s.codes)]
  | .array _ elements => [.flowSequenceStart] ++ (elements.kinds true ++ [.flowSequenceEnd])
  | .object _ fields => [.flowMappingStart] ++ (fields.kinds true ++ [.flowMappingEnd])

def Elements.kinds (first : Bool) : Elements → List Token.Kind
  | .nil => []
  | .cons _ w _ more => commaKinds first ++ (w.kinds ++ more.kinds false)

def Fields.kinds (first : Bool) : Fields → List Token.Kind
  | .nil => []
  | .cons name _ w _ more => commaKinds first ++
      ([.key, .scalar (.verbatim name.literal.codes), .value] ++ (w.kinds ++ more.kinds false))

end

variable {l : Lexer} {gap : Gap} {s t : Text} {c : Char} {depth : Nat} {fresh : Bool}

theorem Gap.isBlank (h : gap.fits = true) : IsBlank gap.text := by
  intro c hc
  simpa [or_assoc] using List.all_eq_true.1 h c hc

theorem tab_not_mem_comma (first : Bool) : '\t' ∉ comma first := by
  cases first <;> decide

/-- In front of a part a key may begin, behind a bracket as well as behind a comma. -/
theorem passes_first {first : Bool} (h : At l (comma first ++ t) depth fresh)
    (hf : first = true → fresh = true) : Passes l t depth true (commaKinds first) := by
  cases first with
  | true => exact ⟨l, Lexes.refl l, hf rfl ▸ h⟩
  | false => exact passes_comma h

/-- Behind an element there is a comma or the closing bracket. -/
theorem Elements.exists_closes (more : Elements) (t : Text) :
    ∃ c t', more.text false ++ ']' :: t = c :: t' ∧ Plain.Closes c := by
  cases more with
  | nil => exact ⟨']', t, rfl, Or.inr (Or.inl rfl)⟩
  | cons => exact ⟨',', _, rfl, Or.inl rfl⟩

theorem Fields.exists_closes (more : Fields) (t : Text) :
    ∃ c t', more.text false ++ '\x7d' :: t = c :: t' ∧ Plain.Closes c := by
  cases more with
  | nil => exact ⟨'\x7d', t, rfl, Or.inr (Or.inr (Or.inl rfl))⟩
  | cons => exact ⟨',', _, rfl, Or.inl rfl⟩

theorem meets_array {elements : Elements} (hg : gap.fits = true)
    (he : ∀ m, At m (elements.text true ++ ']' :: t) (depth + 1) true →
      Meets (elements.text true) m (']' :: t) (depth + 1) false (elements.kinds true))
    (h : At l ((Written.array gap elements).text ++ t) depth fresh) :
    Meets (Written.array gap elements).text l t depth false (Written.array gap elements).kinds := by
  have ht : (Written.array gap elements).text ++ t =
      '[' :: (gap.text ++ (elements.text true ++ ']' :: t)) := by
    simp [Written.text]
  have hpart : (Written.array gap elements).text =
      ['['] ++ gap.text ++ (elements.text true ++ [']']) := by
    simp [Written.text]
  rw [ht] at h
  rw [hpart]
  apply (((passes_sequenceStart h).meets (by decide)).behind_gap (Gap.isBlank hg)).trans
  intro m hm
  exact (he m hm).trans fun n hn => (passes_sequenceEnd hn).meets (by decide)

theorem meets_object {fields : Fields} (hg : gap.fits = true)
    (he : ∀ m, At m (fields.text true ++ '\x7d' :: t) (depth + 1) true →
      Meets (fields.text true) m ('\x7d' :: t) (depth + 1) false (fields.kinds true))
    (h : At l ((Written.object gap fields).text ++ t) depth fresh) :
    Meets (Written.object gap fields).text l t depth false (Written.object gap fields).kinds := by
  have ht : (Written.object gap fields).text ++ t =
      '\x7b' :: (gap.text ++ (fields.text true ++ '\x7d' :: t)) := by
    simp [Written.text]
  have hpart : (Written.object gap fields).text =
      ['\x7b'] ++ gap.text ++ (fields.text true ++ ['\x7d']) := by
    simp [Written.text]
  rw [ht] at h
  rw [hpart]
  apply (((passes_mappingStart h).meets (by decide)).behind_gap (Gap.isBlank hg)).trans
  intro m hm
  exact (he m hm).trans fun n hn => (passes_mappingEnd hn).meets (by decide)

theorem meets_name {name : Name} (hf : name.fits = true)
    (h : At l (name.text ++ t) (depth + 1) true) :
    Meets name.text l t (depth + 1) false
      [.key, .scalar (.verbatim name.literal.codes), .value] := by
  simp only [Name.fits, Bool.and_eq_true, decide_eq_true_eq] at hf
  obtain ⟨⟨⟨hbefore, hliteral⟩, hafter⟩, hlength⟩ := hf
  have ht : name.text ++ t =
      name.before.text ++ (name.literal.text ++ (name.after.text ++ ':' :: t)) := by
    simp [Name.text]
  rw [ht] at h
  exact (meets_gap h (Gap.isBlank hbefore)).trans fun m hm => meets_key hm hliteral
    (fun c hc => by simpa using List.all_eq_true.1 hafter c hc) hlength

mutual

/-- A value inside a collection is read as its tokens, with the gap behind it. -/
theorem Written.meets (w : Written) (hf : w.fits = true) {l : Lexer} {c : Char} {after t : Text}
    {depth : Nat} {fresh : Bool} (hg : IsBlank after) (hc : Plain.Closes c)
    (h : At l (w.text ++ (after ++ c :: t)) (depth + 1) fresh) :
    Meets (w.text ++ after) l (c :: t) (depth + 1) false w.kinds :=
  match w with
  | .simple _ => meets_simple h hg hc
  | .string s => ((passes_literal h hf).meets s.tab_not_mem).behind_gap hg
  | .array gap elements => by
    rw [Written.fits, Bool.and_eq_true] at hf
    exact (meets_array hf.1 (fun m hm => elements.meets hf.2 true hm fun _ => rfl) h).behind_gap hg
  | .object gap fields => by
    rw [Written.fits, Bool.and_eq_true] at hf
    exact (meets_object hf.1 (fun m hm => fields.meets hf.2 true hm fun _ => rfl) h).behind_gap hg

theorem Elements.meets (elements : Elements) (hf : elements.fits = true) {l : Lexer} {t : Text}
    {depth : Nat} {fresh : Bool} (first : Bool)
    (h : At l (elements.text first ++ ']' :: t) (depth + 1) fresh)
    (hfirst : first = true → fresh = true) :
    Meets (elements.text first) l (']' :: t) (depth + 1) false (elements.kinds first) :=
  match elements with
  | .nil => Passes.meets ⟨l, Lexes.refl l, { h with allowed := nofun }⟩ List.not_mem_nil
  | .cons before w after more => by
    simp only [Elements.fits, Bool.and_eq_true] at hf
    obtain ⟨⟨⟨hbefore, hw⟩, hafter⟩, hmore⟩ := hf
    obtain ⟨c, t', he, hc⟩ := more.exists_closes t
    have ht : (Elements.cons before w after more).text first ++ ']' :: t =
        comma first ++ (before.text ++ (w.text ++ (after.text ++ c :: t'))) := by
      simp [Elements.text, ← he]
    have hpart : (Elements.cons before w after more).text first =
        comma first ++ before.text ++ (w.text ++ after.text ++ more.text false) := by
      simp [Elements.text]
    rw [ht] at h
    rw [hpart]
    apply (((passes_first h hfirst).meets (tab_not_mem_comma first)).behind_gap
      (Gap.isBlank hbefore)).trans
    intro m hm
    apply (w.meets hw (Gap.isBlank hafter) hc hm).trans
    intro n hn
    rw [← he] at hn
    exact more.meets hmore false hn nofun

theorem Fields.meets (fields : Fields) (hf : fields.fits = true) {l : Lexer} {t : Text}
    {depth : Nat} {fresh : Bool} (first : Bool)
    (h : At l (fields.text first ++ '\x7d' :: t) (depth + 1) fresh)
    (hfirst : first = true → fresh = true) :
    Meets (fields.text first) l ('\x7d' :: t) (depth + 1) false (fields.kinds first) :=
  match fields with
  | .nil => Passes.meets ⟨l, Lexes.refl l, { h with allowed := nofun }⟩ List.not_mem_nil
  | .cons name before w after more => by
    simp only [Fields.fits, Bool.and_eq_true] at hf
    obtain ⟨⟨⟨⟨hname, hbefore⟩, hw⟩, hafter⟩, hmore⟩ := hf
    obtain ⟨c, t', he, hc⟩ := more.exists_closes t
    have ht : (Fields.cons name before w after more).text first ++ '\x7d' :: t =
        comma first ++ (name.text ++ (before.text ++ (w.text ++ (after.text ++ c :: t')))) := by
      simp [Fields.text, ← he]
    have hpart : (Fields.cons name before w after more).text first = comma first ++
        (name.text ++ before.text ++ (w.text ++ after.text ++ more.text false)) := by
      simp [Fields.text]
    rw [ht] at h
    rw [hpart]
    apply ((passes_first h hfirst).meets (tab_not_mem_comma first)).trans
    intro m hm
    apply ((meets_name hname hm).behind_gap (Gap.isBlank hbefore)).trans
    intro n hn
    apply (w.meets hw (Gap.isBlank hafter) hc hn).trans
    intro p hp
    rw [← he] at hp
    exact more.meets hmore false hp nofun

end

def Written.isCollection : Written → Bool
  | .simple _ => false
  | .string _ => false
  | .array .. => true
  | .object .. => true

/-- A text that holds an array or object is read up to its end, if it holds no tab. -/
theorem Whole.meets {deepest : Nat} (w : Whole) (hf : w.fits deepest = true)
    (hc : w.root.isCollection = true) (h : At l w.text 0 true) :
    Meets w.text l [] 0 false w.root.kinds := by
  obtain ⟨before, root, after⟩ := w
  simp only [Whole.fits, Bool.and_eq_true] at hf
  obtain ⟨⟨⟨hbefore, hroot⟩, hafter⟩, -⟩ := hf
  refine (meets_gap h (Gap.isBlank hbefore)).trans fun m hm => ?_
  rw [← List.append_nil after.text] at hm
  cases root with
  | simple => cases hc
  | string => cases hc
  | array gap elements =>
    rw [Written.fits, Bool.and_eq_true] at hroot
    exact (meets_array hroot.1 (fun _ hn => elements.meets hroot.2 true hn fun _ => rfl)
      hm).behind_gap (Gap.isBlank hafter)
  | object gap fields =>
    rw [Written.fits, Bool.and_eq_true] at hroot
    exact (meets_object hroot.1 (fun _ hn => fields.meets hroot.2 true hn fun _ => rfl)
      hm).behind_gap (Gap.isBlank hafter)

/-! A text that fits is read as it is: nothing in it is refused, and no line end is changed. -/

/-- Characters that are allowed, no carriage return among them. -/
def IsClean (t : Text) : Prop := ∀ c ∈ t, isAllowed c = true ∧ c ≠ '\r'

theorem isClean_append : IsClean (s ++ t) ↔ IsClean s ∧ IsClean t := List.forall_mem_append

theorem isClean_of_inline (h : ∀ c ∈ t, IsInline c) : IsClean t := fun c hc =>
  ⟨(h c hc).1, (h c hc).2.2⟩

theorem isClean_visible
    (h : (t.all fun c => decide (0x20 ≤ c.toNat) && decide (c.toNat ≤ 0x7e)) = true) :
    IsClean t := by
  apply isClean_of_inline
  intro c hc
  have hv := List.all_eq_true.1 h c hc
  simp only [Bool.and_eq_true, decide_eq_true_eq] at hv
  exact isInline_of_visible hv.1 hv.2

theorem Gap.isClean (h : gap.fits = true) : IsClean gap.text := by
  intro c hc
  rcases Gap.isBlank h c hc with rfl | rfl | rfl <;> decide

theorem isVisible_of_isPlain (h : Plain.isPlain c = true) : 0x20 ≤ c.toNat ∧ c.toNat ≤ 0x7e := by
  unfold Plain.isPlain Char.isAlphanum Char.isAlpha Char.isUpper Char.isLower Char.isDigit at h
  simp only [Bool.or_eq_true, Bool.and_eq_true, decide_eq_true_eq, beq_iff_eq, ge_iff_le,
    UInt32.le_iff_toNat_le] at h
  rcases h with (((((h | h) | h) | rfl) | rfl) | rfl)
  · change 65 ≤ c.toNat ∧ c.toNat ≤ 90 at h
    omega
  · change 97 ≤ c.toNat ∧ c.toNat ≤ 122 at h
    omega
  · change 48 ≤ c.toNat ∧ c.toNat ≤ 57 at h
    omega
  all_goals decide

theorem Simple.isClean (s : Simple) : IsClean s.text := by
  apply isClean_of_inline
  intro c hc
  have hv := isVisible_of_isPlain (s.isPlain c hc)
  exact isInline_of_visible hv.1 hv.2

theorem Name.isClean {name : Name} (h : name.fits = true) : IsClean name.text := by
  simp only [Name.fits, Bool.and_eq_true] at h
  obtain ⟨⟨⟨hbefore, hliteral⟩, hafter⟩, -⟩ := h
  rw [Name.text, isClean_append, isClean_append, isClean_append]
  refine ⟨Gap.isClean hbefore, isClean_of_inline (Quoted.isInline_literal hliteral), ?_,
    isClean_visible (by decide)⟩
  intro c hc
  have hb : c = ' ' ∨ c = '\t' := by simpa using List.all_eq_true.1 hafter c hc
  rcases hb with rfl | rfl <;> decide

theorem isClean_comma (first : Bool) : IsClean (comma first) := by
  cases first <;> exact isClean_visible (by decide)

mutual

theorem Written.isClean (w : Written) (hf : w.fits = true) : IsClean w.text :=
  match w with
  | .simple s => s.isClean
  | .string _ => isClean_of_inline (Quoted.isInline_literal hf)
  | .array gap elements => by
    rw [Written.fits, Bool.and_eq_true] at hf
    rw [Written.text, ← List.singleton_append, isClean_append, isClean_append, isClean_append]
    exact ⟨isClean_visible (by decide), Gap.isClean hf.1, elements.isClean hf.2 true,
      isClean_visible (by decide)⟩
  | .object gap fields => by
    rw [Written.fits, Bool.and_eq_true] at hf
    rw [Written.text, ← List.singleton_append, isClean_append, isClean_append, isClean_append]
    exact ⟨isClean_visible (by decide), Gap.isClean hf.1, fields.isClean hf.2 true,
      isClean_visible (by decide)⟩

theorem Elements.isClean (elements : Elements) (hf : elements.fits = true) (first : Bool) :
    IsClean (elements.text first) :=
  match elements with
  | .nil => isClean_visible rfl
  | .cons before w after more => by
    simp only [Elements.fits, Bool.and_eq_true] at hf
    obtain ⟨⟨⟨hbefore, hw⟩, hafter⟩, hmore⟩ := hf
    rw [Elements.text, isClean_append, isClean_append, isClean_append, isClean_append]
    exact ⟨isClean_comma first, Gap.isClean hbefore, w.isClean hw, Gap.isClean hafter,
      more.isClean hmore false⟩

theorem Fields.isClean (fields : Fields) (hf : fields.fits = true) (first : Bool) :
    IsClean (fields.text first) :=
  match fields with
  | .nil => isClean_visible rfl
  | .cons name before w after more => by
    simp only [Fields.fits, Bool.and_eq_true] at hf
    obtain ⟨⟨⟨⟨hname, hbefore⟩, hw⟩, hafter⟩, hmore⟩ := hf
    rw [Fields.text, isClean_append, isClean_append, isClean_append, isClean_append, isClean_append]
    exact ⟨isClean_comma first, Name.isClean hname, Gap.isClean hbefore, w.isClean hw,
      Gap.isClean hafter, more.isClean hmore false⟩

end

/-- A text that fits holds no character that may not stand in a document. -/
theorem Whole.isClean {deepest : Nat} (w : Whole) (hf : w.fits deepest = true) : IsClean w.text := by
  simp only [Whole.fits, Bool.and_eq_true] at hf
  rw [Whole.text, isClean_append, isClean_append]
  exact ⟨Gap.isClean hf.1.1.1, w.root.isClean hf.1.1.2, Gap.isClean hf.1.2⟩

theorem unprintable?_of_isClean (deepest : Nat) (h : IsClean t) : unprintable? deepest t = none := by
  have hn : t.find? (!isAllowed ·) = none := by
    apply List.find?_eq_none.2
    intro c hc
    simp [(h c hc).1]
  rw [unprintable?, hn]
  rfl

theorem unifyLines_of_isClean (h : IsClean t) : unifyLines t = t := by
  induction t with
  | nil => rfl
  | cons c t ih =>
    rw [IsClean, List.forall_mem_cons] at h
    rw [unifyLines, ih h.2]
    · rintro _ rfl -
      exact h.1.2 rfl
    · rintro rfl
      exact h.1.2 rfl

end KeywordSieve.Json
