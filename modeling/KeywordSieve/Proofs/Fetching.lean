import Mathlib.Data.List.ReduceOption
import KeywordSieve.Proofs.Forms

/-!
The lexer inside flow collections. No key is required there, so stale keys are given up silently.
The next token is the one that begins behind the gap, and its first character says which.
-/
namespace KeywordSieve.Yaml.Lexer

open Text Cursor

variable {l l' m n : Lexer} {c : Char} {front t t' : Text} {depth depth' : Nat}
  {kinds kinds' : List Token.Kind} {fresh fresh' : Bool}

structure Begins (c : Char) : Prop where
  notBreak : isBreak c = false
  notSpace : c ≠ ' '
  notComment : c ≠ '#'
  notMark : c ≠ byteOrderMark

theorem blanks_gap (hg : IsGap front) (ht : ∀ c ∈ t.head?, Begins c) (inFlow fresh : Bool)
    (m : Mark) : ∃ fresh', (fresh = true → fresh' = true) ∧
      blanks inFlow false fresh m (front ++ t) = (fresh', ⟨t, m.pass front⟩) := by
  induction front generalizing m fresh with
  | nil =>
    refine ⟨fresh, id, ?_⟩
    cases t with
    | nil => rfl
    | cons c t =>
      have hc := ht c rfl
      simp [blanks, hc.notBreak, hc.notSpace, hc.notComment]
  | cons c front ih =>
    rw [IsGap, List.forall_mem_cons] at hg
    rcases hg.1 with rfl | rfl
    · obtain ⟨fresh', hf, he⟩ := ih hg.2 fresh (m.past ' ')
      exact ⟨fresh', hf, he⟩
    · obtain ⟨fresh', hf, he⟩ := ih hg.2 (fresh || !inFlow) (m.past '\n')
      exact ⟨fresh', fun h => hf (by simp [h]), he⟩

theorem skipBlanks_eq (h : l.cursor.ahead = front ++ t) (hg : IsGap front)
    (ht : ∀ c ∈ t.head?, Begins c) : ∃ fresh, (l.keyAllowed = true → fresh = true) ∧
      l.skipBlanks = { l with keyAllowed := fresh, cursor := ⟨t, l.mark.pass front⟩ } := by
  have hm : l.cursor.head? ≠ some byteOrderMark := by
    rw [head?, h]
    cases front with
    | nil => exact fun hm => (ht _ hm).notMark rfl
    | cons c front =>
      rw [IsGap, List.forall_mem_cons] at hg
      intro hc
      cases hc
      rcases hg.1 with hc | hc <;> exact absurd hc (by decide)
  obtain ⟨fresh, hf, he⟩ := blanks_gap hg ht l.inFlow l.keyAllowed l.mark
  refine ⟨fresh, hf, ?_⟩
  rw [skipBlanks, if_neg (fun hn => hm hn.2), h]
  dsimp only
  rw [← mark, he]

/-- All possible keys may be given up. -/
def Optional (l : Lexer) : Prop := ∀ k, some k ∈ l.key :: l.outerKeys → k.required = false

/-- The lexer without the possible keys that have gone stale. -/
def shed (l : Lexer) : Lexer :=
  { l with
    key := l.key.filter (!l.isStale ·)
    outerKeys := l.outerKeys.map (Option.filter (!l.isStale ·)) }

theorem dropStale_eq (h : l.Optional) : l.dropStale = .ok l.shed := by
  have hn : ((l.key :: l.outerKeys).reduceOption.find? fun k => l.isStale k && k.required) =
      none := by
    apply List.find?_eq_none.2
    intro k hk
    simp [h k (List.reduceOption_mem_iff.1 hk)]
  simp only [dropStale, hn, shed]

theorem dropKey_eq (h : l.Optional) : l.dropKey = .ok { l with key := none } := by
  unfold dropKey
  split
  · next k hk =>
    rw [if_neg]
    simp [h k (by simp [hk])]
  · next hk => rw [← hk]

theorem Optional.shed (h : l.Optional) : l.shed.Optional := by
  intro k hk
  rcases List.mem_cons.1 hk with hk | hk
  · exact h k (List.mem_cons.2 (Or.inl (Option.filter_eq_some_iff.1 hk.symm).1.symm))
  · obtain ⟨o, ho, hk⟩ := List.mem_map.1 hk
    rw [(Option.filter_eq_some_iff.1 hk).1] at ho
    exact h k (List.mem_cons_of_mem _ ho)

/-- The lexer is inside some flow collections, and no block begins or ends. -/
structure Inside (l : Lexer) (depth : Nat) : Prop where
  depth : l.outerKeys.length = depth
  optional : l.Optional
  indent : l.indent = -1
  indents : l.indents = []
  finished : l.finished = false
  barrier : l.barrier = none

theorem Inside.shed (h : Inside l depth) : Inside l.shed depth :=
  { h with
    depth := (List.length_map _).trans h.depth
    optional := h.optional.shed }

theorem Inside.unwind_eq (h : Inside l depth) (column : Int) : l.unwind column = l := by
  rw [unwind, h.indents]
  split <;> rfl

theorem Inside.inFlow (h : Inside l depth) (hd : 0 < depth) : l.inFlow = true := by
  rw [Lexer.inFlow, Bool.not_eq_true', List.isEmpty_eq_false_iff, ← List.length_pos_iff, h.depth]
  exact hd

/-- The lexer when a gap has been passed, and the keys have been given up that went stale in it. -/
def behind (l : Lexer) (front t : Text) (fresh : Bool) : Lexer :=
  shed { l with keyAllowed := fresh, cursor := ⟨t, l.mark.pass front⟩ }

theorem Inside.behind (h : Inside l depth) (front t : Text) (fresh : Bool) :
    Inside (l.behind front t fresh) depth :=
  Inside.shed { h with }

def choose (l : Lexer) : Except Failure Lexer :=
  let after := l.cursor.second?
  let indicates := l.inFlow || endsWord after
  let atMarker := l.mark.column == 0 && l.cursor.atDocumentMarker
  match l.cursor.head? with
  | none => l.streamEnd
  | some c =>
    if c = '%' ∧ l.mark.column = 0 then l.directive
    else if c = '-' ∧ atMarker then l.documentMarker .documentStart
    else if c = '.' ∧ atMarker then l.documentMarker .documentEnd
    else if c = '[' then l.flowStart .flowSequenceStart
    else if c = '\x7b' then l.flowStart .flowMappingStart
    else if c = ']' then l.flowEnd .flowSequenceEnd
    else if c = '\x7d' then l.flowEnd .flowMappingEnd
    else if c = ',' then l.flowEntry
    else if c = '-' ∧ endsWord after then l.blockEntry
    else if c = '?' ∧ indicates then l.explicitKey
    else if c = ':' ∧ indicates then l.value
    else if c = '|' ∧ !l.inFlow then l.blockScalar false
    else if c = '>' ∧ !l.inFlow then l.blockScalar true
    else if c = '\'' then l.quotedScalar false
    else if c = '"' then l.quotedScalar true
    else if beginsPlain l.inFlow c after then l.plainScalar
    else .error (refusal c l.mark)

theorem fetch_eq : l.fetch = l.skipBlanks.dropStale >>= fun l => (l.unwind l.mark.column).choose :=
  rfl

/-- The next token is read behind the gap. -/
theorem fetch_behind (h : Inside l depth) (ha : l.cursor.ahead = front ++ t) (hg : IsGap front)
    (ht : ∀ c ∈ t.head?, Begins c) : ∃ fresh, (l.keyAllowed = true → fresh = true) ∧
      l.fetch = (l.behind front t fresh).choose := by
  obtain ⟨fresh, hf, hs⟩ := skipBlanks_eq ha hg ht
  have ho : Optional { l with keyAllowed := fresh, cursor := ⟨t, l.mark.pass front⟩ } := h.optional
  refine ⟨fresh, hf, ?_⟩
  rw [fetch_eq, hs, dropStale_eq ho]
  exact congrArg choose ((h.behind front t fresh).unwind_eq _)

/-! What the lexer makes of the token that begins here. -/

/-- The lexer with the next token as a possible key, if one is allowed here. -/
def offered (l : Lexer) : Lexer :=
  if l.keyAllowed then { l with key := some ⟨l.taken + l.queue.length, false, l.mark⟩ } else l

theorem offerKey_eq (h : Inside l depth) : l.offerKey = .ok l.offered := by
  rw [offerKey, offered]
  split
  · have hr : (!l.inFlow && l.indent == (l.mark.column : Int)) = false := by
      have hne : ((-1 : Int) == (l.mark.column : Int)) = false := by
        rw [beq_eq_false_iff_ne]
        omega
      rw [h.indent, hne, Bool.and_false]
    rw [hr, dropKey_eq h.optional]
    rfl
  · rfl

theorem Inside.offered (h : Inside l depth) : Inside l.offered depth := by
  unfold Lexer.offered
  split
  · refine { h with optional := ?_ }
    intro k hk
    rcases List.mem_cons.1 hk with hk | hk
    · cases hk
      rfl
    · exact h.optional k (List.mem_cons_of_mem _ hk)
  · exact h

@[simp] theorem offered_queue (l : Lexer) : l.offered.queue = l.queue := by
  unfold offered
  split <;> rfl

@[simp] theorem offered_cursor (l : Lexer) : l.offered.cursor = l.cursor := by
  unfold offered
  split <;> rfl

theorem offered_mark (l : Lexer) : l.offered.mark = l.mark := congrArg Cursor.mark (offered_cursor l)

/-- What begins here is read as tokens of some kinds, and a text is ahead then. -/
structure Yields (l m : Lexer) (t : Text) (depth : Nat) (kinds : List Token.Kind) : Prop where
  inside : Inside m depth
  ahead : m.cursor.ahead = t
  queue : m.queue.map Token.kind = l.queue.map Token.kind ++ kinds

theorem yields_pushFixed (h : Inside m depth) (ha : m.cursor.ahead = c :: t)
    (hq : m.queue = l.queue) (kind : Token.Kind) : Yields l (m.pushFixed 1 kind) t depth [kind] := by
  refine ⟨{ h with }, ?_, ?_⟩
  · obtain ⟨⟨ahead, mark⟩, _⟩ := m
    cases ha
    rfl
  · simp [pushFixed, push, hq]

theorem flowStart_yields (h : Inside l depth) (ha : l.cursor.ahead = c :: t) (kind : Token.Kind) :
    ∃ m, l.flowStart kind = .ok m ∧ Yields l m t (depth + 1) [kind] ∧ m.keyAllowed = true := by
  have ho := h.offered
  rw [flowStart, offerKey_eq h]
  refine ⟨_, rfl, yields_pushFixed (c := c) ?_ ?_ ?_ kind, rfl⟩
  · refine { ho with depth := congrArg Nat.succ ho.depth, optional := ?_ }
    intro k hk
    rcases List.mem_cons.1 hk with hk | hk
    · cases hk
    · exact ho.optional k hk
  · simpa using ha
  · simp

theorem flowEnd_yields (h : Inside l (depth + 1)) (ha : l.cursor.ahead = c :: t)
    (kind : Token.Kind) : ∃ m, l.flowEnd kind = .ok m ∧ Yields l m t depth [kind] := by
  rw [flowEnd, dropKey_eq h.optional]
  refine ⟨_, rfl, yields_pushFixed (c := c) ?_ ?_ ?_ kind⟩
  rotate_left
  · exact ha
  · rfl
  obtain ⟨key, outer, hk⟩ := List.exists_cons_of_length_eq_add_one h.depth
  refine { h with depth := ?_, optional := ?_ }
  · have hd := h.depth
    rw [hk] at hd ⊢
    exact Nat.succ.inj hd
  · intro k hm
    simp only [hk, List.head?_cons, Option.join_some, List.tail_cons] at hm
    exact h.optional k (by rw [hk]; exact List.mem_cons_of_mem _ hm)

theorem flowEntry_yields (h : Inside l depth) (ha : l.cursor.ahead = c :: t) :
    ∃ m, l.flowEntry = .ok m ∧ Yields l m t depth [.flowEntry] ∧ m.keyAllowed = true := by
  have ho : Optional { l with keyAllowed := true } := h.optional
  rw [flowEntry, dropKey_eq ho]
  refine ⟨_, rfl, yields_pushFixed (c := c) ?_ ?_ ?_ _, rfl⟩
  rotate_left
  · exact ha
  · rfl
  refine { h with optional := ?_ }
  intro k hk
  rcases List.mem_cons.1 hk with hk | hk
  · cases hk
  · exact h.optional k (List.mem_cons_of_mem _ hk)

theorem plainScalar_yields {s : Text} (h : Inside l (depth + 1))
    (ha : l.cursor.ahead = s ++ (front ++ c :: t)) (hs : ∀ d ∈ s, Plain.isPlain d = true)
    (hne : s ≠ []) (hg : IsGap front) (hc : Plain.Closes c) :
    ∃ m, l.plainScalar = .ok m ∧ Yields l m (c :: t) (depth + 1) [.scalar (.plain s)] := by
  have ho := h.offered
  obtain ⟨fresh, after, hr⟩ := Plain.read_plain (t := t) hs hne hg hc (l.offered.indent + 1)
    l.mark
  have hcursor : l.offered.cursor = ⟨s ++ (front ++ c :: t), l.mark⟩ := by
    rw [offered_cursor, ← ha]
    rfl
  rw [plainScalar, offerKey_eq h]
  simp only [bind, Except.bind, ho.inFlow (Nat.succ_pos _), hcursor, hr]
  refine ⟨_, rfl, { ho with }, rfl, ?_⟩
  simp [push]

theorem quotedScalar_eq {s : Json.Literal} (h : Inside l depth)
    (ha : l.cursor.ahead = s.text ++ t) (hs : s.fits = true) :
    l.quotedScalar true = .ok
      { l.offered.push (.scalar (.verbatim s.codes)) l.mark (l.mark.pass s.text) with
        keyAllowed := false, cursor := ⟨t, l.mark.pass s.text⟩ } := by
  have hcursor : l.offered.cursor = ⟨s.text ++ t, l.mark⟩ := by
    rw [offered_cursor, ← ha]
    rfl
  have hr := Quoted.read_literal (u := t) (m := l.mark) s (List.all_eq_true.1 hs)
  rw [quotedScalar, offerKey_eq h]
  simp only [bind, Except.bind, hcursor, hr, offered_mark]
  rfl

theorem quotedScalar_yields {s : Json.Literal} (h : Inside l depth)
    (ha : l.cursor.ahead = s.text ++ t) (hs : s.fits = true) :
    ∃ m, l.quotedScalar true = .ok m ∧ Yields l m t depth [.scalar (.verbatim s.codes)] := by
  refine ⟨_, quotedScalar_eq h ha hs, { h.offered with }, rfl, ?_⟩
  simp [push]

/-! Which token begins here, by its first character. -/

theorem choose_flowStart (ha : l.cursor.ahead = '[' :: t) :
    l.choose = l.flowStart .flowSequenceStart := by
  simp [choose, head?, ha]

theorem choose_mappingStart (ha : l.cursor.ahead = '\x7b' :: t) :
    l.choose = l.flowStart .flowMappingStart := by
  simp [choose, head?, ha]

theorem choose_sequenceEnd (ha : l.cursor.ahead = ']' :: t) :
    l.choose = l.flowEnd .flowSequenceEnd := by
  simp [choose, head?, ha]

theorem choose_mappingEnd (ha : l.cursor.ahead = '\x7d' :: t) :
    l.choose = l.flowEnd .flowMappingEnd := by
  simp [choose, head?, ha]

theorem choose_comma (ha : l.cursor.ahead = ',' :: t) : l.choose = l.flowEntry := by
  simp [choose, head?, ha]

theorem choose_colon (ha : l.cursor.ahead = ':' :: t) (hf : l.inFlow = true) :
    l.choose = l.value := by
  simp [choose, head?, ha, hf]

theorem choose_quote (ha : l.cursor.ahead = '"' :: t) : l.choose = l.quotedScalar true := by
  simp [choose, head?, ha]

theorem choose_end (ha : l.cursor.ahead = []) : l.choose = l.streamEnd := by
  simp [choose, head?, ha]

theorem not_endsWord (hc : c.isAlphanum = true) : endsWord (some c) = false := by
  have hne : ∀ d, d.isAlphanum = false → c ≠ d := by
    rintro d hd rfl
    rw [hc] at hd
    cases hd
  simp [endsWord, isBreak, hne ' ' rfl, hne '\t' rfl, hne '\n' rfl, hne '\x85' rfl,
    hne '\u2028' rfl, hne '\u2029' rfl]

/-- A word begins with a letter or digit, and a number perhaps with a dash in front. -/
theorem choose_plain (ha : l.cursor.ahead = c :: t)
    (hc : c.isAlphanum = true ∨ c = '-' ∧ ∃ d ∈ t.head?, d.isDigit = true) :
    l.choose = l.plainScalar := by
  rcases hc with hc | ⟨rfl, d, hd, hdigit⟩
  · have hne : ∀ d, d.isAlphanum = false → c ≠ d := by
      rintro d hd rfl
      rw [hc] at hd
      cases hd
    have hp : beginsPlain l.inFlow c t.head? = true := by
      have hn : ("-?:,[]\x7b\x7d#&*!|>'\"%@`".toList.contains c) = false := by
        rw [← Bool.not_eq_true, List.contains_iff_mem]
        have hall : ("-?:,[]\x7b\x7d#&*!|>'\"%@`".toList.all (!Char.isAlphanum ·)) = true := by
          decide
        intro hm
        have hf := List.all_eq_true.1 hall c hm
        rw [hc] at hf
        cases hf
      rw [beginsPlain, not_endsWord hc, hn]
      rfl
    simp [choose, head?, second?, ha, hp, hne '%' rfl, hne '-' rfl, hne '.' rfl, hne '[' rfl,
      hne '\x7b' rfl, hne ']' rfl, hne '\x7d' rfl, hne ',' rfl, hne '?' rfl, hne ':' rfl,
      hne '|' rfl, hne '>' rfl, hne '\'' rfl, hne '"' rfl]
  · obtain ⟨more, rfl⟩ := List.head?_eq_some_iff.1 hd
    have hw : endsWord (some d) = false := not_endsWord (by simp [Char.isAlphanum, hdigit])
    have hdash : d ≠ '-' := by
      rintro rfl
      exact absurd hdigit (by decide)
    have hm : l.cursor.atDocumentMarker = false := by
      simp [atDocumentMarker, ha, hdash]
    have hp : beginsPlain l.inFlow '-' (some d) = true := by
      simp [beginsPlain, hw]
    simp [choose, head?, second?, ha, hm, hw, hp]

end KeywordSieve.Yaml.Lexer
