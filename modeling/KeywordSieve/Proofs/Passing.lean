import KeywordSieve.Proofs.Fetching

/-!
What a run of the lexer reads from a place inside flow collections. A step reads one token, and what
a run has read is counted together with what still waits in the queue. The name of a field waits
until its colon makes it a key.
-/
namespace KeywordSieve.Yaml.Lexer

open Text Cursor

variable {l l' m n : Lexer} {c : Char} {front t t' : Text} {depth depth' : Nat}
  {kinds kinds' : List Token.Kind} {fresh fresh' : Bool}

/-- What is left when a token has been read and those that need not wait have gone. -/
def settled (l : Lexer) : Lexer := l.shed.release.2

theorem release_queue (l : Lexer) : l.release.1 ++ l.release.2.queue = l.queue :=
  List.take_append_drop _ _

theorem Inside.settled (h : Inside l depth) : Inside l.settled depth := { h.shed with }

theorem run_step (hs : l.fetch = .ok m) (hl : l.barrier = none) (hm : Inside m depth) (fuel : Nat) :
    run (fuel + 1) l = m.shed.release.1 ++ run fuel m.settled := by
  rw [run, step, hl]
  simp only [hs, hm.finished, dropStale_eq hm.optional]
  rfl

/-- From `l` on the lexer reads tokens of some kinds, and it is `l'` then. No step reads less than a
character. -/
def Lexes (l l' : Lexer) (kinds : List Token.Kind) : Prop :=
  ∃ steps out, steps + l'.cursor.ahead.length ≤ l.cursor.ahead.length ∧
    (∀ fuel, run (fuel + steps) l = out ++ run fuel l') ∧
    (out ++ l'.queue).map Token.kind = l.queue.map Token.kind ++ kinds

theorem Lexes.refl (l : Lexer) : Lexes l l [] :=
  ⟨0, [], Nat.le_of_eq (Nat.zero_add _), fun _ => rfl, by simp⟩

theorem Lexes.trans (h : Lexes l m kinds) (h' : Lexes m n kinds') : Lexes l n (kinds ++ kinds') := by
  obtain ⟨steps, out, hlength, hrun, hqueue⟩ := h
  obtain ⟨steps', out', hlength', hrun', hqueue'⟩ := h'
  refine ⟨steps' + steps, out ++ out', by omega, ?_, ?_⟩
  · intro fuel
    rw [← Nat.add_assoc, hrun, hrun', List.append_assoc]
  · rw [List.append_assoc, List.map_append, hqueue', ← List.append_assoc, ← List.map_append,
      hqueue, List.append_assoc]

theorem lexes_of_fetch (hs : l.fetch = .ok m) (hl : l.barrier = none) (hm : Inside m depth)
    (hlength : m.cursor.ahead.length < l.cursor.ahead.length)
    (hqueue : m.queue.map Token.kind = l.queue.map Token.kind ++ kinds) :
    Lexes l m.settled kinds := by
  refine ⟨1, m.shed.release.1, ?_, run_step hs hl hm, ?_⟩
  · rw [Nat.add_comm]
    exact hlength
  · exact (congrArg _ (release_queue m.shed)).trans hqueue

/-! Reading on from a place. -/

/-- The lexer is inside some flow collections, and a text is ahead behind a gap. With `fresh` a key
may begin there. -/
structure At (l : Lexer) (t : Text) (depth : Nat) (fresh : Bool) : Prop extends
    Inside l depth where
  ahead : ∃ front, IsGap front ∧ l.cursor.ahead = front ++ t
  allowed : fresh = true → l.keyAllowed = true

theorem At.behind_gap (h : At l (front ++ t) depth fresh) (hg : IsGap front) :
    At l t depth fresh := by
  obtain ⟨before, hb, ha⟩ := h.ahead
  refine { h with ahead := ⟨before ++ front, ?_, by rw [ha, List.append_assoc]⟩ }
  intro c hc
  exact (List.mem_append.1 hc).elim (hb c) (hg c)

/-- From here on tokens of some kinds are read, up to a text that is ahead then. -/
def Passes (l : Lexer) (t : Text) (depth : Nat) (fresh : Bool) (kinds : List Token.Kind) : Prop :=
  ∃ m, Lexes l m kinds ∧ At m t depth fresh

/-- Two parts that are passed one after the other are passed as one. -/
theorem Passes.trans (h : Passes l t depth fresh kinds)
    (hmore : ∀ m, At m t depth fresh → Passes m t' depth' fresh' kinds') :
    Passes l t' depth' fresh' (kinds ++ kinds') := by
  obtain ⟨m, hm, ha⟩ := h
  obtain ⟨n, hn, hb⟩ := hmore m ha
  exact ⟨n, hm.trans hn, hb⟩

/-- A token that is read where it begins is read behind a gap. -/
theorem At.passes (h : At l (c :: t) depth fresh) (hc : Begins c)
    (hlength : t'.length < (c :: t).length)
    (hread : ∀ n, Inside n depth → n.cursor.ahead = c :: t → ∃ m, n.choose = .ok m ∧
      Yields n m t' depth' kinds ∧ (fresh' = true → m.keyAllowed = true)) :
    Passes l t' depth' fresh' kinds := by
  obtain ⟨front, hg, ha⟩ := h.ahead
  obtain ⟨allowed, -, hfetch⟩ := fetch_behind h.toInside ha hg (by simpa using hc)
  obtain ⟨m, hm, hy, hk⟩ := hread _ (h.toInside.behind front (c :: t) allowed) rfl
  rw [hm] at hfetch
  refine ⟨m.settled, lexes_of_fetch hfetch h.barrier hy.inside ?_ hy.queue, hy.inside.settled,
    ⟨[], by simp [IsGap], hy.ahead⟩, hk⟩
  rw [hy.ahead, ha, List.length_append]
  omega

theorem begins_of_mem (hc : c ∈ ['[', ']', '\x7b', '\x7d', ',', ':', '"']) : Begins c := by
  simp only [List.mem_cons, List.not_mem_nil, or_false] at hc
  rcases hc with rfl | rfl | rfl | rfl | rfl | rfl | rfl <;>
    exact ⟨by decide, by decide, by decide, by decide⟩

theorem passes_sequenceStart (h : At l ('[' :: t) depth fresh) :
    Passes l t (depth + 1) true [.flowSequenceStart] := by
  apply h.passes (begins_of_mem (by simp)) (by simp)
  intro n hn ha
  rw [choose_flowStart ha]
  obtain ⟨m, hm, hy, hk⟩ := flowStart_yields hn ha .flowSequenceStart
  exact ⟨m, hm, hy, fun _ => hk⟩

theorem passes_mappingStart (h : At l ('\x7b' :: t) depth fresh) :
    Passes l t (depth + 1) true [.flowMappingStart] := by
  apply h.passes (begins_of_mem (by simp)) (by simp)
  intro n hn ha
  rw [choose_mappingStart ha]
  obtain ⟨m, hm, hy, hk⟩ := flowStart_yields hn ha .flowMappingStart
  exact ⟨m, hm, hy, fun _ => hk⟩

theorem passes_sequenceEnd (h : At l (']' :: t) (depth + 1) fresh) :
    Passes l t depth false [.flowSequenceEnd] := by
  apply h.passes (begins_of_mem (by simp)) (by simp)
  intro n hn ha
  rw [choose_sequenceEnd ha]
  obtain ⟨m, hm, hy⟩ := flowEnd_yields hn ha .flowSequenceEnd
  exact ⟨m, hm, hy, nofun⟩

theorem passes_mappingEnd (h : At l ('\x7d' :: t) (depth + 1) fresh) :
    Passes l t depth false [.flowMappingEnd] := by
  apply h.passes (begins_of_mem (by simp)) (by simp)
  intro n hn ha
  rw [choose_mappingEnd ha]
  obtain ⟨m, hm, hy⟩ := flowEnd_yields hn ha .flowMappingEnd
  exact ⟨m, hm, hy, nofun⟩

theorem passes_comma (h : At l (',' :: t) depth fresh) : Passes l t depth true [.flowEntry] := by
  apply h.passes (begins_of_mem (by simp)) (by simp)
  intro n hn ha
  rw [choose_comma ha]
  obtain ⟨m, hm, hy, hk⟩ := flowEntry_yields hn ha
  exact ⟨m, hm, hy, fun _ => hk⟩

theorem passes_literal {s : Json.Literal} (h : At l (s.text ++ t) depth fresh)
    (hs : s.fits = true) : Passes l t depth false [.scalar (.verbatim s.codes)] := by
  apply At.passes (c := '"') h (begins_of_mem (by simp)) (by simp; omega)
  intro n hn ha
  rw [choose_quote ha]
  obtain ⟨m, hm, hy⟩ := quotedScalar_yields hn ha hs
  exact ⟨m, hm, hy, nofun⟩

theorem begins_of_isPlain (hc : Plain.isPlain c = true) : Begins c := by
  have hne : ∀ d, Plain.isPlain d = false → c ≠ d := by
    rintro d hd rfl
    rw [hc] at hd
    cases hd
  refine ⟨?_, hne _ (by decide), hne _ (by decide), hne _ (by decide)⟩
  simp [isBreak, hne '\n' rfl, hne '\x85' rfl, hne '\u2028' rfl, hne '\u2029' rfl]

/-- A word or number is read with the gap behind it. -/
theorem passes_simple {s : Json.Simple} {d : Char}
    (h : At l (s.text ++ (front ++ d :: t)) (depth + 1) fresh) (hg : IsGap front)
    (hd : Plain.Closes d) : Passes l (d :: t) (depth + 1) false [.scalar (.plain s.text)] := by
  obtain ⟨c, more, hs, hc⟩ := s.exists_cons
  have hp := s.isPlain
  rw [hs] at h hp ⊢
  have hhead : c.isAlphanum = true ∨
      c = '-' ∧ ∃ d' ∈ (more ++ (front ++ d :: t)).head?, d'.isDigit = true := by
    refine hc.imp_right fun ⟨hdash, d', hd', hdigit⟩ => ⟨hdash, d', ?_, hdigit⟩
    obtain ⟨rest, rfl⟩ := List.head?_eq_some_iff.1 hd'
    rfl
  apply At.passes (c := c) h (begins_of_isPlain (hp c (by simp))) (by simp; omega)
  intro n hn ha
  rw [choose_plain ha hhead]
  obtain ⟨m, hm, hy⟩ := plainScalar_yields hn ha hp (by simp) hg hd
  exact ⟨m, hm, hy, nofun⟩

/-! The name of a field is a possible key until its colon makes it one. -/

theorem insertIdx_append {α : Type} (xs ys : List α) (a : α) :
    (xs ++ ys).insertIdx xs.length a = xs ++ a :: ys := by
  induction xs with
  | nil => rfl
  | cons x xs ih => simp [ih]

/-- No more tokens leave the queue than stand in front of a possible key. -/
theorem release_key {k : PossibleKey} (hk : l.key = some k) : ∃ count ≤ k.number - l.taken,
    l.release = (l.queue.take count,
      { l with queue := l.queue.drop count, taken := l.taken + count }) := by
  have hm : k.number ∈ (l.key :: l.outerKeys).reduceOption.map (·.number) := by
    rw [hk, List.reduceOption_cons_of_some]
    exact List.mem_cons_self
  cases hf : l.firstPossibleKey with
  | none =>
    rw [firstPossibleKey, List.min?_eq_none_iff] at hf
    rw [hf] at hm
    cases hm
  | some number =>
    have hle := (List.min?_eq_some_iff.1 hf).2 k.number hm
    refine ⟨number - l.taken, by omega, ?_⟩
    simp only [release, hf]

/-- The name of a field is the last token of the queue, and a possible key, behind those that are
`waiting`. -/
structure Named (l : Lexer) (start : Mark) (waiting : List Token) (name : Token) : Prop where
  queue : l.queue = waiting ++ [name]
  key : l.key = some ⟨l.taken + waiting.length, false, start⟩

/-- A key on the line of its colon is not stale, if it is not too long. -/
theorem not_isStale {k : PossibleKey} {u : Text} (hm : l.mark = k.mark.pass u)
    (hu : ∀ c ∈ u, isBreak c = false) (hlength : u.length ≤ 1024) : l.isStale k = false := by
  have hindex : ¬ 1024 + k.mark.index < k.mark.index + u.length := by omega
  rw [isStale, hm, Mark.line_pass hu, Mark.index_pass]
  simp [hindex]

theorem Named.shed {start : Mark} {waiting : List Token} {name : Token} {u : Text}
    (h : Named l start waiting name) (hm : l.mark = start.pass u)
    (hu : ∀ c ∈ u, isBreak c = false) (hlength : u.length ≤ 1024) :
    Named l.shed start waiting name := by
  refine ⟨h.queue, ?_⟩
  have hs : l.isStale ⟨l.taken + waiting.length, false, start⟩ = false := not_isStale hm hu hlength
  simp only [Lexer.shed, h.key, Option.filter, hs]
  rfl

theorem Named.release {start : Mark} {waiting : List Token} {name : Token}
    (h : Named l start waiting name) :
    ∃ waiting', l.release.1 ++ waiting' = waiting ∧ Named l.release.2 start waiting' name := by
  obtain ⟨count, hc, hr⟩ := release_key h.key
  rw [Nat.add_sub_cancel_left] at hc
  refine ⟨waiting.drop count, ?_, ?_, ?_⟩
  · rw [hr, h.queue, List.take_append_of_le_length hc, List.take_append_drop]
  · rw [hr]
    simp only [h.queue, List.drop_append_of_le_length hc]
  · rw [hr]
    simp only [h.key, List.length_drop]
    congr 2
    omega

/-- A colon puts the mark of a key in front of the name. -/
theorem Named.colon {start : Mark} {waiting : List Token} {name : Token}
    (h : Named l start waiting name) (hl : Inside l (depth + 1)) (ha : l.cursor.ahead = ':' :: t) :
    ∃ m, l.choose = .ok m ∧ Inside m (depth + 1) ∧ m.cursor.ahead = t ∧
      m.queue.map Token.kind = waiting.map Token.kind ++ [.key, name.kind, .value] := by
  have hf := hl.inFlow (Nat.succ_pos _)
  let q := ({ l with key := none, keyAllowed := false } : Lexer).insertAt
    (l.taken + waiting.length) .key start
  have hq : Inside q (depth + 1) := by
    refine { hl with optional := ?_ }
    intro k hk
    rcases List.mem_cons.1 hk with hk | hk
    · cases hk
    · exact hl.optional k (List.mem_cons_of_mem _ hk)
  have hqueue : q.queue.map Token.kind = waiting.map Token.kind ++ [.key, name.kind] := by
    have hi : q.queue = waiting ++ ⟨.key, start, start⟩ :: [name] := by
      rw [← insertIdx_append, ← h.queue]
      exact congrArg (l.queue.insertIdx · _) (Nat.add_sub_cancel_left _ _)
    simp [hi]
  have hy := yields_pushFixed hq (show q.cursor.ahead = ':' :: t from ha) rfl .value
  refine ⟨q.pushFixed 1 .value, ?_, hy.inside, hy.ahead, ?_⟩
  · rw [choose_colon ha hf, value, h.key]
    dsimp only
    split
    · next deeper hdeeper =>
      have hqf : q.inFlow = true := hf
      cases (if_pos hqf).symm.trans hdeeper
    · rfl
  · rw [hy.queue, hqueue, List.append_assoc]
    rfl

/-- The name of a field, behind which its colon may come. -/
theorem choose_name {s : Json.Literal} (h : Inside l depth) (hk : l.keyAllowed = true)
    (ha : l.cursor.ahead = s.text ++ t) (hs : s.fits = true) :
    ∃ m name, l.choose = .ok m ∧ Inside m depth ∧ m.cursor = ⟨t, l.mark.pass s.text⟩ ∧
      name.kind = .scalar (.verbatim s.codes) ∧ Named m l.mark l.queue name := by
  have hc : l.cursor.ahead = '"' :: (s.inside ++ ['"'] ++ t) := ha
  rw [choose_quote hc, quotedScalar_eq h ha hs]
  refine ⟨_, ⟨_, l.mark, l.mark.pass s.text⟩, rfl, { h.offered with }, rfl, rfl, ?_, ?_⟩
  · simp [push]
  · simp only [push, offered, hk, if_true]

/-- The name of a field is read as a possible key, and none of the tokens that leave the queue is
that name. -/
theorem exists_named {s : Json.Literal} (h : At l (s.text ++ t) (depth + 1) true)
    (hs : s.fits = true) (hlength : s.text.length ≤ 1024) :
    ∃ m start waiting name, l.fetch = .ok m ∧ Inside m (depth + 1) ∧
      m.cursor = ⟨t, start.pass s.text⟩ ∧ name.kind = .scalar (.verbatim s.codes) ∧
      m.shed.release.1 ++ waiting = l.queue ∧ Named m.settled start waiting name := by
  obtain ⟨front, hf, ha⟩ := h.ahead
  have hb : ∀ c ∈ s.text, isBreak c = false := fun c hc => (Quoted.isInline_literal hs c hc).2.1
  obtain ⟨allowed, hallowed, hfetch⟩ := fetch_behind h.toInside ha hf (by
    intro c hc
    cases hc
    exact begins_of_mem (by simp))
  obtain ⟨m, name, hm, hinside, hcursor, hkind, hnamed⟩ :=
    choose_name (h.toInside.behind front (s.text ++ t) allowed) (hallowed (h.allowed rfl)) rfl hs
  have hmark : m.mark = (l.mark.pass front).pass s.text := congrArg Cursor.mark hcursor
  obtain ⟨waiting, hout, hwait⟩ := (hnamed.shed hmark hb hlength).release
  exact ⟨m, _, waiting, name, hfetch.trans hm, hinside, hcursor, hkind, hout, hwait⟩

/-- A name and its colon are read, and the mark of a key is put in front. -/
theorem passes_key {s : Json.Literal} {gap : Text}
    (h : At l (s.text ++ (gap ++ ':' :: t)) (depth + 1) true) (hs : s.fits = true)
    (hg : ∀ c ∈ gap, c = ' ') (hlength : s.text.length + gap.length ≤ 1024) :
    Passes l t (depth + 1) false [.key, .scalar (.verbatim s.codes), .value] := by
  have hb : ∀ c ∈ s.text, isBreak c = false := fun c hc => (Quoted.isInline_literal hs c hc).2.1
  have hgap : ∀ c ∈ gap, isBreak c = false := by
    intro c hc
    rw [hg c hc]
    rfl
  obtain ⟨m, start, waiting, name, hfetch, hinside, hcursor, hkind, hout, hwait⟩ :=
    exists_named h hs (by omega)
  -- the name is still a possible key when the colon is there
  obtain ⟨allowed', -, hfetch'⟩ := fetch_behind (t := ':' :: t) hinside.settled
    (congrArg Cursor.ahead hcursor) (fun c hc => Or.inl (hg c hc)) (by
      intro c hc
      cases hc
      exact begins_of_mem (by simp))
  have hmark' : (m.settled.behind gap (':' :: t) allowed').mark = start.pass (s.text ++ gap) := by
    have hmark : m.mark = start.pass s.text := congrArg Cursor.mark hcursor
    rw [Mark.pass_append, ← hmark]
    rfl
  have hstill : Named (m.settled.behind gap (':' :: t) allowed') start waiting name :=
    Named.shed ⟨hwait.queue, hwait.key⟩ hmark' (List.forall_mem_append.2 ⟨hb, hgap⟩)
      (by rw [List.length_append]; exact hlength)
  obtain ⟨m', hm', hinside', hahead', hqueue'⟩ :=
    hstill.colon (hinside.settled.behind gap (':' :: t) allowed') rfl
  rw [hm'] at hfetch'
  refine ⟨m'.settled, ⟨2, m.shed.release.1 ++ m'.shed.release.1, ?_, ?_, ?_⟩, hinside'.settled,
    ⟨[], by simp [IsGap], hahead'⟩, nofun⟩
  · obtain ⟨front, -, ha⟩ := h.ahead
    have hlast : m'.settled.cursor.ahead = t := hahead'
    have htwo : 2 ≤ s.text.length := by simp [Json.Literal.text]
    rw [hlast, ha]
    simp only [List.length_append, List.length_cons]
    omega
  · intro fuel
    rw [run_step hfetch h.barrier hinside, run_step hfetch' hinside.settled.barrier hinside',
      List.append_assoc]
  · have hrest : m'.shed.release.1 ++ m'.settled.queue = m'.queue := release_queue m'.shed
    rw [List.append_assoc, hrest, List.map_append, hqueue', ← List.append_assoc, ← List.map_append,
      hout, hkind]

/-! The end of the text. -/

theorem streamEnd_eq (h : Inside l 0) : ∃ m last, l.streamEnd = .ok m ∧ m.finished = true ∧
    m.queue = l.queue ++ [last] ∧ last.kind = .streamEnd := by
  rw [streamEnd, close, h.unwind_eq, dropKey_eq h.optional]
  exact ⟨_, _, rfl, rfl, rfl, rfl⟩

/-- At the end of the text the queue is emptied behind the last token. -/
theorem run_end (h : At l [] 0 fresh) (fuel : Nat) : ∃ last,
    run (fuel + 1) l = l.queue ++ [last] ∧ last.kind = .streamEnd := by
  obtain ⟨front, hg, ha⟩ := h.ahead
  obtain ⟨allowed, -, hfetch⟩ := fetch_behind h.toInside ha hg (by simp)
  obtain ⟨m, last, hm, hfinished, hqueue, hlast⟩ :=
    streamEnd_eq (h.toInside.behind front [] allowed)
  rw [choose_end rfl, hm] at hfetch
  refine ⟨last, ?_, hlast⟩
  rw [run, step, h.barrier]
  simp only [hfetch, hfinished, if_true]
  exact hqueue

theorem at_start (t : Text) : At { cursor := ⟨t, {}⟩, taken := 1 } t 0 true := by
  refine ⟨⟨rfl, ?_, rfl, rfl, rfl, rfl⟩, ⟨[], by simp [IsGap], rfl⟩, fun _ => rfl⟩
  intro k hk
  rcases List.mem_cons.1 hk with hk | hk <;> cases hk

/-- The tokens of a whole text, if from its beginning tokens are read up to its end. -/
theorem exists_tokens (h : ∀ l, At l t 0 true → Passes l [] 0 false kinds) :
    ∃ ts, tokens t = ⟨.streamStart, {}, {}⟩ :: ts ∧ ts.map Token.kind = kinds ++ [.streamEnd] := by
  obtain ⟨m, ⟨steps, out, hlength, hrun, hqueue⟩, hm⟩ := h _ (at_start t)
  have hfuel : t.length + 1 = (t.length - steps + 1) + steps := by
    have hsteps : steps + m.cursor.ahead.length ≤ t.length := hlength
    omega
  obtain ⟨last, hend, hlast⟩ := run_end hm (t.length - steps)
  refine ⟨out ++ (m.queue ++ [last]), ?_, ?_⟩
  · rw [tokens, tokensBefore, hfuel, hrun, hend]
  · rw [← List.append_assoc, List.map_append, hqueue]
    simp [hlast]

end KeywordSieve.Yaml.Lexer
