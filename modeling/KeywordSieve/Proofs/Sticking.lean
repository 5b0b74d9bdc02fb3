import KeywordSieve.Proofs.Passing

/-!
Where the lexer sticks. White space of JSON may hold tabs, but no token of YAML begins with one. So a
tab in front of a token ends the reading, and what has been given out by then is the beginning of the
tokens of the text.
-/
namespace KeywordSieve.Json

theorem Piece.tab_not_mem (p : Piece) : '\t' ∉ p.text := by
  cases p with
  | plain c h =>
    rw [Piece.text, List.mem_singleton]
    rintro rfl
    exact absurd h.2.2 (by decide)
  | letter e c h =>
    have he : '\t' ≠ e := by
      rintro rfl
      cases h
    simp [Piece.text, he]
  | code a b c d n h =>
    have hdigit : ∀ {e n}, Text.hexValue? e = some n → '\t' ≠ e := by
      rintro e n he rfl
      cases he
    obtain ⟨i, j, k, l, ha, hb, hc, hd, -⟩ := Yaml.Quoted.exists_hexValues h
    simp [Piece.text, hdigit ha, hdigit hb, hdigit hc, hdigit hd]

theorem Literal.tab_not_mem (l : Literal) : '\t' ∉ l.text := by
  have hp : '\t' ∉ l.inside := by
    rw [Literal.inside, List.mem_flatMap]
    rintro ⟨p, -, hp⟩
    exact p.tab_not_mem hp
  simp [Literal.text, hp]

theorem Simple.tab_not_mem (s : Simple) : '\t' ∉ s.text := fun h =>
  absurd (s.isPlain _ h) (by decide)

end KeywordSieve.Json

namespace KeywordSieve.Yaml.Lexer

open Text Cursor

variable {l m : Lexer} {t t' part part' gap : Text} {d : Char} {depth depth' : Nat}
  {fresh fresh' : Bool} {kinds kinds' : List Token.Kind}

/-- What is wrong with a tab in front of a token. -/
def tabbed (mark : Mark) : Failure := refusal '\t' mark

theorem begins_tab : Begins '\t' := ⟨by decide, by decide, by decide, by decide⟩

theorem choose_tab (ha : l.cursor.ahead = '\t' :: t) : l.choose = .error (tabbed l.mark) := by
  simp [choose, head?, ha, beginsPlain, endsWord, tabbed]

/-- Nothing is read beyond a tab in front of a token. -/
theorem run_tab (h : At l ('\t' :: t) depth fresh) : ∃ last mark, last.kind = .broken (tabbed mark) ∧
    ∀ fuel, run (fuel + 1) l = [last] := by
  obtain ⟨front, hg, ha⟩ := h.ahead
  obtain ⟨allowed, -, hfetch⟩ := fetch_behind h.toInside ha hg (by simpa using begins_tab)
  rw [choose_tab rfl] at hfetch
  refine ⟨⟨.broken (tabbed (l.behind front ('\t' :: t) allowed).mark), l.mark, l.mark⟩, _, rfl,
    fun fuel => ?_⟩
  simp only [run, step, h.barrier, hfetch]

/-- From `l` on a tab is met before all tokens of some kinds have been read, or right behind. -/
def Sticks (l : Lexer) (kinds : List Token.Kind) : Prop :=
  ∃ steps out last mark, steps ≤ l.cursor.ahead.length ∧ last.kind = .broken (tabbed mark) ∧
    (∀ fuel, run (fuel + steps) l = out ++ [last]) ∧
    out.map Token.kind <+: l.queue.map Token.kind ++ kinds

theorem At.sticks (h : At l ('\t' :: t) depth fresh) (kinds : List Token.Kind) : Sticks l kinds := by
  obtain ⟨last, mark, hlast, hrun⟩ := run_tab h
  obtain ⟨front, -, ha⟩ := h.ahead
  refine ⟨1, [], last, mark, ?_, hlast, hrun, List.nil_prefix⟩
  rw [ha, List.length_append, List.length_cons]
  omega

theorem Sticks.append (h : Sticks l kinds) (more : List Token.Kind) : Sticks l (kinds ++ more) := by
  obtain ⟨steps, out, last, mark, hlength, hlast, hrun, hout⟩ := h
  refine ⟨steps, out, last, mark, hlength, hlast, hrun, ?_⟩
  rw [← List.append_assoc]
  exact hout.trans (List.prefix_append _ _)

theorem Passes.sticks (h : Passes l t depth fresh kinds)
    (hmore : ∀ m, At m t depth fresh → Sticks m kinds') : Sticks l (kinds ++ kinds') := by
  obtain ⟨m, ⟨steps, out, hlength, hrun, hqueue⟩, hm⟩ := h
  obtain ⟨steps', out', last, mark, hlength', hlast, hrun', hout⟩ := hmore m hm
  refine ⟨steps' + steps, out ++ out', last, mark, by omega, hlast, ?_, ?_⟩
  · intro fuel
    rw [← Nat.add_assoc, hrun, hrun', List.append_assoc]
  · rw [← List.append_assoc, ← hqueue, List.map_append, List.map_append, List.append_assoc]
    exact (List.prefix_append_right_inj _).2 hout

/-- Behind the name of a field, which still waits for its colon. -/
theorem sticks_name {s : Json.Literal} (h : At l (s.text ++ (gap ++ '\t' :: t)) (depth + 1) true)
    (hs : s.fits = true) (hg : IsGap gap) (hlength : s.text.length ≤ 1024)
    (kinds : List Token.Kind) : Sticks l kinds := by
  obtain ⟨m, start, waiting, name, hfetch, hinside, hcursor, -, hout, -⟩ :=
    exists_named h hs hlength
  have hat : At m.settled ('\t' :: t) (depth + 1) false :=
    ⟨hinside.settled, ⟨gap, hg, congrArg Cursor.ahead hcursor⟩, nofun⟩
  obtain ⟨last, mark, hlast, hrun⟩ := run_tab hat
  obtain ⟨front, -, ha⟩ := h.ahead
  refine ⟨2, m.shed.release.1, last, mark, ?_, hlast, fun fuel => ?_, ?_⟩
  · have htwo : 2 ≤ s.text.length := by simp [Json.Literal.text]
    rw [ha, List.length_append, List.length_append]
    omega
  · rw [run_step hfetch h.barrier hinside, hrun]
  · rw [← hout, List.map_append, List.append_assoc]
    exact List.prefix_append _ _

/-! A part of a text that may hold tabs. -/

/-- From here on a part of the text is read as tokens of some kinds, up to a text that is ahead then.
With a tab in that part the lexer sticks. -/
structure Meets (part : Text) (l : Lexer) (t : Text) (depth : Nat) (fresh : Bool)
    (kinds : List Token.Kind) : Prop where
  passes : '\t' ∉ part → Passes l t depth fresh kinds
  sticks : '\t' ∈ part → Sticks l kinds

theorem Passes.meets (h : Passes l t depth fresh kinds) (hp : '\t' ∉ part) :
    Meets part l t depth fresh kinds := ⟨fun _ => h, fun ht => absurd ht hp⟩

theorem Meets.trans (h : Meets part l t depth fresh kinds)
    (hmore : ∀ m, At m t depth fresh → Meets part' m t' depth' fresh' kinds') :
    Meets (part ++ part') l t' depth' fresh' (kinds ++ kinds') := by
  constructor
  · intro ht
    rw [List.mem_append, not_or] at ht
    exact (h.passes ht.1).trans fun m hm => (hmore m hm).passes ht.2
  · intro ht
    by_cases hp : '\t' ∈ part
    · exact (h.sticks hp).append kinds'
    · exact (h.passes hp).sticks fun m hm =>
        (hmore m hm).sticks ((List.mem_append.1 ht).resolve_left hp)

/-- Spaces, tabs and line feeds. -/
def IsBlank (gap : Text) : Prop := ∀ c ∈ gap, c = ' ' ∨ c = '\t' ∨ c = '\n'

theorem IsBlank.isGap (h : IsBlank gap) (ht : '\t' ∉ gap) : IsGap gap := by
  intro c hc
  have htab : c ≠ '\t' := fun he => ht (he ▸ hc)
  exact (h c hc).imp_right (·.resolve_left htab)

theorem IsBlank.exists_tab (h : IsBlank gap) (ht : '\t' ∈ gap) :
    ∃ front back, gap = front ++ '\t' :: back ∧ IsGap front := by
  obtain ⟨front, back, rfl, hf⟩ := List.eq_append_cons_of_mem ht
  exact ⟨front, back, rfl, IsBlank.isGap (fun c hc => h c (List.mem_append_left _ hc)) hf⟩

theorem meets_gap (h : At l (gap ++ t) depth fresh) (hg : IsBlank gap) :
    Meets gap l t depth fresh [] := by
  constructor
  · intro ht
    exact ⟨l, .refl l, h.behind_gap (hg.isGap ht)⟩
  · intro ht
    obtain ⟨front, back, rfl, hf⟩ := hg.exists_tab ht
    rw [List.append_assoc] at h
    exact (h.behind_gap hf).sticks []

theorem Meets.behind_gap (h : Meets part l (gap ++ t) depth fresh kinds) (hg : IsBlank gap) :
    Meets (part ++ gap) l t depth fresh kinds := by
  have hmore := h.trans fun _ hm => meets_gap hm hg
  rwa [List.append_nil] at hmore

/-- A word or number, with the gap behind it. -/
theorem meets_simple {s : Json.Simple} (h : At l (s.text ++ (gap ++ d :: t)) (depth + 1) fresh)
    (hg : IsBlank gap) (hd : Plain.Closes d) :
    Meets (s.text ++ gap) l (d :: t) (depth + 1) false [.scalar (.plain s.text)] := by
  constructor
  · intro ht
    rw [List.mem_append, not_or] at ht
    exact passes_simple h (hg.isGap ht.2) hd
  · intro ht
    obtain ⟨front, back, rfl, hf⟩ :=
      hg.exists_tab ((List.mem_append.1 ht).resolve_left s.tab_not_mem)
    rw [List.append_assoc] at h
    exact (passes_simple h hf (by simp [Plain.Closes])).sticks fun m hm => hm.sticks []

/-- The name of a field and its colon, with the gap between them. -/
theorem meets_key {s : Json.Literal} (h : At l (s.text ++ (gap ++ ':' :: t)) (depth + 1) true)
    (hs : s.fits = true) (hg : ∀ c ∈ gap, c = ' ' ∨ c = '\t')
    (hlength : s.text.length + gap.length ≤ 1024) :
    Meets (s.text ++ (gap ++ [':'])) l t (depth + 1) false
      [.key, .scalar (.verbatim s.codes), .value] := by
  have hblank : IsBlank gap := fun c hc => (hg c hc).imp_right Or.inl
  constructor
  · intro ht
    have ht' : '\t' ∉ gap := fun hm => ht (by simp [hm])
    refine passes_key h hs (fun c hc => (hg c hc).resolve_right ?_) hlength
    rintro rfl
    exact ht' hc
  · intro ht
    have ht' : '\t' ∈ gap := by simpa [s.tab_not_mem] using ht
    obtain ⟨front, back, rfl, hf⟩ := hblank.exists_tab ht'
    rw [List.append_assoc] at h
    exact sticks_name h hs hf (by omega) _

/-- The tokens of a whole text with a tab between its parts. -/
theorem exists_broken (h : ∀ l, At l t 0 true → Sticks l kinds) :
    ∃ out last mark, tokens t = ⟨.streamStart, {}, {}⟩ :: (out ++ [last]) ∧
      last.kind = .broken (tabbed mark) ∧ out.map Token.kind <+: kinds := by
  obtain ⟨steps, out, last, mark, hlength, hlast, hrun, hout⟩ := h _ (at_start t)
  have hfuel : t.length + 1 = (t.length + 1 - steps) + steps := by
    have hsteps : steps ≤ t.length := hlength
    omega
  refine ⟨out, last, mark, ?_, hlast, hout⟩
  rw [tokens, tokensBefore, hfuel, hrun]

end KeywordSieve.Yaml.Lexer
