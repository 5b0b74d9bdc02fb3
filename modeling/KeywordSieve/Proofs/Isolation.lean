import KeywordSieve.Proofs.Elements
import KeywordSieve.Proofs.Joining
import KeywordSieve.Proofs.Tiling

/-!
What is written in a group stays in the group. A body without quotes and closing parentheses may be
exchanged for another one: whatever stands around the group, and however much of it is malformed,
every scan that reaches the body passes it in the same state, and so takes the same constructs in
front of it and behind it.
-/
namespace KeywordSieve.Query.Override

open Text Term Unicode Token

variable {b b' s : Text}

/-- The quotes of a text with a body in it are those around the body. -/
theorem quote_mem_around {q : Char} (hq : isQuote q = true) (hb : ClosesNothing b) (v : Text) :
    q ∈ v ++ (b ++ ')' :: s) ↔ q ∈ v ∨ q ∈ s := by
  have hn : q ∉ b := by
    intro hm
    rw [(hb q hm).1] at hq
    cases hq
  simp [hn, ne_close_of_isQuote hq]

theorem isBody_of_closesNothing (hb : ClosesNothing b) (after : Text) : IsBody after b := by
  induction b with
  | nil => exact .nil
  | cons c b ih =>
    obtain ⟨⟨hq, hc⟩, hr⟩ := List.forall_mem_cons.1 hb
    exact .other hq hc (ih hr)

/-- A run that is open passes the body. -/
theorem isSome_close?_append {q : Char} (hq : isQuote q = true) (hb : ClosesNothing b) (t : Text) :
    (close? (some q) (b ++ t)).isSome = (close? (some q) t).isSome := by
  induction b with
  | nil => rfl
  | cons c b ih =>
    obtain ⟨⟨hc, -⟩, hr⟩ := List.forall_mem_cons.1 hb
    have hne : c ≠ q := by
      rintro rfl
      rw [hc] at hq
      cases hq
    have ha : runAfter (some q) c (b ++ t) = some q := if_neg hne
    rw [List.cons_append, close?, if_neg (by simp), ha, Option.isSome_map, ih hr]

/-- Whether a scan finds the end of a group does not depend on a body that it meets. -/
theorem isSome_close?_exchange {run : Option Char} (hrun : ∀ q ∈ run, isQuote q = true)
    (hb : ClosesNothing b) (hb' : ClosesNothing b') (v : Text) :
    (close? run (v ++ (b ++ ')' :: s))).isSome = (close? run (v ++ (b' ++ ')' :: s))).isSome := by
  induction v generalizing run with
  | nil =>
    cases run with
    | none =>
      rw [List.nil_append, List.nil_append, close?_complete (isBody_of_closesNothing hb _),
        close?_complete (isBody_of_closesNothing hb' _)]
      rfl
    | some q =>
      have hq := hrun q rfl
      rw [List.nil_append, List.nil_append, isSome_close?_append hq hb, isSome_close?_append hq hb']
  | cons c v ih =>
    have ha : runAfter run c (v ++ (b ++ ')' :: s)) = runAfter run c (v ++ (b' ++ ')' :: s)) := by
      cases run with
      | some q => rfl
      | none =>
        have hm : (isQuote c = true ∧ c ∈ v ++ (b ++ ')' :: s)) ↔
            (isQuote c = true ∧ c ∈ v ++ (b' ++ ')' :: s)) := by
          refine and_congr_right ?_
          intro hq
          rw [quote_mem_around hq hb, quote_mem_around hq hb']
        simp only [runAfter, hm]
    have hnext : ∀ q ∈ runAfter run c (v ++ (b' ++ ')' :: s)), isQuote q = true :=
      fun q => isQuote_of_runAfter hrun
    rw [List.cons_append, List.cons_append, close?, close?, ha]
    split
    · rfl
    · rw [Option.isSome_map, Option.isSome_map, ih hnext]

theorem IsOpening.exists_eq {opening : Text} (h : IsOpening opening) :
    ∃ front, '(' ∉ front ∧ opening = front ++ ['('] := by
  obtain ⟨spelled, blanks, hs, hb, rfl⟩ := h
  refine ⟨spelled ++ blanks, ?_, rfl⟩
  intro hm
  rcases List.mem_append.1 hm with hm | hm
  · have hw : ∀ x ∈ word, ¬ ('(' = x ∨ '(' = x.toUpper) := by simp [word]
    obtain ⟨x, hx, he⟩ := hs.mem hm
    exact hw x hx he
  · have hblank := hb _ hm
    revert hblank
    decide

/-- What opens a group in front of a parenthesis ends there or before. -/
theorem IsOpening.isPrefix {opening u w inside : Text} (h : IsOpening opening)
    (he : u ++ '(' :: w = opening ++ inside) : opening <+: u ++ ['('] := by
  obtain ⟨front, hf, rfl⟩ := h.exists_eq
  have hu : u ++ ['('] <+: u ++ '(' :: w := ⟨w, by simp⟩
  have ho : front ++ ['('] <+: u ++ '(' :: w := ⟨inside, he.symm⟩
  rcases List.prefix_or_prefix_of_prefix ho hu with hp | hp
  · exact hp
  · rcases List.prefix_concat_iff.1 hp with heq | hin
    · exact heq ▸ List.prefix_refl _
    · exact absurd (hin.subset (by simp)) hf

/-- Whether a group opens in front of a parenthesis does not depend on what is behind it. -/
theorem opening?_append_paren (u : Text) :
    (∃ v, ∀ w, opening? (u ++ '(' :: w) = some (v ++ w)) ∨
      ∀ w, opening? (u ++ '(' :: w) = none := by
  by_cases h : ∃ w inside, opening? (u ++ '(' :: w) = some inside
  · obtain ⟨w, inside, hw⟩ := h
    obtain ⟨opening, ho, he⟩ := opening?_iff.1 hw
    obtain ⟨v, hv⟩ := ho.isPrefix he
    left
    refine ⟨v, ?_⟩
    intro w'
    refine opening?_iff.2 ⟨opening, ho, ?_⟩
    rw [← List.append_assoc, hv, List.append_assoc, List.singleton_append]
  · right
    intro w
    cases hw : opening? (u ++ '(' :: w) with
    | none => rfl
    | some inside => exact absurd ⟨w, inside, hw⟩ h

end KeywordSieve.Query.Override

namespace KeywordSieve.Query.Token

open Text Term Override

variable {b b' s : Text}

theorem isSome_override?_exchange (hb : ClosesNothing b) (hb' : ClosesNothing b') (u : Text) :
    (override? (u ++ '(' :: (b ++ ')' :: s))).isSome =
      (override? (u ++ '(' :: (b' ++ ')' :: s))).isSome := by
  unfold override?
  rcases opening?_append_paren u with ⟨v, hv⟩ | hn
  · rw [hv, hv]
    simp only [Option.isSome_map]
    exact isSome_close?_exchange (by simp) hb hb' v
  · rw [hn, hn]

/-- A phrase begins with a quote that another one follows, but not at once. -/
theorem isSome_phrase?_cons {negated : Bool} {q : Char} {rest : Text} :
    (phrase? negated (q :: rest)).isSome = true ↔
      isQuote q = true ∧ q ∈ rest ∧ rest.head? ≠ some q := by
  rw [Option.isSome_iff_exists]
  constructor
  · rintro ⟨⟨token, after⟩, h⟩
    obtain ⟨q', body, hq, hb, hne, -, he⟩ := phrase?_iff.1 h
    cases he
    refine ⟨hq, by simp, ?_⟩
    obtain ⟨c, body, rfl⟩ := List.exists_cons_of_ne_nil hne
    intro hc
    cases hc
    exact hb (by simp)
  · rintro ⟨hq, hm, hne⟩
    obtain ⟨body, after, rfl, hb⟩ := List.eq_append_cons_of_mem hm
    refine ⟨_, phrase?_iff.2 ⟨q, body, hq, hb, ?_, rfl, rfl⟩⟩
    rintro rfl
    exact hne rfl

theorem isSome_phrase?_exchange (negated : Bool) (hb : ClosesNothing b) (hb' : ClosesNothing b')
    (u : Text) : (phrase? negated (u ++ '(' :: (b ++ ')' :: s))).isSome =
      (phrase? negated (u ++ '(' :: (b' ++ ')' :: s))).isSome := by
  cases u with
  | nil => rfl
  | cons q u =>
    have hhead : ∀ w : Text, (u ++ '(' :: w).head? = (u ++ ['(']).head? := by
      intro w
      cases u <;> rfl
    have hmem : isQuote q = true →
        (q ∈ u ++ '(' :: (b ++ ')' :: s) ↔ q ∈ u ++ '(' :: (b' ++ ')' :: s)) := by
      intro hq
      have hv := quote_mem_around (s := s) hq hb (u ++ ['('])
      have hv' := quote_mem_around (s := s) hq hb' (u ++ ['('])
      rw [List.append_assoc, List.singleton_append] at hv hv'
      rw [hv, hv']
    rw [Bool.eq_iff_iff, List.cons_append, List.cons_append, isSome_phrase?_cons,
      isSome_phrase?_cons, hhead (b ++ ')' :: s), hhead (b' ++ ')' :: s)]
    refine and_congr_right ?_
    intro hq
    rw [hmem hq]

/-- Whether a construct starts in front of the body does not depend on the body. -/
theorem starts_exchange (hb : ClosesNothing b) (hb' : ClosesNothing b') (u : Text) :
    Starts (u ++ '(' :: (b ++ ')' :: s)) ↔ Starts (u ++ '(' :: (b' ++ ')' :: s)) := by
  have ho := isSome_override?_exchange (s := s) hb hb' u
  have hf : (construct? (u ++ '(' :: (b ++ ')' :: s))).isSome =
      (construct? (u ++ '(' :: (b' ++ ')' :: s))).isSome := by
    unfold construct?
    cases h : override? (u ++ '(' :: (b ++ ')' :: s)) with
    | some found =>
      obtain ⟨found', h'⟩ := Option.isSome_iff_exists.1 (ho.symm.trans (by rw [h]; rfl))
      rw [h']
      rfl
    | none =>
      have h' : override? (u ++ '(' :: (b' ++ ')' :: s)) = none := by
        rw [← Option.not_isSome_iff_eq_none, ← ho, h]
        simp
      rw [h']
      cases u with
      | nil => exact isSome_phrase?_exchange false hb hb' []
      | cons c u =>
        by_cases hc : c = '-'
        · subst hc
          exact isSome_phrase?_exchange true hb hb' u
        · have hp := isSome_phrase?_exchange (s := s) false hb hb' (c :: u)
          simpa [hc] using hp
  rw [← not_iff_not, ← construct?_eq_none, ← construct?_eq_none, ← Option.not_isSome_iff_eq_none,
    ← Option.not_isSome_iff_eq_none, hf]

variable {o : Text} {front rest : List Token}

theorem flatMap_source_around (o b : Text) (front rest : List Token) :
    (front ++ .override (o ++ ['(']) b :: rest).flatMap source =
      front.flatMap source ++ o ++ '(' :: (b ++ ')' :: rest.flatMap source) := by
  simp [source]

/-- Another body leaves the constructs in front of its group as they are. -/
theorem IsConstruct.exchange {token : Token} (hb : ClosesNothing b) (hb' : ClosesNothing b')
    (h : IsConstruct ((front ++ .override (o ++ ['(']) b :: rest).flatMap source) token) :
    IsConstruct ((front ++ .override (o ++ ['(']) b' :: rest).flatMap source) token := by
  rw [flatMap_source_around, List.append_cons] at h ⊢
  apply h.congr
  intro q hm hq
  rw [quote_mem_around hq hb'] at hm
  rwa [quote_mem_around hq hb]

/-- Whether a text is inert has nothing to do with the body of a group further on. -/
theorem Inert.exchange {text : Text} (hb : ClosesNothing b) (hb' : ClosesNothing b')
    (h : Inert ((front ++ .override (o ++ ['(']) b :: rest).flatMap source) text) :
    Inert ((front ++ .override (o ++ ['(']) b' :: rest).flatMap source) text := by
  intro p hp
  have hs := h p hp
  rw [flatMap_source_around, List.drop_append_of_le_length (Nat.le_of_lt hp),
    ← List.append_assoc] at hs ⊢
  rwa [starts_exchange hb' hb]

/-- The tokens of a query in which a group stands, with another body in the group. -/
theorem Reads.exchange {t : Text} {tokens : List Token} (hb : ClosesNothing b)
    (hb' : ClosesNothing b') (h : Reads t tokens)
    (he : tokens = front ++ .override (o ++ ['(']) b :: rest) :
    Reads ((front ++ .override (o ++ ['(']) b' :: rest).flatMap source)
      (front ++ .override (o ++ ['(']) b' :: rest) := by
  induction h generalizing front with
  | nil => simp at he
  | @construct token after others hk hr ih =>
    cases front with
    | nil =>
      cases he
      cases hk with
      | override ho =>
        have hk' := IsConstruct.override ho (isBody_of_closesNothing hb' (')' :: after))
        rw [List.nil_append, List.flatMap_cons, hr.flatMap_source]
        exact .construct hk' hr
    | cons first front =>
      cases he
      rw [← hr.flatMap_source] at hk
      exact .construct (hk.exchange hb hb') (ih rfl)
  | @plain text after others hne hi hh hr ih =>
    cases front with
    | nil => cases he
    | cons first front =>
      cases he
      rw [← hr.flatMap_source] at hi
      refine .plain hne (hi.exchange hb hb') ?_ (ih rfl)
      intro other
      cases front with
      | nil => simp
      | cons next front => exact hh other

theorem Reads.behind {t : Text} {tokens : List Token} (h : Reads t (front ++ tokens)) :
    Reads (tokens.flatMap source) tokens := by
  induction front generalizing t with
  | nil =>
    rw [List.nil_append] at h
    rwa [h.flatMap_source]
  | cons first front ih =>
    rw [List.cons_append] at h
    cases h with
    | construct _ hr => exact ih hr
    | plain _ _ _ hr => exact ih hr

/-- A token is reported where those in front of it end. -/
theorem exists_of_mem_report {l : Lexeme} {start : Nat} {tokens : List Token}
    (h : l ∈ report start tokens) :
    ∃ front token rest, tokens = front ++ token :: rest ∧
      l = token.lexeme (start + (front.flatMap source).length) := by
  induction tokens generalizing start with
  | nil => cases h
  | cons token tokens ih =>
    rw [report_cons, List.mem_cons] at h
    rcases h with rfl | h
    · exact ⟨[], token, tokens, rfl, rfl⟩
    · obtain ⟨front, other, rest, rfl, rfl⟩ := ih h
      refine ⟨token :: front, other, rest, rfl, ?_⟩
      rw [List.flatMap_cons, List.length_append, Nat.add_assoc]

/-- Where a token begins at a group, the query has the same tokens around the group with any other
body in it. -/
theorem lex_exchange {p : Text} (ho : IsOpening (o ++ ['('])) (hb : ClosesNothing b)
    (h : ∃ l ∈ Lexeme.tokenize (p ++ o ++ '(' :: (b ++ ')' :: s)), l.position = p.length) :
    ∃ front, ∀ b', ClosesNothing b' →
      lex (p ++ o ++ '(' :: (b' ++ ')' :: s)) = front ++ .override (o ++ ['(']) b' :: lex s := by
  obtain ⟨l, hl, hpos⟩ := h
  obtain ⟨front, token, rest, he, rfl⟩ := exists_of_mem_report hl
  have hr := reads_lex (p ++ o ++ '(' :: (b ++ ')' :: s))
  have hc : IsConstruct s (.override (o ++ ['(']) b) := .override ho (isBody_of_closesNothing hb _)
  have hsource : (Token.override (o ++ ['(']) b).source ++ s = o ++ '(' :: (b ++ ')' :: s) := by
    simp [source]
  rw [he] at hr
  obtain ⟨hp, hgroup⟩ : p = front.flatMap source ∧
      o ++ '(' :: (b ++ ')' :: s) = (token :: rest).flatMap source := by
    apply List.append_inj
    · rw [← List.flatMap_append, hr.flatMap_source, List.append_assoc]
    · simpa [lexeme] using hpos.symm
  -- the group is read on its own from where the tokens in front of it end
  have htail : token :: rest = .override (o ++ ['(']) b :: lex s := by
    rw [← hr.behind.lex_eq, ← hgroup, ← hsource, lex_construct hc]
  rw [htail] at hr
  refine ⟨front, ?_⟩
  intro b' hb'
  have hl' := (hr.exchange hb hb' rfl).lex_eq
  rwa [flatMap_source_around, ← hp, (reads_lex s).flatMap_source] at hl'

end KeywordSieve.Query.Token

namespace KeywordSieve.Query.Filter

open Text Term Override Token

/-- What a group adds to the override groups: its terms, if it has some. -/
theorem group?_override {b : Text} (opening : Text) (hb : ClosesNothing b) :
    (group? (.override opening b)).toList = [terms b].filter (· ≠ []) := by
  have ht : terms (trim b) = terms b := terms_trim (fun c hc => (hb c hc).1)
  simp only [group?, value, ht]
  cases terms b <;> rfl

/-- The filter of a query in which a group stands is made of what stands around the group and of the
terms of the group. -/
theorem compile_of_lex {t opening b : Text} {front rest : List Token} (hb : ClosesNothing b)
    (h : lex t = front ++ .override opening b :: rest) :
    compile t =
      { includes := (ofTokens (front ++ rest)).includes
        excludes := (ofTokens (front ++ rest)).excludes
        overrides := front.filterMap group? ++ [terms b].filter (· ≠ []) ++
          rest.filterMap group? } := by
  rw [compile, h, ← group?_override opening hb]
  simp [ofTokens, plainTerms, filterMap_cons_toList, phraseTerm?, plainText]

/-- A query in which a group stands. -/
def withGroup (p b s : Text) : Text := p ++ "except(" ++ b ++ ")" ++ s

/-- The body of a group decides nothing but the terms of this group. -/
theorem compile_withGroup (p s b b' : Text) (hb : ClosesNothing b) (hb' : ClosesNothing b')
    (h : ∃ l ∈ Lexeme.tokenize (withGroup p b s), l.kind = .group ∧ l.position = p.length) :
    (compile (withGroup p b s)).includes = (compile (withGroup p b' s)).includes ∧
      (compile (withGroup p b s)).excludes = (compile (withGroup p b' s)).excludes ∧
      ∃ pre post,
        (compile (withGroup p b s)).overrides = pre ++ [terms b].filter (· ≠ []) ++ post ∧
        (compile (withGroup p b' s)).overrides = pre ++ [terms b'].filter (· ≠ []) ++ post := by
  have ho : IsOpening ("except" ++ ['(']) :=
    ⟨word, [], List.forall₂_same.2 (fun _ _ => Or.inl rfl), by simp, rfl⟩
  have hw : ∀ body, withGroup p body s = p ++ "except" ++ '(' :: (body ++ ')' :: s) := by
    intro body
    simp [withGroup]
  obtain ⟨l, hl, -, hpos⟩ := h
  rw [hw] at hl
  obtain ⟨front, hf⟩ := lex_exchange ho hb ⟨l, hl, hpos⟩
  have hlex := fun body hbody => (congrArg lex (hw body)).trans (hf body hbody)
  rw [compile_of_lex hb (hlex b hb), compile_of_lex hb' (hlex b' hb')]
  exact ⟨rfl, rfl, _, _, rfl, rfl⟩

/-- A phrase that swallows an opening and ends right in front of the group. -/
def swallowed : Text := "-'a except('"

theorem compile_withGroup_swallowed :
    (∃ l ∈ Lexeme.tokenize (withGroup swallowed " ΟΣ,c " ",e'"),
        l.kind = .group ∧ l.position = swallowed.length) ∧
      compile (withGroup swallowed " ΟΣ,c " ",e'") =
        { includes := ["e"], excludes := ["a except("], overrides := [["ος", "c"]] } ∧
      (compile (withGroup swallowed " ΟΣ,c " ",e'")).includes =
        (compile (withGroup swallowed "except(, ," ",e'")).includes ∧
      (compile (withGroup swallowed " ΟΣ,c " ",e'")).excludes =
        (compile (withGroup swallowed "except(, ," ",e'")).excludes ∧
      ∃ pre post,
        (compile (withGroup swallowed " ΟΣ,c " ",e'")).overrides =
          pre ++ ([["ος", "c"]] : List (List Text)) ++ post ∧
        (compile (withGroup swallowed "except(, ," ",e'")).overrides =
          pre ++ ([["except("]] : List (List Text)) ++ post := by
  have h : ∃ l ∈ Lexeme.tokenize (withGroup swallowed " ΟΣ,c " ",e'"),
      l.kind = .group ∧ l.position = swallowed.length := by decide +kernel
  have ht : terms " ΟΣ,c " = (["ος", "c"] : List Text) := by decide +kernel
  have ht' : terms "except(, ," = (["except("] : List Text) := by decide +kernel
  have hw := compile_withGroup swallowed ",e'" " ΟΣ,c " "except(, ," (by decide) (by decide) h
  rw [ht, ht'] at hw
  exact ⟨h, by decide +kernel, hw⟩

end KeywordSieve.Query.Filter
