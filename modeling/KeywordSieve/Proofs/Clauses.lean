import KeywordSieve.Proofs.Elements
import KeywordSieve.Proofs.Passes

/-!
Queries in canonical form: clauses with commas between them, where a clause is a term in normal
form, quoted or bare, to include or to exclude, or a group of such terms. Such a query denotes
exactly the terms that are written in it, whatever commas, parentheses and foreign quotes stand in
its quoted terms.
-/
namespace KeywordSieve.Query

open Text Term Override Unicode

inductive Written where
  | quoted (quote : Char) (term : Text)
  | bare (term : Text)
  deriving DecidableEq, Repr

inductive Clause where
  | term (negated : Bool) (written : Written)
  | group (elements : List Written)
  deriving DecidableEq, Repr

namespace Token

theorem bare_ne_phrase {t after tail body : Text} {negated : Bool} {q : Char} (hne : t ≠ [])
    (h : ∀ c ∈ t, isQuote c = false) (ha : Ends after) (hq : isQuote q = true) :
    t ++ after ≠ (phrase negated q body).source ++ tail := by
  intro he
  obtain ⟨c, rest, rfl⟩ := List.exists_cons_of_ne_nil hne
  cases negated with
  | false =>
    have hc : c = q := (List.cons.inj he).1
    rw [← hc, h c (by simp)] at hq
    cases hq
  | true =>
    have hr : rest ++ after = q :: (body ++ [q] ++ tail) := (List.cons.inj he).2
    cases rest with
    | nil =>
      have hc : q = ',' := ha q (by rw [← List.nil_append after, hr]; rfl)
      rw [hc] at hq
      cases hq
    | cons d rest =>
      have hd : d = q := (List.cons.inj hr).1
      rw [← hd, h d (by simp)] at hq
      cases hq

/-- The opening of a group neither ends inside the text nor reaches over its end. -/
theorem bare_ne_override {t after tail opening body : Text} (h : '(' ∉ t) (ha : Ends after)
    (ho : IsOpening opening) : t ++ after ≠ (override opening body).source ++ tail := by
  intro he
  have hp : '(' ∈ opening := paren_mem_opening ho
  rw [source, List.append_assoc, List.append_assoc] at he
  rcases List.append_eq_append_iff.1 he with ⟨more, hmore, hafter⟩ | ⟨more, hmore, -⟩
  · cases more with
    | nil =>
      rw [List.append_nil] at hmore
      exact h (hmore ▸ hp)
    | cons c more =>
      have hc : c = ',' := ha c (by rw [hafter]; rfl)
      exact comma_not_mem_opening ho (by rw [hmore, hc]; simp)
  · exact h (by rw [hmore]; exact List.mem_append_left more hp)

/-- Text without quotes and parentheses starts nothing, even with what stands behind it. -/
theorem not_starts_bare {t after : Text} (hne : t ≠ [])
    (h : ∀ c ∈ t, isQuote c = false ∧ c ≠ '(') (ha : Ends after) : ¬ Starts (t ++ after) := by
  rintro ⟨token, tail, hk, he⟩
  cases hk with
  | phrase hq hb hn => exact bare_ne_phrase hne (fun c hc => (h c hc).1) ha hq he
  | override ho hb => exact bare_ne_override (fun hp => (h '(' hp).2 rfl) ha ho he

theorem inert_bare {t after : Text} (h : ∀ c ∈ t, isQuote c = false ∧ c ≠ '(') (ha : Ends after) :
    Inert after t := by
  intro p hp
  rw [List.drop_append_of_le_length (Nat.le_of_lt hp)]
  apply not_starts_bare _ _ ha
  · intro hn
    rw [List.drop_eq_nil_iff] at hn
    omega
  · intro c hc
    exact h c (List.mem_of_mem_drop hc)

end Token

namespace Written

def term : Written → Text
  | quoted _ t => t
  | bare t => t

def source : Written → Text
  | quoted q t => q :: t ++ [q]
  | bare t => t

/-- The term is in normal form, and what is written around it keeps it in one piece. -/
def Canonical : Written → Prop
  | quoted q t => isQuote q = true ∧ normalize t = some t ∧ q ∉ t
  | bare t => normalize t = some t ∧ ∀ c ∈ t, isQuote c = false ∧ c ≠ ',' ∧ c ≠ '(' ∧ c ≠ ')'

instance : (w : Written) → Decidable w.Canonical
  | quoted q t => inferInstanceAs (Decidable (isQuote q = true ∧ normalize t = some t ∧ q ∉ t))
  -- the characters of the term are gone through, not all that there are
  | bare t => @instDecidableAnd _ _ inferInstance (List.decidableBAll _ t)

theorem Canonical.normal {w : Written} (h : w.Canonical) : Normal w.term := by
  cases w with
  | quoted q t => exact normal_of_normalize h.2.1
  | bare t => exact normal_of_normalize h.1

theorem Canonical.normalize_source {w : Written} (h : w.Canonical) :
    normalize w.source = some w.term := by
  cases w with
  | quoted q t => exact normalize_quoted h.1 h.normal
  | bare t => exact h.1

theorem Canonical.source_ne_nil {w : Written} (h : w.Canonical) : w.source ≠ [] := by
  cases w with
  | quoted q t => simp [source]
  | bare t => exact h.normal.ne_nil

/-- What is written has no white space at its ends. -/
theorem Canonical.source_trimmed {w : Written} (h : w.Canonical) : Trimmed isBlank w.source := by
  cases w with
  | quoted q t => exact trimmed_quoted h.1 t
  | bare t => exact h.normal.trimmed

theorem isBody_append {t after rest : Text} (h : ∀ c ∈ t, isQuote c = false ∧ c ≠ ')')
    (hr : IsBody after rest) : IsBody after (t ++ rest) := by
  induction t with
  | nil => exact hr
  | cons c t ih =>
    obtain ⟨hq, hc⟩ := h c (by simp)
    exact .other hq hc (ih (fun d hd => h d (List.mem_cons_of_mem c hd)))

theorem Canonical.isBody {w : Written} {after rest : Text} (h : w.Canonical)
    (hr : IsBody after rest) : IsBody after (w.source ++ rest) := by
  cases w with
  | quoted q t =>
    have hb := IsBody.run h.1 h.2.2 hr
    simpa [source] using hb
  | bare t =>
    apply isBody_append _ hr
    intro c hc
    exact ⟨(h.2 c hc).1, (h.2 c hc).2.2.2⟩

/-- A written term is the first element of what begins with it. -/
theorem Canonical.elements_append {w : Written} {rest : Text} (h : w.Canonical) (hr : Ends rest) :
    elements (w.source ++ rest) = w.source :: elements rest := by
  cases w with
  | quoted q t =>
    have hs : (quoted q t).source ++ rest = q :: t ++ q :: rest := by simp [source]
    rw [hs, elements_run h.1 h.2.2]
    rfl
  | bare t =>
    obtain ⟨c, t, rfl⟩ := List.exists_cons_of_ne_nil h.normal.ne_nil
    have hq : isQuote c = false := (h.2 c (by simp)).1
    have hc : ',' ∉ c :: t := by
      intro hm
      exact (h.2 ',' hm).2.1 rfl
    exact elements_bare hc (fun hb => by simp [hq] at hb) hr

def body (es : List Written) : Text := joinWith [','] (es.map source)

theorem body_singleton (e : Written) : body [e] = e.source := joinWith_singleton _ _

theorem body_cons_cons (e f : Written) (es : List Written) :
    body (e :: f :: es) = e.source ++ ',' :: body (f :: es) := joinWith_cons_cons _ _ _

/-- Whatever follows a group, the written elements are its body. -/
theorem isBody_body {after : Text} {es : List Written} (h : ∀ e ∈ es, e.Canonical) :
    IsBody after (body es) := by
  refine parts_induction ?nil ?last ?more es h
  case nil => exact .nil
  case last =>
    intro e he
    have hb := he.isBody (@IsBody.nil after)
    rwa [List.append_nil, ← body_singleton] at hb
  case more =>
    intro e f es he hes
    rw [body_cons_cons]
    exact he.isBody (.other (by decide) (by decide) hes)

theorem body_trimmed {es : List Written} (hne : es ≠ []) (h : ∀ e ∈ es, e.Canonical) :
    Trimmed isBlank (body es) ∧ body es ≠ [] := by
  revert hne
  refine parts_induction ?nil ?last ?more es h
  case nil => exact fun hne => absurd rfl hne
  case last =>
    intro e he _
    rw [body_singleton]
    exact ⟨he.source_trimmed, he.source_ne_nil⟩
  case more =>
    intro e f es he ih _
    obtain ⟨ht, hn⟩ := ih (by simp)
    rw [body_cons_cons, ← List.singleton_append, ← List.append_assoc]
    exact ⟨he.source_trimmed.append ht he.source_ne_nil hn _, by simp⟩

/-- The elements are read from a body as they are written. -/
theorem elements_body {es : List Written} (h : ∀ e ∈ es, e.Canonical) :
    elements (body es) = es.map source := by
  refine parts_induction ?nil ?last ?more es h
  case nil => exact elements_nil
  case last =>
    intro e he
    have hl := he.elements_append ends_nil
    rw [List.append_nil] at hl
    rw [body_singleton, hl, elements_nil]
    rfl
  case more =>
    intro e f es he hes
    rw [body_cons_cons, he.elements_append (ends_cons _), elements_comma, hes]
    rfl

/-- The terms of a canonical body are those written in it. -/
theorem terms_body {es : List Written} (h : ∀ e ∈ es, e.Canonical) :
    terms (body es) = es.map term := by
  rw [terms, elements_body h, List.filterMap_map]
  induction es with
  | nil => rfl
  | cons e es ih =>
    have hes := ih (fun f hf => h f (List.mem_cons_of_mem e hf))
    rw [List.filterMap_cons, Function.comp_apply, (h e (by simp)).normalize_source, hes]
    rfl

end Written

namespace Clause

open Token Query.Filter

def source : Clause → Text
  | term negated w => (if negated then ['-'] else []) ++ w.source
  | group es => word ++ '(' :: Written.body es ++ [')']

/-- The terms are canonical, no bare term to include begins with a minus sign, and no group is
empty. -/
def Canonical : Clause → Prop
  | term false (.bare t) => (Written.bare t).Canonical ∧ t.head? ≠ some '-'
  | term _ w => w.Canonical
  | group es => es ≠ [] ∧ ∀ e ∈ es, e.Canonical

instance : (c : Clause) → Decidable c.Canonical
  | term false (.bare t) =>
    inferInstanceAs (Decidable ((Written.bare t).Canonical ∧ t.head? ≠ some '-'))
  | term true (.bare t) => inferInstanceAs (Decidable (Written.bare t).Canonical)
  | term false (.quoted q t) => inferInstanceAs (Decidable (Written.quoted q t).Canonical)
  | term true (.quoted q t) => inferInstanceAs (Decidable (Written.quoted q t).Canonical)
  | group es => inferInstanceAs (Decidable (es ≠ [] ∧ ∀ e ∈ es, e.Canonical))

def quotedTerm? (sign : Bool) : Clause → Option Text
  | term negated (.quoted _ t) => if negated = sign then some t else none
  | _ => none

def bareTerm? (sign : Bool) : Clause → Option Text
  | term negated (.bare t) => if negated = sign then some t else none
  | _ => none

def groupTerms? : Clause → Option (List Text)
  | group es => some (es.map Written.term)
  | _ => none

def query (clauses : List Clause) : Text := joinWith [','] (clauses.map source)

/-- What a clause leaves in the plain text. -/
def plain : Clause → Text
  | term negated (.bare t) => (if negated then ['-'] else []) ++ t
  | _ => []

/-- The quoted term of a clause, with its sign. -/
def quoted? : Clause → Option Signed
  | term negated (.quoted _ t) => some (negated, t)
  | _ => none

/-- The bare term of a clause, with its sign. -/
def bare? : Clause → Option Signed
  | term negated (.bare t) => some (negated, t)
  | _ => none

theorem eq_minus_of_mem {negated : Bool} {x : Char}
    (h : x ∈ (if negated then ['-'] else [] : Text)) : x = '-' := by
  cases negated with
  | false => cases h
  | true => exact List.mem_singleton.1 h

theorem Canonical.written {negated : Bool} {w : Written} (h : (term negated w).Canonical) :
    w.Canonical := by
  cases negated <;> cases w
  · exact h
  · exact h.1
  · exact h
  · exact h

theorem isConstruct_group {es : List Written} (h : ∀ e ∈ es, e.Canonical) (after : Text) :
    IsConstruct after (.override (word ++ ['(']) (Written.body es)) := by
  refine .override ⟨word, [], ?_, by simp, by simp⟩ (Written.isBody_body h)
  exact List.forall₂_same.2 (fun c _ => Or.inl rfl)

theorem group?_body {es : List Written} (hne : es ≠ []) (h : ∀ e ∈ es, e.Canonical) :
    group? (.override (word ++ ['(']) (Written.body es)) = some (es.map Written.term) := by
  have ht : trim (Written.body es) = Written.body es :=
    trimBoth_eq_self (Written.body_trimmed hne h).1
  rw [group?, value, ht, Written.terms_body h]
  cases es with
  | nil => exact absurd rfl hne
  | cons e es => rfl

/-- A canonical clause in front adds what it says to the findings, and nothing else. -/
theorem Canonical.yields {c : Clause} {after : Text} {phrases : List Signed}
    {groups : List (List Text)} {text : Text} (h : c.Canonical) (ha : Ends after)
    (hy : Yields after phrases groups text) :
    Yields (c.source ++ after) (c.quoted?.toList ++ phrases) (c.groupTerms?.toList ++ groups)
      (c.plain ++ text) := by
  cases c with
  | group es =>
    have hg := hy.group (isConstruct_group h.2 after)
    rw [group?_body h.1 h.2] at hg
    simpa [source, Token.source, quoted?, groupTerms?, plain] using hg
  | term negated w =>
    have hw := h.written
    cases w with
    | quoted q t =>
      have hc : IsConstruct after (.phrase negated q t) := .phrase hw.1 hw.2.2 hw.normal.ne_nil
      have hp := hy.phrase hc
      rw [hw.2.1] at hp
      simpa [source, Written.source, Token.source, quoted?, groupTerms?, plain] using hp
    | bare t =>
      have hi : Inert after ((if negated then ['-'] else []) ++ t) := by
        apply inert_bare _ ha
        intro d hd
        rcases List.mem_append.1 hd with hd | hd
        · rw [eq_minus_of_mem hd]
          decide
        · exact ⟨(hw.2 d hd).1, (hw.2 d hd).2.2.1⟩
      exact hy.inert hi

theorem query_singleton (c : Clause) : query [c] = c.source := joinWith_singleton _ _

theorem query_cons_cons (c d : Clause) (clauses : List Clause) :
    query (c :: d :: clauses) = c.source ++ ',' :: query (d :: clauses) := joinWith_cons_cons _ _ _

/-- The findings of the three passes in a canonical query. -/
theorem yields_query {clauses : List Clause} (h : ∀ c ∈ clauses, c.Canonical) :
    Yields (query clauses) (clauses.filterMap quoted?) (clauses.filterMap groupTerms?)
      (joinWith [','] (clauses.map plain)) := by
  refine parts_induction ?nil ?last ?more clauses h
  case nil => exact yields_nil
  case last =>
    intro c hc
    have hy := hc.yields ends_nil yields_nil
    rw [List.append_nil, List.append_nil, ← query_singleton] at hy
    rw [filterMap_cons_toList, filterMap_cons_toList]
    simpa using hy
  case more =>
    intro c d clauses hc hcs
    rw [filterMap_cons_toList quoted? c, filterMap_cons_toList groupTerms? c, query_cons_cons,
      List.map_cons, List.map_cons, joinWith_cons_cons, ← List.map_cons]
    exact hc.yields (ends_cons _) (hcs.inert (inert_comma _))

theorem pieceTerm?_nil : pieceTerm? [] = none := by decide

theorem trim_minus {t : Text} (h : IsTerm t) : trim ('-' :: t) = '-' :: t := by
  apply trimBoth_eq_self
  constructor
  · intro c hc
    cases hc
    decide
  · intro c hc
    rw [List.getLast?_cons_of_ne_nil h.ne_nil] at hc
    exact h.trimmed.last c hc

/-- A piece of the plain text gives back the bare term that left it. -/
theorem Canonical.pieceTerm?_plain {c : Clause} (h : c.Canonical) :
    pieceTerm? c.plain = c.bare? := by
  cases c with
  | group es => exact pieceTerm?_nil
  | term negated w =>
    have hw := h.written
    cases w with
    | quoted q t => exact pieceTerm?_nil
    | bare t =>
      have hn : normalize t = some t := hw.1
      have ht : Normal t := normal_of_normalize hn
      cases negated with
      | true =>
        change pieceTerm? ('-' :: t) = some (true, t)
        rw [pieceTerm?, trim_minus ht.toIsTerm]
        simp only [hn, Option.map_some]
      | false =>
        change pieceTerm? t = some (false, t)
        rw [pieceTerm?, ht.trim_eq]
        split
        · exact absurd rfl h.2
        · rw [hn]
          rfl

theorem Canonical.mem_plain {c : Clause} {x : Char} (h : c.Canonical) (hx : x ∈ c.plain) :
    IsLower x ∧ x ≠ ',' := by
  cases c with
  | group es => cases hx
  | term negated w =>
    have hw := h.written
    cases w with
    | quoted q t => cases hx
    | bare t =>
      rcases List.mem_append.1 hx with hx | hx
      · rw [eq_minus_of_mem hx]
        decide
      · exact ⟨hw.normal.lower x hx, (hw.2 x hx).2.1⟩

/-- The plain text of a canonical query is cut into what its clauses left there. -/
theorem bareTerms_plain {clauses : List Clause} (h : ∀ c ∈ clauses, c.Canonical) :
    bareTerms (joinWith [','] (clauses.map plain)) = clauses.filterMap bare? := by
  have hlower : ∀ x ∈ joinWith [','] (clauses.map plain), IsLower x := by
    intro x hx
    rcases mem_joinWith hx with rfl | ⟨part, hp, hx⟩
    · decide
    · obtain ⟨c, hc, rfl⟩ := List.mem_map.1 hp
      exact ((h c hc).mem_plain hx).1
  have hfree : ∀ part ∈ clauses.map plain, ',' ∉ part := by
    intro part hp hx
    obtain ⟨c, hc, rfl⟩ := List.mem_map.1 hp
    exact ((h c hc).mem_plain hx).2 rfl
  rw [bareTerms, fold_eq_self hlower]
  cases clauses with
  | nil => rfl
  | cons c clauses =>
    rw [pieces_joinWith _ (by simp) hfree, List.filterMap_map]
    apply List.filterMap_congr
    intro d hd
    exact (h d hd).pieceTerm?_plain

/-- Selecting by sign after reading is reading the terms of that sign. -/
theorem select_filterMap {sign : Bool} {f : Clause → Option Signed} {g : Clause → Option Text}
    (hg : ∀ c, g c = (f c).bind fun s => if s.1 = sign then some s.2 else none)
    (clauses : List Clause) : select sign (clauses.filterMap f) = clauses.filterMap g := by
  induction clauses with
  | nil => rfl
  | cons c clauses ih =>
    rw [List.filterMap_cons, List.filterMap_cons, hg c, ← ih]
    cases f c with
    | none => rfl
    | some s => by_cases hs : s.1 = sign <;> simp [select, hs]

theorem select_quoted (sign : Bool) (clauses : List Clause) :
    select sign (clauses.filterMap quoted?) = clauses.filterMap (quotedTerm? sign) := by
  apply select_filterMap
  intro c
  cases c with
  | group es => rfl
  | term negated w => cases w <;> rfl

theorem select_bare (sign : Bool) (clauses : List Clause) :
    select sign (clauses.filterMap bare?) = clauses.filterMap (bareTerm? sign) := by
  apply select_filterMap
  intro c
  cases c with
  | group es => rfl
  | term negated w => cases w <;> rfl

/-- A canonical query denotes what is written in it: the quoted terms in order and then the bare
ones, to include and to exclude, and the groups in order. -/
theorem compile_canonical_query (clauses : List Clause) (h : ∀ c ∈ clauses, c.Canonical) :
    compile (query clauses) =
      { includes := clauses.filterMap (quotedTerm? false) ++ clauses.filterMap (bareTerm? false)
        excludes := clauses.filterMap (quotedTerm? true) ++ clauses.filterMap (bareTerm? true)
        overrides := clauses.filterMap groupTerms? } := by
  simp only [(yields_query h).compile_eq, bareTerms_plain h, select_append, select_quoted, select_bare]

/-- A query with a comma, a parenthesis and a foreign quote in one quoted term, a parenthesis in
two others, and a term to exclude that begins with a minus sign. -/
def mixed : List Clause := [
  .term false (.bare ['x']),
  .term false (.quoted '"' ['a', ',', '(', 'i', '\'', 's']),
  .term true (.quoted '\'' ['b', ')']),
  .term true (.bare ['-', 'c']),
  .group [.quoted '"' ['d', ')'], .bare ['e']]]

theorem compile_mixed :
    (∀ c ∈ mixed, c.Canonical) ∧ compile (query mixed) =
      { includes := [['a', ',', '(', 'i', '\'', 's'], ['x']]
        excludes := [['b', ')'], ['-', 'c']]
        overrides := [[['d', ')'], ['e']]] } :=
  ⟨by decide +kernel, compile_canonical_query mixed (by decide +kernel)⟩

end Clause

end KeywordSieve.Query
