import KeywordSieve.Proofs.Isolation
import KeywordSieve.Query.Notice

/-!
Openings of groups that stay plain text. The notice about them goes by the last closing parenthesis
of the query and knows nothing of quotes. The tokens know of them: a parenthesis in a quoted run
closes no group, and an opening in a phrase opens none. So the notice misses an opening that only
quoted parentheses follow, and is given for an opening that a phrase has swallowed. Without such
quotes it says what the tokens say.
-/
namespace KeywordSieve.Query.Override

open Text Term Unicode

variable {s t after inside : Text}

/-- An opening stands in the text, with `inside` behind it. -/
def OpensAt (t inside : Text) : Prop :=
  ∃ front opening, IsOpening opening ∧ t = front ++ opening ++ inside

def Opens (t : Text) : Prop := ∃ inside, OpensAt t inside

theorem OpensAt.append_left (h : OpensAt t inside) (s : Text) : OpensAt (s ++ t) inside := by
  obtain ⟨front, opening, ho, rfl⟩ := h
  exact ⟨s ++ front, opening, ho, by simp⟩

theorem OpensAt.append_right (h : OpensAt t inside) (s : Text) : OpensAt (t ++ s) (inside ++ s) := by
  obtain ⟨front, opening, ho, rfl⟩ := h
  exact ⟨front, opening, ho, by simp⟩

theorem not_opensAt_nil : ¬ OpensAt [] inside := by
  rintro ⟨front, opening, ho, he⟩
  have hp := paren_mem_opening ho
  have hn : opening = [] := by simp_all
  rw [hn] at hp
  cases hp

/-- No letter, white space or parenthesis of an opening ends a construct, or is a minus sign. -/
theorem IsOpening.mem_plain {opening : Text} {c : Char} (h : IsOpening opening) (hc : c ∈ opening) :
    isQuote c = false ∧ c ≠ ')' ∧ c ≠ '-' := by
  have hw : ∀ x ∈ word, (isQuote x = false ∧ x ≠ ')' ∧ x ≠ '-') ∧
      isQuote x.toUpper = false ∧ x.toUpper ≠ ')' ∧ x.toUpper ≠ '-' := by
    simp [word, isQuote]
  rcases h.mem hc with ⟨x, hx, rfl | rfl⟩ | hb | rfl
  · exact (hw _ hx).1
  · exact (hw _ hx).2
  · refine ⟨?_, ?_, ?_⟩
    · apply Bool.eq_false_iff.2
      intro hq
      rw [isBlank_of_isQuote hq] at hb
      cases hb
    · rintro rfl
      revert hb
      decide
    · rintro rfl
      revert hb
      decide
  · decide

theorem Spells.solid {spelled : Text} {c : Char} (h : Spells spelled word) (hc : c ∈ spelled) :
    isBlank c = false := by
  have hw : word.all (fun x => !isBlank x && !isBlank x.toUpper) = true := by decide
  obtain ⟨x, hx, hcx⟩ := h.mem hc
  obtain ⟨hlow, hhigh⟩ := Bool.and_eq_true_iff.1 (List.all_eq_true.1 hw x hx)
  rcases hcx with rfl | rfl
  · simpa using hlow
  · simpa using hhigh

theorem IsOpening.head_solid {opening : Text} {c : Char} (h : IsOpening (c :: opening)) :
    isBlank c = false := by
  obtain ⟨spelled, blanks, hs, hb, he⟩ := h
  have hne : spelled ≠ [] := by
    rintro rfl
    cases hs
  obtain ⟨d, spelled, rfl⟩ := List.exists_cons_of_ne_nil hne
  cases he
  exact hs.solid (by simp)

/-- An opening is one word and a parenthesis, with nothing but white space between. -/
theorem IsOpening.countP_solid {opening : Text} (h : IsOpening opening) :
    opening.countP (fun c => !isBlank c) = word.length + 1 := by
  obtain ⟨spelled, blanks, hs, hb, rfl⟩ := h
  have hspelled : spelled.countP (fun c => !isBlank c) = spelled.length := by
    refine List.countP_eq_length.2 ?_
    intro c hc
    rw [hs.solid hc]
    rfl
  have hblanks : blanks.countP (fun c => !isBlank c) = 0 := by
    refine List.countP_eq_zero.2 ?_
    intro c hc
    simp [hb c hc]
  have hparen : ['('].countP (fun c => !isBlank c) = 1 := by decide
  rw [List.countP_append, List.countP_append, hspelled, hblanks, hparen, hs.length_eq]

/-- What the text ends in stands behind the opening, unless it is its parenthesis. -/
theorem OpensAt.last_mem {c : Char} (h : OpensAt (t ++ [c]) inside) (hc : c ≠ '(') : c ∈ inside := by
  obtain ⟨front, opening, ho, he⟩ := h
  rcases List.eq_nil_or_concat inside with rfl | ⟨within, d, rfl⟩
  · obtain ⟨word, -, rfl⟩ := ho.exists_eq
    rw [List.append_nil, ← List.append_assoc] at he
    exact absurd (List.singleton_inj.1 (List.append_inj' he rfl).2) hc
  · rw [List.concat_eq_append, ← List.append_assoc] at he
    rw [List.singleton_inj.1 (List.append_inj' he rfl).2]
    simp

/-- An opening in a text of two parts stands in one of them, or across the border. -/
theorem opensAt_append (h : OpensAt (s ++ after) inside) :
    OpensAt after inside ∨ (∃ within, OpensAt s within ∧ inside = within ++ after) ∨
      ∃ front x y, x ≠ [] ∧ y ≠ [] ∧ IsOpening (x ++ y) ∧ s = front ++ x ∧ after = y ++ inside := by
  obtain ⟨front, opening, ho, he⟩ := h
  rw [List.append_assoc] at he
  rcases List.append_eq_append_iff.1 he with ⟨m, rfl, rfl⟩ | ⟨m, rfl, hm⟩
  · left
    exact ⟨m, opening, ho, by simp⟩
  · rcases List.append_eq_append_iff.1 hm with ⟨within, rfl, rfl⟩ | ⟨y, rfl, rfl⟩
    · exact Or.inr (Or.inl ⟨within, ⟨front, opening, ho, by simp⟩, rfl⟩)
    · by_cases hx : m = []
      · subst hx
        exact Or.inl ⟨[], y, ho, rfl⟩
      by_cases hy : y = []
      · subst hy
        exact Or.inr (Or.inl ⟨[], ⟨front, m, by simpa using ho, by simp⟩, rfl⟩)
      · exact Or.inr (Or.inr ⟨front, m, y, hx, hy, ho, rfl, rfl⟩)

end KeywordSieve.Query.Override

namespace KeywordSieve.Query.Token

open Text Term Unicode Override

variable {t after inside rest : Text} {tokens : List Token} {token : Token} {kind : Kind}

/-- No construct starts inside an opening, for its one word has begun in front of there. -/
theorem not_starts_within {x y : Text} (h : IsOpening (x ++ y)) (hx : x ≠ []) (hy : y ≠ [])
    (inside : Text) : ¬ Starts (y ++ inside) := by
  rintro ⟨token, more, hc, he⟩
  obtain ⟨c, x, rfl⟩ := List.exists_cons_of_ne_nil hx
  cases hc with
  | @phrase negated q body hq hb hne =>
    obtain ⟨d, y, rfl⟩ := List.exists_cons_of_ne_nil hy
    obtain ⟨hd, -, hm⟩ := h.mem_plain (c := d) (by simp)
    cases negated
    · have hqd : d = q := by simpa [source] using congrArg List.head? he
      rw [hqd, hq] at hd
      cases hd
    · exact hm (by simpa [source] using congrArg List.head? he)
  | @override opening body ho hb =>
    obtain ⟨front, -, hf⟩ := h.exists_eq
    obtain ⟨u, d, rfl⟩ := (List.eq_nil_or_concat y).resolve_left hy
    rw [List.concat_eq_append] at *
    rw [← List.append_assoc] at hf
    have hd : d = '(' := List.singleton_inj.1 (List.append_inj' hf rfl).2
    have hu : u ++ '(' :: inside = opening ++ (body ++ ')' :: more) := by
      simpa [source, hd] using he
    have hp : opening <+: u ++ [d] := hd ▸ ho.isPrefix hu
    -- the word of the group would be a second one in the opening
    have hle := hp.sublist.countP_le (p := fun c => !isBlank c)
    have hsum := h.countP_solid
    rw [ho.countP_solid] at hle
    rw [List.cons_append, List.countP_cons, h.head_solid, List.countP_append, Bool.not_false,
      if_pos rfl] at hsum
    omega

/-- An opening stands in a token of a kind, with `inside` behind it in the query. -/
def OpensIn (kind : Kind) (tokens : List Token) (inside : Text) : Prop :=
  ∃ before token rest within, tokens = before ++ token :: rest ∧ token.kind = kind ∧
    OpensAt token.source within ∧ inside = within ++ rest.flatMap source

theorem OpensIn.cons (token : Token) (h : OpensIn kind tokens inside) :
    OpensIn kind (token :: tokens) inside := by
  obtain ⟨before, other, rest, within, rfl, hk, ho, rfl⟩ := h
  exact ⟨token :: before, other, rest, within, rfl, hk, ho, rfl⟩

theorem OpensIn.opensAt (h : OpensIn kind tokens inside) : OpensAt (tokens.flatMap source) inside := by
  obtain ⟨before, token, rest, within, rfl, -, ho, rfl⟩ := h
  rw [List.flatMap_append, List.flatMap_cons]
  exact (ho.append_right _).append_left _

/-- An opening that no parenthesis follows is not in a group, and within one token. -/
theorem Reads.opensIn (h : Reads t tokens) (ho : OpensAt t inside) (hn : ')' ∉ inside) :
    OpensIn .plain tokens inside ∨ OpensIn .phrase tokens inside := by
  induction h with
  | nil => exact absurd ho not_opensAt_nil
  | @construct token after rest hc hr ih =>
    rcases opensAt_append ho with hback | ⟨within, hin, rfl⟩ | ⟨front, x, y, hx, hy, hop, hs, -⟩
    · exact (ih hback).imp (.cons token) (.cons token)
    · cases hc with
      | phrase hq hb hne =>
        rw [← hr.flatMap_source]
        exact Or.inr ⟨[], _, rest, within, rfl, rfl, hin, rfl⟩
      | override _ _ => exact absurd (List.mem_append_left _ (hin.last_mem (by decide))) hn
    · -- the construct would end in a character of the opening
      obtain ⟨x, d, rfl⟩ := (List.eq_nil_or_concat x).resolve_left hx
      obtain ⟨front', c, hs', hends⟩ := hc.source_ends
      rw [hs', List.concat_eq_append, ← List.append_assoc] at hs
      obtain ⟨hq, hp, -⟩ := hop.mem_plain (c := d) (by simp)
      rw [List.singleton_inj.1 (List.append_inj' hs rfl).2] at hends
      rcases hends with hends | hends
      · rw [hq] at hends
        cases hends
      · exact absurd hends hp
  | @plain text after rest hne hi hh hr ih =>
    rcases opensAt_append ho with hback | ⟨within, hin, rfl⟩ | ⟨front, x, y, hx, hy, hop, hs, ha⟩
    · exact (ih hback).imp (.cons _) (.cons _)
    · rw [← hr.flatMap_source]
      exact Or.inl ⟨[], _, rest, within, rfl, rfl, hin, rfl⟩
    · exfalso
      cases hr with
      | nil => exact hy (List.append_eq_nil_iff.1 ha.symm).1
      | @construct token after' rest' hc _ =>
        exact not_starts_within hop hx hy inside (ha ▸ ⟨token, after', hc, rfl⟩)
      | @plain other _ _ _ _ _ _ => exact hh other rfl

theorem Reads.inert {text : Text} (h : Reads t (.plain text :: tokens)) :
    Inert (tokens.flatMap source) text := by
  cases h with
  | construct hc _ => cases hc
  | plain _ hi _ hr => rwa [hr.flatMap_source]

/-- No group closes behind an opening in plain text. -/
theorem Reads.not_isBody {body : Text} (h : Reads t tokens) (ho : OpensIn .plain tokens inside)
    (he : inside = body ++ ')' :: after) : ¬ IsBody (')' :: after) body := by
  intro hb
  obtain ⟨before, token, rest, within, rfl, hk, ⟨front, opening, hop, hs⟩, rfl⟩ := ho
  cases token with
  | phrase => cases hk
  | override => cases hk
  | plain text =>
    have hlen : front.length < text.length := by
      have hpos := List.length_pos_of_mem (paren_mem_opening hop)
      rw [show text = front ++ opening ++ within from hs, List.length_append, List.length_append]
      omega
    have hdrop : (text ++ rest.flatMap source).drop front.length =
        opening ++ (within ++ rest.flatMap source) := by
      rw [show text = front ++ opening ++ within from hs, List.append_assoc, List.append_assoc,
        List.drop_left]
    refine h.behind.inert front.length hlen ⟨.override opening body, after, .override hop hb, ?_⟩
    rw [hdrop, he]
    simp [source]

theorem exists_opensIn_plain_iff :
    (∃ inside, OpensIn .plain tokens inside) ↔ ∃ text, .plain text ∈ tokens ∧ Opens text := by
  constructor
  · rintro ⟨inside, before, token, rest, within, rfl, hk, ho, -⟩
    cases token with
    | phrase => cases hk
    | override => cases hk
    | plain text => exact ⟨text, by simp, within, ho⟩
  · rintro ⟨text, hm, within, ho⟩
    obtain ⟨before, rest, rfl⟩ := List.append_of_mem hm
    exact ⟨_, before, _, rest, within, rfl, rfl, ho, rfl⟩

end KeywordSieve.Query.Token

namespace KeywordSieve.Notice

open Text Term Query Override Token

variable {query : Text}

/-- An opening is left open if no parenthesis closes behind it, in a run or not. -/
theorem leavesOpen_iff {t : Text} :
    leavesOpen t = true ↔ ∃ inside, OpensAt t inside ∧ ')' ∉ inside := by
  induction t with
  | nil => simp [leavesOpen, not_opensAt_nil]
  | cons c rest ih =>
    rw [leavesOpen, Bool.or_eq_true, ih]
    constructor
    · rintro (h | ⟨inside, ho, hn⟩)
      · split at h
        · next inside hi =>
          obtain ⟨opening, ho, he⟩ := opening?_iff.1 hi
          exact ⟨inside, ⟨[], opening, ho, he⟩, by simpa using h⟩
        · cases h
      · exact ⟨inside, ho.append_left [c], hn⟩
    · rintro ⟨inside, ⟨front, opening, ho, he⟩, hn⟩
      cases front with
      | nil =>
        rw [opening?_iff.2 ⟨opening, ho, he⟩]
        exact Or.inl (by simpa using hn)
      | cons d front =>
        cases he
        exact Or.inr ⟨inside, ⟨front, opening, ho, rfl⟩, hn⟩

theorem openOverride_mem_ofQuery : openOverride ∈ ofQuery query ↔ leavesOpen query = true := by
  simp [ofQuery]

/-- The notice goes by the openings in plain text and in phrases. -/
theorem leavesOpen_iff_opensIn : leavesOpen query = true ↔
    ∃ inside, (OpensIn .plain (lex query) inside ∨ OpensIn .phrase (lex query) inside) ∧
      ')' ∉ inside := by
  rw [leavesOpen_iff]
  constructor
  · rintro ⟨inside, ho, hn⟩
    exact ⟨inside, (reads_lex query).opensIn ho hn, hn⟩
  · rintro ⟨inside, ho, hn⟩
    refine ⟨inside, ?_, hn⟩
    rw [← (reads_lex query).flatMap_source]
    exact ho.elim OpensIn.opensAt OpensIn.opensAt

/-- No parenthesis closes behind an opening in plain text if no quote stands in front of one. -/
theorem not_mem_of_opensIn {inside : Text} (ho : OpensIn .plain (lex query) inside)
    (h : ∀ front q behind, query = front ++ q :: behind → isQuote q = true → ')' ∉ behind) :
    ')' ∉ inside := by
  intro hm
  obtain ⟨body, after, he, hb⟩ := List.eq_append_cons_of_mem hm
  refine (reads_lex query).not_isBody ho he (isBody_of_closesNothing ?_ _)
  intro c hc
  refine ⟨?_, ?_⟩
  · apply Bool.eq_false_iff.2
    intro hq
    obtain ⟨u, v, rfl⟩ := List.append_of_mem hc
    obtain ⟨front, opening, -, ht⟩ := ho.opensAt
    rw [(reads_lex query).flatMap_source] at ht
    refine h (front ++ opening ++ u) c (v ++ ')' :: after) ?_ hq (by simp)
    simp [ht, he]
  · rintro rfl
    exact hb hc

/-- The notice is about openings in plain text or in a phrase that no closing parenthesis follows,
while plain text has the openings in it that no group closes. So it is given only for plain text if
no phrase holds an opening, and for all of it if no closing parenthesis stands behind a quote. -/
theorem openOverride_iff (query : Text) :
    (openOverride ∈ ofQuery query ↔
        ∃ inside, (OpensIn .plain (lex query) inside ∨ OpensIn .phrase (lex query) inside) ∧
          ')' ∉ inside) ∧
      ((∃ text, .plain text ∈ lex query ∧ Opens text) ↔
        ∃ inside, OpensIn .plain (lex query) inside ∧
          ∀ body after, inside = body ++ ')' :: after → ¬ IsBody (')' :: after) body) ∧
      ((∀ token ∈ lex query, token.kind = .phrase → ¬ Opens token.source) →
        openOverride ∈ ofQuery query → ∃ text, .plain text ∈ lex query ∧ Opens text) ∧
      ((∀ front q behind, query = front ++ q :: behind → isQuote q = true → ')' ∉ behind) →
        (∃ text, .plain text ∈ lex query ∧ Opens text) → openOverride ∈ ofQuery query) := by
  simp only [openOverride_mem_ofQuery, leavesOpen_iff_opensIn, ← exists_opensIn_plain_iff]
  refine ⟨trivial, ⟨?_, ?_⟩, ?_, ?_⟩
  · rintro ⟨inside, ho⟩
    exact ⟨inside, ho, fun body after => (reads_lex query).not_isBody ho⟩
  · rintro ⟨inside, ho, -⟩
    exact ⟨inside, ho⟩
  · rintro hphrase ⟨inside, hplain | ⟨before, token, rest, within, he, hk, ho, -⟩, -⟩
    · exact ⟨inside, hplain⟩
    · exact absurd ⟨within, ho⟩ (hphrase token (by simp [he]) hk)
  · rintro hquote ⟨inside, ho⟩
    exact ⟨inside, Or.inl ho, not_mem_of_opensIn ho hquote⟩

/-- A phrase, and a group in which a quote stays open. -/
def unfinished : Text := "-\"x\",EXCEPT (\"museum"

theorem openOverride_unfinished :
    (∀ token ∈ lex unfinished, token.kind = .phrase → ¬ Opens token.source) ∧
      (∀ front q behind, unfinished = front ++ q :: behind → isQuote q = true → ')' ∉ behind) ∧
      openOverride ∈ ofQuery unfinished ∧
      (openOverride ∈ ofQuery unfinished ↔ ∃ text, .plain text ∈ lex unfinished ∧ Opens text) := by
  have hphrase : ∀ token ∈ lex unfinished, token.kind = .phrase → ¬ Opens token.source := by
    have hl : lex unfinished = [.phrase true '"' "x", .plain ",EXCEPT (\"museum"] := by decide +kernel
    rw [hl, List.forall_mem_cons, List.forall_mem_singleton]
    refine ⟨?_, fun hk => by cases hk⟩
    rintro - ⟨inside, front, opening, ho, he⟩
    have hn : '(' ∉ (Token.phrase true '"' "x").source := by decide
    rw [he] at hn
    exact hn (by simp [paren_mem_opening ho])
  have hquote : ∀ front q behind, unfinished = front ++ q :: behind → isQuote q = true →
      ')' ∉ behind := by
    intro front q behind he _ hm
    have hn : ')' ∉ unfinished := by decide
    rw [he] at hn
    exact hn (by simp [hm])
  obtain ⟨-, -, hsound, hcomplete⟩ := openOverride_iff unfinished
  exact ⟨hphrase, hquote, by decide +kernel, hsound hphrase, hcomplete hquote⟩

/-- The closing parenthesis of the first query is inside quotes, and so is the opening of the second:
the one draws no notice, though its opening stays plain text, and the other one draws it for a
phrase. -/
theorem openOverride_quoted :
    (openOverride ∉ ofQuery "except(\"a)\"" ∧
        ∃ text, .plain text ∈ lex "except(\"a)\"" ∧ Opens text) ∧
      openOverride ∈ ofQuery "\"except(\"" ∧
        ¬ ∃ text, .plain text ∈ lex "\"except(\"" ∧ Opens text := by
  have hword : IsOpening "except(" :=
    ⟨word, [], List.forall₂_same.2 (fun _ _ => Or.inl rfl), by simp, rfl⟩
  have hl : lex "except(\"a)\"" = [.plain "except(", .phrase false '"' "a)"] := by decide +kernel
  have hl' : lex "\"except(\"" = [.phrase false '"' "except("] := by decide +kernel
  refine ⟨⟨by decide +kernel, "except(", ?_, [], [], "except(", hword, rfl⟩,
    by decide +kernel, ?_⟩
  · rw [hl]
    exact List.mem_cons_self
  · rintro ⟨text, hm, -⟩
    rw [hl'] at hm
    cases List.mem_singleton.1 hm

end KeywordSieve.Notice
