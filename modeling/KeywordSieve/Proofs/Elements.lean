import KeywordSieve.Proofs.Barriers
import KeywordSieve.Proofs.Constructs

/-!
The elements of a group and the commas between them. The commas that count are those outside quoted
runs, and between two of them stands a piece of the body. But a quoted run is seen only where an
element begins, so the elements are the pieces as long as each piece is tidy: one quoted run with
nothing but white space behind it, or text without a comma that begins with no run. A piece that is
not tidy is taken apart. In a body without quotes all pieces are elements, and white space around
the body counts for nothing.
-/
namespace KeywordSieve.Query

open Text

/-- A text that ends, or goes on with a comma. -/
def Ends (rest : Text) : Prop := ∀ c ∈ rest.head?, c = ','

theorem ends_nil : Ends [] := by
  intro c hc
  cases hc

theorem ends_cons (rest : Text) : Ends (',' :: rest) := by
  intro c hc
  cases hc
  rfl

end KeywordSieve.Query

namespace KeywordSieve.Query.Override

open Text Term Unicode

variable {q c : Char} {inner t rest after p : Text}

theorem elements_nil : elements [] = [] := by rw [elements]

theorem elements_comma (rest : Text) : elements (',' :: rest) = elements rest := by
  rw [elements, if_neg (by simp [isQuote]), if_pos rfl]

/-- A quoted run that begins an element is the element. -/
theorem elements_run (hq : isQuote q = true) (hi : q ∉ inner) :
    elements (q :: inner ++ q :: rest) = (q :: inner ++ [q]) :: elements rest := by
  have hm : q ∈ inner ++ q :: rest := by simp
  rw [List.cons_append, elements, if_pos ⟨hq, hm⟩, takeWhile_ne_append hi, dropWhile_ne_append hi]
  rfl

/-- Any other element reaches to the next comma, over quotes as well. -/
theorem elements_bare (hc : ',' ∉ c :: t) (hq : ¬ (isQuote c = true ∧ c ∈ t ++ after))
    (ha : Ends after) : elements (c :: t ++ after) = (c :: t) :: elements after := by
  have hne : c ≠ ',' := Ne.symm (List.ne_of_not_mem_cons hc)
  have ht : ',' ∉ t := List.not_mem_of_not_mem_cons hc
  have hstop : (t ++ after).takeWhile (· ≠ ',') = t ∧ (t ++ after).dropWhile (· ≠ ',') = after := by
    cases after with
    | nil =>
      rw [List.append_nil]
      exact ⟨takeWhile_ne_of_not_mem ht, dropWhile_ne_of_not_mem ht⟩
    | cons d after =>
      rw [ha d rfl]
      exact ⟨takeWhile_ne_append ht, dropWhile_ne_append ht⟩
  rw [List.cons_append, elements, if_neg hq, if_neg hne, hstop.1, hstop.2]

/-- The pieces between the commas outside quoted runs, with the quote of a run that is open. -/
def cutAfter (run : Option Char) : Text → List Text
  | [] => [[]]
  | c :: rest =>
    if run = none ∧ c = ',' then [] :: cutAfter none rest
    else (cutAfter (runAfter run c rest) rest).modifyHead (c :: ·)

/-- The pieces of a body. A quote with a partner behind it opens a run that ends at the partner, and
a comma in a run does not cut. -/
def cut (body : Text) : List Text := cutAfter none body

/-- Text in front of `after` that no comma cuts. -/
inductive Uncut (after : Text) : Text → Prop where
  | nil : Uncut after []
  | run {q : Char} {inner rest : Text} : isQuote q = true → q ∉ inner → Uncut after rest →
      Uncut after (q :: inner ++ q :: rest)
  | other {c : Char} {rest : Text} : c ≠ ',' → ¬ (isQuote c = true ∧ c ∈ rest ++ after) →
      Uncut after rest → Uncut after (c :: rest)

theorem cut_comma (rest : Text) : cut (',' :: rest) = [] :: cut rest := by simp [cut, cutAfter]

/-- A run that is open takes all up to its quote. -/
theorem cutAfter_run {first : Text} {more : List Text} (hi : q ∉ inner)
    (hc : cut rest = first :: more) :
    cutAfter (some q) (inner ++ q :: rest) = (inner ++ q :: first) :: more := by
  rw [cut] at hc
  induction inner with
  | nil => simp [cutAfter, runAfter, hc]
  | cons c inner ih =>
    have hne : c ≠ q := Ne.symm (List.ne_of_not_mem_cons hi)
    have hr := ih (List.not_mem_of_not_mem_cons hi)
    simp [cutAfter, runAfter, hne, hr]

/-- Text that no comma cuts goes to the first piece. -/
theorem Uncut.cut_append {first : Text} {more : List Text} (h : Uncut after p)
    (hc : cut after = first :: more) : cut (p ++ after) = (p ++ first) :: more := by
  induction h with
  | nil => exact hc
  | @run q inner rest hq hi _ ih =>
    have ha : runAfter none q (inner ++ q :: (rest ++ after)) = some q := by
      rw [runAfter, if_pos ⟨hq, by simp⟩]
    have hr := cutAfter_run hi ih
    rw [List.append_assoc, List.cons_append, List.cons_append, cut, cutAfter,
      if_neg (fun hb => ne_comma_of_isQuote hq hb.2), ha, hr]
    simp
  | @other c rest hne hq _ ih =>
    have ha : runAfter none c (rest ++ after) = none := by rw [runAfter, if_neg hq]
    rw [List.cons_append, cut, cutAfter, if_neg (fun hb => hne hb.2), ha, ← cut, ih]
    rfl

theorem cut_last (h : Uncut [] p) : cut p = [p] := by
  have hc := h.cut_append (show cut [] = [[]] from rfl)
  rwa [List.append_nil] at hc

theorem cut_more (h : Uncut (',' :: rest) p) : cut (p ++ ',' :: rest) = p :: cut rest := by
  have hc := h.cut_append (cut_comma rest)
  rwa [List.append_nil] at hc

/-- A body is one piece, or a piece, a comma and the rest. -/
theorem exists_first_piece (body : Text) :
    Uncut [] body ∨ ∃ p rest, Uncut (',' :: rest) p ∧ body = p ++ ',' :: rest := by
  induction hn : body.length using Nat.strongRecOn generalizing body with
  | ind n ih =>
    cases body with
    | nil => exact Or.inl .nil
    | cons c t =>
      rw [List.length_cons] at hn
      by_cases hcomma : c = ','
      · exact Or.inr ⟨[], t, .nil, by rw [hcomma, List.nil_append]⟩
      by_cases hq : isQuote c = true ∧ c ∈ t
      · obtain ⟨inner, more, rfl, hi⟩ := List.eq_append_cons_of_mem hq.2
        rw [List.length_append, List.length_cons] at hn
        rcases ih more.length (by omega) more rfl with hu | ⟨p, rest, hu, rfl⟩
        · exact Or.inl (.run hq.1 hi hu)
        · exact Or.inr ⟨c :: inner ++ c :: p, rest, .run hq.1 hi hu, by simp⟩
      · rcases ih t.length (by omega) t rfl with hu | ⟨p, rest, hu, rfl⟩
        · exact Or.inl (.other hcomma (by rwa [List.append_nil]) hu)
        · exact Or.inr ⟨c :: p, rest, .other hcomma hq hu, by simp⟩

/-- What is to show of a body follows from the last piece on. -/
theorem cut_induction {motive : Text → Prop} (last : ∀ p, Uncut [] p → motive p)
    (more : ∀ p rest, Uncut (',' :: rest) p → motive rest → motive (p ++ ',' :: rest))
    (body : Text) : motive body := by
  induction hn : body.length using Nat.strongRecOn generalizing body with
  | ind n ih =>
    rcases exists_first_piece body with hu | ⟨p, rest, hu, rfl⟩
    · exact last body hu
    · rw [List.length_append, List.length_cons] at hn
      exact more p rest hu (ih rest.length (by omega) rest rfl)

/-- A piece that is taken as one element, or as nothing: a quoted run with nothing but white space
behind it, or text without a comma that begins with no run. -/
inductive Tidy : Text → Prop where
  | quoted {q : Char} {inner blanks : Text} : isQuote q = true → q ∉ inner →
      (∀ c ∈ blanks, isBlank c = true) → Tidy (q :: inner ++ q :: blanks)
  | bare {piece : Text} : ',' ∉ piece →
      (∀ q rest, piece = q :: rest → isQuote q = true → q ∉ rest) → Tidy piece

/-- What the texts have between white space, if anything. -/
def solid (texts : List Text) : List Text := (texts.map trim).filter (· ≠ [])

theorem solid_cons_of_nil {texts : List Text} (h : trim t = []) :
    solid (t :: texts) = solid texts := by
  simp [solid, h]

theorem solid_cons_of_ne {texts : List Text} (h : trim t ≠ []) :
    solid (t :: texts) = trim t :: solid texts := by
  simp [solid, h]

theorem solid_cons_congr {u : Text} {texts others : List Text} (ht : trim t = trim u)
    (h : solid texts = solid others) : solid (t :: texts) = solid (u :: others) := by
  by_cases hn : trim u = []
  · rw [solid_cons_of_nil (ht.trans hn), solid_cons_of_nil hn, h]
  · rw [solid_cons_of_ne (ht ▸ hn), solid_cons_of_ne hn, ht, h]

/-- White space counts for nothing in a term. -/
theorem filterMap_normalize_solid (texts : List Text) :
    (solid texts).filterMap normalize = texts.filterMap normalize := by
  induction texts with
  | nil => rfl
  | cons t texts ih =>
    have hn := normalize_trim t
    by_cases ht : trim t = []
    · rw [ht] at hn
      rw [solid_cons_of_nil ht, ih, List.filterMap_cons, ← hn]
      rfl
    · rw [solid_cons_of_ne ht, List.filterMap_cons, List.filterMap_cons, hn, ih]

theorem trim_quoted_blanks {blanks : Text} (hq : isQuote q = true)
    (hb : ∀ c ∈ blanks, isBlank c = true) :
    trim (q :: inner ++ q :: blanks) = q :: inner ++ [q] := by
  have hs : q :: inner ++ q :: blanks = [] ++ (q :: inner ++ [q]) ++ blanks := by simp
  rw [trim, hs, trimBoth_wrapped (by simp) hb (trimmed_quoted hq inner)]

theorem solid_elements_blanks {blanks : Text} (hb : ∀ c ∈ blanks, isBlank c = true)
    (ha : Ends after) : solid (elements (blanks ++ after)) = solid (elements after) := by
  cases blanks with
  | nil => rfl
  | cons c t =>
    have hcomma : ',' ∉ c :: t := by
      intro hm
      have hc := hb ',' hm
      revert hc
      decide
    have hq : ¬ isQuote c = true := by
      intro hq
      have hc := isBlank_of_isQuote hq
      rw [hb c (by simp)] at hc
      cases hc
    rw [elements_bare hcomma (fun h => hq h.1) ha, solid_cons_of_nil (trimBoth_eq_nil hb)]

/-- A tidy piece is taken as one element, but for white space. -/
theorem Tidy.solid_elements (hp : Tidy p) (hu : Uncut after p) (ha : Ends after) :
    solid (elements (p ++ after)) = solid (p :: elements after) := by
  cases hp with
  | @quoted q inner blanks hq hi hb =>
    have hs : q :: inner ++ q :: blanks ++ after = q :: inner ++ q :: (blanks ++ after) := by simp
    rw [hs, elements_run hq hi]
    apply solid_cons_congr
    · rw [trim_quoted hq, trim_quoted_blanks hq hb]
    · exact solid_elements_blanks hb ha
  | bare hcomma hrun =>
    cases hu with
    | nil => rw [List.nil_append, solid_cons_of_nil rfl]
    | run hq hi => exact absurd (by simp) (hrun _ _ rfl hq)
    | other hne hq => rw [elements_bare hcomma hq ha]

/-- In front of a comma that does not cut stands a quote. -/
theorem Uncut.exists_quote {front back : Text} (hu : Uncut after p)
    (he : p = front ++ ',' :: back) : ∃ q ∈ front, isQuote q = true := by
  induction hu generalizing front with
  | nil => simp at he
  | @run q inner rest hq hi _ _ =>
    cases front with
    | nil => exact absurd (List.cons.inj he).1 (ne_comma_of_isQuote hq)
    | cons d front =>
      rw [← (List.cons.inj he).1]
      exact ⟨q, by simp, hq⟩
  | @other c rest hne _ _ ih =>
    cases front with
    | nil => exact absurd (List.cons.inj he).1 hne
    | cons d front =>
      obtain ⟨q, hm, hq⟩ := ih (List.cons.inj he).2
      exact ⟨q, List.mem_cons_of_mem d hm, hq⟩

theorem trim_eq_of_solid_eq {u : Text} {texts others : List Text} (ht : trim t ≠ [])
    (hu : trim u ≠ []) (h : solid (t :: texts) = solid (u :: others)) : trim t = trim u := by
  rw [solid_cons_of_ne ht, solid_cons_of_ne hu] at h
  exact (List.cons.inj h).1

/-- Where a piece goes on behind the run that it begins with, the run is an element of its own. -/
theorem solid_ne_of_run {tail : Text} (hq : isQuote q = true) (hi : q ∉ inner)
    (hp : ¬ Tidy (q :: inner ++ q :: tail)) (texts : List Text) :
    solid (elements (q :: inner ++ q :: tail ++ after)) ≠
      solid ((q :: inner ++ q :: tail) :: texts) := by
  have hs : q :: inner ++ q :: tail ++ after = q :: inner ++ q :: (tail ++ after) := by simp
  obtain ⟨u, hu⟩ : ∃ u, trim (q :: inner ++ q :: tail) = q :: u :=
    trimBoth_cons (isBlank_of_isQuote hq) (inner ++ q :: tail)
  rw [hs, elements_run hq hi]
  intro he
  have hrun : trim (q :: inner ++ [q]) ≠ [] := by
    rw [trim_quoted hq]
    exact List.cons_ne_nil _ _
  have hpiece : trim (q :: inner ++ q :: tail) ≠ [] := by
    rw [hu]
    exact List.cons_ne_nil q u
  have ht := trim_eq_of_solid_eq hrun hpiece he
  obtain ⟨left, right, hl, hr, hsplit⟩ := exists_surround isBlank (q :: inner ++ q :: tail)
  change _ = left ++ trim (q :: inner ++ q :: tail) ++ right at hsplit
  rw [← ht, trim_quoted hq] at hsplit
  cases left with
  | nil =>
    have htail : tail = right := by simpa using hsplit
    exact hp (.quoted hq hi (htail ▸ hr))
  | cons d left =>
    have hd := hl d (by simp)
    rw [← (List.cons.inj hsplit).1, isBlank_of_isQuote hq] at hd
    cases hd

/-- Where a piece begins with no run, its first comma ends an element. -/
theorem solid_ne_of_comma (hu : Uncut after (c :: t)) (hq : ¬ (isQuote c = true ∧ c ∈ t ++ after))
    (hne : c ≠ ',') (hm : ',' ∈ t) (texts : List Text) :
    solid (elements (c :: t ++ after)) ≠ solid ((c :: t) :: texts) := by
  obtain ⟨front, back, rfl, hf⟩ := List.eq_append_cons_of_mem hm
  have hcomma : ',' ∉ c :: front := List.not_mem_cons_of_ne_of_not_mem (Ne.symm hne) hf
  have hs : c :: (front ++ ',' :: back) ++ after = c :: front ++ ',' :: (back ++ after) := by simp
  rw [hs, elements_bare hcomma (by simpa using hq) (ends_cons _)]
  obtain ⟨q, hqm, hquote⟩ : ∃ q ∈ c :: front, isQuote q = true := hu.exists_quote rfl
  have hqt : q ∈ trim (c :: front) := mem_trimBoth hqm (isBlank_of_isQuote hquote)
  have hct : ',' ∈ trim (c :: (front ++ ',' :: back)) := mem_trimBoth (by simp) (by decide)
  intro he
  have ht := trim_eq_of_solid_eq (List.ne_nil_of_mem hqt) (List.ne_nil_of_mem hct) he
  rw [← ht] at hct
  exact hcomma ((trimBoth_isInfix isBlank _).subset hct)

/-- Of an untidy piece something else is taken. -/
theorem solid_elements_of_not_tidy (hp : ¬ Tidy p) (hu : Uncut after p) (texts : List Text) :
    solid (elements (p ++ after)) ≠ solid (p :: texts) := by
  have hu' := hu
  cases hu with
  | nil => exact absurd (.bare (by simp) (by simp)) hp
  | run hq hi => exact solid_ne_of_run hq hi hp texts
  | @other c rest hne hq hr =>
    apply solid_ne_of_comma hu' hq hne
    by_contra hm
    refine hp (.bare (List.not_mem_cons_of_ne_of_not_mem (Ne.symm hne) hm) ?_)
    intro q tail he hquote hmem
    cases he
    exact hq ⟨hquote, List.mem_append_left after hmem⟩

theorem solid_cons_inj {texts others : List Text} :
    solid (t :: texts) = solid (t :: others) ↔ solid texts = solid others := by
  by_cases ht : trim t = []
  · rw [solid_cons_of_nil ht, solid_cons_of_nil ht]
  · rw [solid_cons_of_ne ht, solid_cons_of_ne ht, List.cons.injEq, and_iff_right rfl]

theorem solid_elements_iff (hu : Uncut after p) (ha : Ends after) {texts : List Text} :
    solid (elements (p ++ after)) = solid (p :: texts) ↔
      Tidy p ∧ solid (elements after) = solid texts := by
  by_cases hp : Tidy p
  · rw [hp.solid_elements hu ha, solid_cons_inj, and_iff_right hp]
  · exact iff_of_false (solid_elements_of_not_tidy hp hu texts) (fun h => hp h.1)

/-- A body is taken apart at the commas outside its quoted runs exactly if each piece is tidy. -/
theorem solid_elements_eq_iff (body : Text) :
    solid (elements body) = solid (cut body) ↔ ∀ piece ∈ cut body, Tidy piece := by
  induction body using cut_induction with
  | last p hu =>
    have hp : solid (elements (p ++ [])) = solid [p] ↔ Tidy p ∧ solid (elements []) = solid [] :=
      solid_elements_iff hu ends_nil
    rw [List.append_nil, elements_nil, and_iff_left rfl] at hp
    rw [cut_last hu, List.forall_mem_singleton, hp]
  | more p rest hu ih =>
    rw [cut_more hu, List.forall_mem_cons, ← ih, solid_elements_iff hu (ends_cons rest),
      elements_comma]

def Unquoted (t : Text) : Prop := ∀ c ∈ t, isQuote c = false

theorem solid_elements_append {p after : Text} (hp : ',' ∉ p) (hq : Unquoted p) (ha : Ends after) :
    solid (elements (p ++ after)) = solid (p :: elements after) := by
  cases p with
  | nil => rw [List.nil_append, solid_cons_of_nil rfl]
  | cons c p =>
    have hc : isQuote c = false := hq c (by simp)
    rw [elements_bare hp (by simp [hc]) ha]

/-- A body without quotes is cut at each of its commas. -/
theorem solid_elements_unquoted {t : Text} (h : Unquoted t) :
    solid (elements t) = solid (pieces ',' t) := by
  induction t using pieces_induction ',' with
  | last p hp =>
    have hs := solid_elements_append hp h ends_nil
    rwa [List.append_nil, elements_nil, ← pieces_of_not_mem hp] at hs
  | more p rest hp ih =>
    obtain ⟨hq, hr⟩ := List.forall_mem_append.1 h
    rw [solid_elements_append hp hq (ends_cons rest), elements_comma, pieces_append_cons rest hp]
    exact solid_cons_congr rfl (ih (List.forall_mem_cons.1 hr).2)

/-- White space around a text only stands around its first and its last piece. -/
theorem solid_pieces_surround {left right : Text} (hl : ∀ c ∈ left, isBlank c = true)
    (hr : ∀ c ∈ right, isBlank c = true) (t : Text) :
    solid (pieces ',' (left ++ t ++ right)) = solid (pieces ',' t) := by
  have hblank : isBlank ',' = false := by decide
  have hcomma : ∀ blanks : Text, (∀ c ∈ blanks, isBlank c = true) → ',' ∉ blanks := by
    intro blanks hb hm
    rw [hb ',' hm] at hblank
    cases hblank
  induction t using pieces_induction ',' generalizing left with
  | last p hp =>
    have hm : ',' ∉ left ++ p ++ right := by simp [hcomma left hl, hp, hcomma right hr]
    rw [pieces_of_not_mem hm, pieces_of_not_mem hp]
    exact solid_cons_congr (trimBoth_surround hl hr p) rfl
  | more p rest hp ih =>
    have hm : ',' ∉ left ++ p := by simp [hcomma left hl, hp]
    have hs : left ++ (p ++ ',' :: rest) ++ right = left ++ p ++ ',' :: ([] ++ rest ++ right) := by
      simp
    rw [hs, pieces_append_cons _ hm, pieces_append_cons _ hp]
    refine solid_cons_congr ?_ (ih (by simp))
    have ht := trimBoth_surround hl (by simp : ∀ c ∈ ([] : Text), isBlank c = true) p
    rwa [List.append_nil] at ht

/-- White space at the ends of a body without quotes counts for nothing. -/
theorem terms_trim {t : Text} (h : Unquoted t) : terms (trim t) = terms t := by
  have hu : Unquoted (trim t) := fun c hc => h c ((trimBoth_isInfix isBlank t).subset hc)
  obtain ⟨left, right, hl, hr, he⟩ := exists_surround isBlank t
  have hs : solid (elements t) = solid (elements (trim t)) := by
    calc solid (elements t) = solid (pieces ',' t) := solid_elements_unquoted h
      _ = solid (pieces ',' (left ++ trim t ++ right)) := congrArg (solid ∘ pieces ',') he
      _ = solid (pieces ',' (trim t)) := solid_pieces_surround hl hr (trim t)
      _ = solid (elements (trim t)) := (solid_elements_unquoted hu).symm
  rw [terms, terms, ← filterMap_normalize_solid, ← filterMap_normalize_solid (elements t), hs]

/-- The terms of a body are those of its pieces if each piece is tidy, and the pieces are tidy if
and only if the elements are the pieces, but for white space. -/
theorem terms_eq_of_tidy (body : Text) :
    (solid (elements body) = solid (cut body) ↔ ∀ piece ∈ cut body, Tidy piece) ∧
      ((∀ piece ∈ cut body, Tidy piece) → terms body = (cut body).filterMap normalize) := by
  refine ⟨solid_elements_eq_iff body, ?_⟩
  intro h
  rw [terms, ← filterMap_normalize_solid, (solid_elements_eq_iff body).2 h,
    filterMap_normalize_solid]

/-- Two elements, the first of them quoted, with a comma in it and white space behind it. -/
def padded : Text := "\"a, b\" ,c\"d"

theorem terms_padded :
    (∀ piece ∈ cut padded, Tidy piece) ∧ terms padded = (["a, b", "c\"d"] : List Text) := by
  have htidy : ∀ piece ∈ cut padded, Tidy piece := by
    have hc : cut padded = (["\"a, b\" ", "c\"d"] : List Text) := by decide +kernel
    rw [hc, List.forall_mem_cons, List.forall_mem_singleton]
    constructor
    · have hb : ∀ c ∈ [' '], isBlank c = true := List.forall_mem_singleton.2 (by decide)
      exact @Tidy.quoted '"' "a, b" [' '] (by decide) (by decide) hb
    · refine .bare (by decide) ?_
      intro q rest he hq
      cases he
      cases hq
  exact ⟨htidy, ((terms_eq_of_tidy padded).2 htidy).trans (by decide +kernel)⟩

/-- Two elements, the second of them quoted, with a comma in it and white space in front of it. -/
def spaced : Text := "a, \"b,c\""

/-- White space in front of a quoted run hides it, and its comma ends an element. -/
theorem terms_spaced :
    terms spaced = (["a", "b", "c"] : List Text) ∧
      terms spaced ≠ (cut spaced).filterMap normalize := by
  constructor <;> decide +kernel

end KeywordSieve.Query.Override
