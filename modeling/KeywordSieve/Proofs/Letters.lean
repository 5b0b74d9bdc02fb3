import KeywordSieve.Proofs.Elements
import KeywordSieve.Proofs.Reading
import KeywordSieve.Verdict

/-!
The case of ASCII letters does not count. Writing all of them small commutes with every step that
reads a query, because the signs and the word that a query is built from are compared without case
or are no letters; and it changes nothing in a folded text, because a letter stays a letter for the
sigma next to it. So texts that become equal in small letters denote the same filter, and are the
same to every filter.
-/
namespace KeywordSieve.Text

open Unicode Term

def smallLetters (t : Text) : Text := t.map smallAscii

@[simp] theorem smallLetters_nil : smallLetters [] = [] := rfl

@[simp] theorem smallLetters_cons (c : Char) (t : Text) :
    smallLetters (c :: t) = smallAscii c :: smallLetters t := rfl

@[simp] theorem smallLetters_append (s t : Text) :
    smallLetters (s ++ t) = smallLetters s ++ smallLetters t := List.map_append

@[simp] theorem length_smallLetters (t : Text) : (smallLetters t).length = t.length :=
  List.length_map smallAscii

def capitals : List Char := (List.range 26).map fun n => Char.ofNat (65 + n)

theorem mem_capitals {c : Char} (hlow : 65 ≤ c.toNat) (hhigh : c.toNat ≤ 90) : c ∈ capitals := by
  refine List.mem_map.2 ⟨c.toNat - 65, List.mem_range.2 (by omega), ?_⟩
  rw [Nat.add_sub_cancel' hlow, Char.ofNat_toNat]

/-- What holds the capitals and their small letters to be the same does so for all characters. -/
theorem apply_smallAscii {α : Type} (f : Char → α)
    (h : capitals.map (fun c => f (smallAscii c)) = capitals.map f) (c : Char) :
    f (smallAscii c) = f c := by
  by_cases hc : 65 ≤ c.toNat ∧ c.toNat ≤ 90
  · exact List.map_inj_left.1 h c (mem_capitals hc.1 hc.2)
  · have hs : smallAscii c = c := by
      rw [← Char.toNat_inj, smallAscii_toNat, if_neg hc]
    rw [hs]

@[simp] theorem smallAscii_smallAscii (c : Char) : smallAscii (smallAscii c) = smallAscii c :=
  apply_smallAscii smallAscii (by decide +kernel) c

@[simp] theorem isBlank_smallAscii (c : Char) : isBlank (smallAscii c) = isBlank c :=
  apply_smallAscii isBlank (by decide +kernel) c

@[simp] theorem isQuote_smallAscii (c : Char) : isQuote (smallAscii c) = isQuote c :=
  apply_smallAscii isQuote (by decide +kernel) c

@[simp] theorem isCased_smallAscii (c : Char) : isCased (smallAscii c) = isCased c :=
  apply_smallAscii isCased (by decide +kernel) c

@[simp] theorem isCaseIgnorable_smallAscii (c : Char) :
    isCaseIgnorable (smallAscii c) = isCaseIgnorable c :=
  apply_smallAscii isCaseIgnorable (by decide +kernel) c

@[simp] theorem lower_smallAscii (c : Char) : lower (smallAscii c) = lower c :=
  apply_smallAscii lower (by decide +kernel) c

/-- The character is no ASCII letter. -/
def IsSign (d : Char) : Prop := d ∉ capitals ∧ d ∉ smallLetters capitals

instance (d : Char) : Decidable (IsSign d) := inferInstanceAs (Decidable (_ ∧ _))

theorem isSign_of_isQuote {q : Char} (h : isQuote q = true) : IsSign q := by
  rcases isQuote_iff.1 h with rfl | rfl <;> decide

variable {d : Char} {p : Char → Bool}

theorem smallAscii_eq_sign (hd : IsSign d) (c : Char) : smallAscii c = d ↔ c = d := by
  have hs : ∀ c ∈ capitals, decide (smallAscii c = d) = decide (c = d) := by
    intro c hc
    have hsmall : smallAscii c ≠ d := by
      rintro rfl
      exact hd.2 (List.mem_map_of_mem hc)
    have hcapital : c ≠ d := by
      rintro rfl
      exact hd.1 hc
    rw [decide_eq_false hsmall, decide_eq_false hcapital]
  exact decide_eq_decide.1 (apply_smallAscii (fun c => decide (c = d)) (List.map_inj_left.2 hs) c)

theorem smallAscii_sign (hd : IsSign d) : smallAscii d = d := (smallAscii_eq_sign hd d).2 rfl

theorem sign_mem_smallLetters (hd : IsSign d) (t : Text) : d ∈ smallLetters t ↔ d ∈ t := by
  simp [smallLetters, smallAscii_eq_sign hd]

theorem ne_sign_smallAscii (hd : IsSign d) (c : Char) :
    decide (smallAscii c ≠ d) = decide (c ≠ d) := by
  rw [decide_eq_decide, ne_eq, ne_eq, smallAscii_eq_sign hd]

theorem dropWhile_smallLetters (hp : ∀ c, p (smallAscii c) = p c) (t : Text) :
    (smallLetters t).dropWhile p = smallLetters (t.dropWhile p) := by
  have hc : p ∘ smallAscii = p := funext hp
  rw [smallLetters, List.dropWhile_map, hc]
  rfl

theorem dropWhile_ne_smallLetters (hd : IsSign d) (t : Text) :
    (smallLetters t).dropWhile (· ≠ d) = smallLetters (t.dropWhile (· ≠ d)) :=
  dropWhile_smallLetters (ne_sign_smallAscii hd) t

theorem takeWhile_ne_smallLetters (hd : IsSign d) (t : Text) :
    (smallLetters t).takeWhile (· ≠ d) = smallLetters (t.takeWhile (· ≠ d)) := by
  have hc : (fun c => decide (c ≠ d)) ∘ smallAscii = fun c => decide (c ≠ d) :=
    funext (ne_sign_smallAscii hd)
  rw [smallLetters, List.takeWhile_map, hc]
  rfl

theorem trim_smallLetters (t : Text) : trim (smallLetters t) = smallLetters (trim t) := by
  have hr : ∀ u : Text, (smallLetters u).reverse = smallLetters u.reverse := fun _ =>
    List.map_reverse.symm
  rw [trim, trim, trimBoth, trimBoth, dropWhile_smallLetters isBlank_smallAscii, hr,
    dropWhile_smallLetters isBlank_smallAscii, hr]

theorem meetsCased_smallLetters (t : Text) : meetsCased (smallLetters t) = meetsCased t := by
  unfold meetsCased
  rw [dropWhile_smallLetters isCaseIgnorable_smallAscii]
  cases t.dropWhile isCaseIgnorable with
  | nil => rfl
  | cons c rest => exact isCased_smallAscii c

theorem foldChar_smallLetters (before after : Text) (c : Char) :
    foldChar (smallLetters before) (smallLetters after) (smallAscii c) =
      foldChar before after c := by
  simp only [foldChar, meetsCased_smallLetters, lower_smallAscii,
    smallAscii_eq_sign (show IsSign capitalSigma by decide)]

theorem foldAfter_smallLetters (before t : Text) :
    foldAfter (smallLetters before) (smallLetters t) = foldAfter before t := by
  induction t generalizing before with
  | nil => rfl
  | cons c rest ih =>
    have hr := ih (c :: before)
    rw [smallLetters_cons] at hr ⊢
    rw [foldAfter, foldAfter, foldChar_smallLetters, hr]

/-- Folding makes all letters small, whatever they were. -/
theorem fold_smallLetters (t : Text) : fold (smallLetters t) = fold t := foldAfter_smallLetters [] t

end KeywordSieve.Text

namespace KeywordSieve.Term

open Text

theorem normalize_smallLetters (t : Text) : normalize (smallLetters t) = normalize t := by
  rw [normalize, normalize, fold_smallLetters]

theorem searchText_smallLetters (title summary : Option Text) :
    searchText (title.map smallLetters) (summary.map smallLetters) = searchText title summary := by
  have hd : ∀ o : Option Text, (o.map smallLetters).getD [] = smallLetters (o.getD []) := by
    intro o
    cases o <;> rfl
  have hs := fold_smallLetters (title.getD [] ++ ' ' :: summary.getD [])
  rwa [smallLetters_append, smallLetters_cons, ← hd, ← hd] at hs

end KeywordSieve.Term

namespace KeywordSieve.Query.Override

open Text Term Unicode

theorem dropWord_smallLetters (w t : Text) :
    dropWord w (smallLetters t) = (dropWord w t).map smallLetters := by
  induction w generalizing t with
  | nil => rfl
  | cons x w ih =>
    cases t with
    | nil => rfl
    | cons c rest =>
      rw [smallLetters_cons, dropWord, dropWord, smallAscii_smallAscii, ih]
      split <;> rfl

theorem opening?_smallLetters (t : Text) :
    opening? (smallLetters t) = (opening? t).map smallLetters := by
  have hparen := smallAscii_eq_sign (show IsSign '(' by decide)
  unfold opening?
  rw [dropWord_smallLetters]
  cases dropWord word t with
  | none => rfl
  | some rest =>
    simp only [Option.map_some, dropWhile_smallLetters isBlank_smallAscii]
    cases rest.dropWhile isBlank with
    | nil => rfl
    | cons c inside =>
      by_cases hc : c = '('
      · subst hc
        rfl
      · simp [hc, hparen]

/-- A quoted run opens at the same characters. -/
theorem opens_smallLetters (c : Char) (rest : Text) :
    (isQuote (smallAscii c) = true ∧ smallAscii c ∈ smallLetters rest) ↔
      (isQuote c = true ∧ c ∈ rest) := by
  rw [isQuote_smallAscii]
  refine and_congr_right ?_
  intro hq
  have hs := isSign_of_isQuote hq
  rw [smallAscii_sign hs, sign_mem_smallLetters hs]

theorem runAfter_smallLetters {run : Option Char} (hr : ∀ q ∈ run, isQuote q = true) (c : Char)
    (rest : Text) : runAfter run (smallAscii c) (smallLetters rest) = runAfter run c rest := by
  cases run with
  | some q => simp only [runAfter, smallAscii_eq_sign (isSign_of_isQuote (hr q rfl))]
  | none =>
    simp only [runAfter, opens_smallLetters]
    split
    · next hq => rw [smallAscii_sign (isSign_of_isQuote hq.1)]
    · rfl

theorem close?_smallLetters {run : Option Char} (hr : ∀ q ∈ run, isQuote q = true) (t : Text) :
    close? run (smallLetters t) = (close? run t).map (Prod.map smallLetters smallLetters) := by
  induction t generalizing run with
  | nil => rfl
  | cons c rest ih =>
    have hnext : ∀ q ∈ runAfter run c rest, isQuote q = true := fun q => isQuote_of_runAfter hr
    rw [smallLetters_cons, close?, close?, runAfter_smallLetters hr, ih hnext]
    simp only [smallAscii_eq_sign (show IsSign ')' by decide)]
    split
    · rfl
    · rw [Option.map_map, Option.map_map]
      rfl

theorem elements_smallLetters (t : Text) :
    elements (smallLetters t) = (elements t).map smallLetters := by
  have hcomma := show IsSign ',' by decide
  fun_induction elements t with
  | case1 => rw [smallLetters_nil, elements_nil, List.map_nil]
  | case2 c rest h ih =>
    have hs := isSign_of_isQuote h.1
    have hc := smallAscii_sign hs
    have hrest : (smallLetters (rest.dropWhile (· ≠ c))).drop 1 =
        smallLetters ((rest.dropWhile (· ≠ c)).drop 1) := List.map_drop.symm
    rw [smallLetters_cons, elements, if_pos ((opens_smallLetters c rest).2 h), hc,
      takeWhile_ne_smallLetters hs, dropWhile_ne_smallLetters hs, hrest, ih, List.map_cons,
      List.cons_append, List.cons_append, smallLetters_cons, smallLetters_append, smallLetters_cons,
      hc, smallLetters_nil]
  | case3 rest h ih =>
    rw [smallLetters_cons, smallAscii_sign hcomma, elements_comma, ih]
  | case4 c rest h hc ih =>
    rw [smallLetters_cons, elements, if_neg (mt (opens_smallLetters c rest).1 h),
      if_neg (mt (smallAscii_eq_sign hcomma c).1 hc),
      takeWhile_ne_smallLetters hcomma, dropWhile_ne_smallLetters hcomma, ih]
    rfl

theorem terms_smallLetters (t : Text) : terms (smallLetters t) = terms t := by
  have hn : normalize ∘ smallLetters = normalize := funext normalize_smallLetters
  rw [terms, terms, elements_smallLetters, List.filterMap_map, hn]

end KeywordSieve.Query.Override

namespace KeywordSieve.Query.Token

open Text Term Override

def small : Token → Token
  | phrase negated quote body => phrase negated quote (smallLetters body)
  | override opening body => override (smallLetters opening) (smallLetters body)
  | plain text => plain (smallLetters text)

theorem override?_smallLetters (t : Text) :
    override? (smallLetters t) = (override? t).map (Prod.map small smallLetters) := by
  unfold override?
  rw [opening?_smallLetters]
  cases opening? t with
  | none => rfl
  | some inside =>
    have hnone : ∀ q ∈ (none : Option Char), isQuote q = true := by simp
    have hc := close?_smallLetters hnone inside
    have ht : ∀ n, (smallLetters t).take n = smallLetters (t.take n) := fun _ => List.map_take.symm
    simp only [Option.map_some, hc, Option.map_map, length_smallLetters, ht]
    rfl

theorem phrase?_smallLetters (negated : Bool) (t : Text) :
    phrase? negated (smallLetters t) = (phrase? negated t).map (Prod.map small smallLetters) := by
  cases t with
  | nil => rfl
  | cons q rest =>
    by_cases hq : isQuote q = true
    · have hs := isSign_of_isQuote hq
      rw [smallLetters_cons, smallAscii_sign hs, phrase?, phrase?, if_pos hq, if_pos hq,
        takeWhile_ne_smallLetters hs, dropWhile_ne_smallLetters hs]
      cases rest.takeWhile (· ≠ q) <;> cases rest.dropWhile (· ≠ q) <;> rfl
    · simp [phrase?, hq]

theorem construct?_smallLetters (t : Text) :
    construct? (smallLetters t) = (construct? t).map (Prod.map small smallLetters) := by
  have hminus := smallAscii_eq_sign (show IsSign '-' by decide)
  unfold construct?
  rw [override?_smallLetters]
  cases override? t with
  | some found => rfl
  | none =>
    cases t with
    | nil => rfl
    | cons c rest =>
      by_cases hc : c = '-'
      · subst hc
        exact phrase?_smallLetters true rest
      · have hp := phrase?_smallLetters false (c :: rest)
        simpa [hc, hminus] using hp

theorem consPlain_small (c : Char) (tokens : List Token) :
    consPlain (smallAscii c) (tokens.map small) = (consPlain c tokens).map small := by
  cases tokens with
  | nil => rfl
  | cons token rest => cases token <;> rfl

/-- A query in small letters has the tokens of the query, in small letters. -/
theorem lex_smallLetters (t : Text) : lex (smallLetters t) = (lex t).map small := by
  fun_induction lex t with
  | case1 => rw [smallLetters_nil, lex, List.map_nil]
  | case2 c rest token after h ih =>
    have hf := construct?_smallLetters (c :: rest)
    rw [h] at hf
    obtain ⟨hk, he⟩ := construct?_iff.1 hf
    rw [he, lex_construct hk, ih, List.map_cons]
  | case3 c rest h ih =>
    have hf := construct?_smallLetters (c :: rest)
    rw [h] at hf
    have hn : ¬ Starts (smallAscii c :: smallLetters rest) := construct?_eq_none.1 hf
    rw [smallLetters_cons, lex_cons hn, ih, consPlain_small]

end KeywordSieve.Query.Token

namespace KeywordSieve.Query.Filter

open Text Term Override Token

theorem phraseTerm?_small (token : Token) : phraseTerm? token.small = phraseTerm? token := by
  cases token <;> simp only [small, phraseTerm?, normalize_smallLetters]

theorem group?_small (token : Token) : group? token.small = group? token := by
  cases token <;> simp only [small, group?, value, trim_smallLetters, terms_smallLetters]

theorem flatMap_plainText_small (tokens : List Token) :
    (tokens.map small).flatMap plainText = smallLetters (tokens.flatMap plainText) := by
  induction tokens with
  | nil => rfl
  | cons token rest ih =>
    rw [List.map_cons, List.flatMap_cons, List.flatMap_cons, ih, smallLetters_append]
    cases token <;> rfl

theorem compile_smallLetters (t : Text) : compile (smallLetters t) = compile t := by
  have hp : phraseTerm? ∘ small = phraseTerm? := funext phraseTerm?_small
  have hg : group? ∘ small = group? := funext group?_small
  simp only [compile, ofTokens, plainTerms, lex_smallLetters, List.filterMap_map, hp, hg,
    flatMap_plainText_small, fold_smallLetters]

/-- Queries that are equal in small letters denote the same filter, and a filter says the same of
items that are. -/
theorem asciiCase_ignored :
    (∀ q q' : Text, smallLetters q = smallLetters q' → compile q = compile q') ∧
      ∀ (f : Filter) (s s' : Subject), s.title.map smallLetters = s'.title.map smallLetters →
        s.summary.map smallLetters = s'.summary.map smallLetters → f.evaluate s = f.evaluate s' := by
  constructor
  · intro q q' h
    rw [← compile_smallLetters q, h, compile_smallLetters]
  · intro f s s' ht hs
    rw [evaluate, evaluate, ← searchText_smallLetters s.title, ht, hs, searchText_smallLetters]

/-- A final sigma stays one behind a letter of either case. -/
theorem compile_eitherCase :
    smallLetters "aΣ,-\"B\",EXCEPT( Iİ )" = smallLetters "AΣ,-\"b\",eXcept( iİ )" ∧
      compile "aΣ,-\"B\",EXCEPT( Iİ )" = compile "AΣ,-\"b\",eXcept( iİ )" ∧
      compile "aΣ,-\"B\",EXCEPT( Iİ )" =
        { includes := ["aς"], excludes := ["b"], overrides := [["ii̇"]] } :=
  ⟨by decide, asciiCase_ignored.1 _ _ (by decide), by decide +kernel⟩

end KeywordSieve.Query.Filter
