import Mathlib.Data.List.TakeWhile
import KeywordSieve.Proofs.Barriers

/-!
When a term is found in a title that it was taken from. Fragment and title are folded by the same
rule, but the rule looks at the letters around a capital sigma, and in the title other letters may
stand around it than in the fragment. A fragment is found in every title that it is part of exactly
if it settles the form of its sigmas itself, and any fragment is found where it stands apart from
other letters.
-/
namespace KeywordSieve.Text

open Unicode

variable {before before' after after' p f s t : Text}

/-- Folds a text between what stands before it, nearest first, and after it. -/
def foldWithin (before after : Text) : Text → Text
  | [] => []
  | c :: rest => foldChar before (rest ++ after) c ++ foldWithin (c :: before) after rest

theorem foldAfter_append (before t after : Text) :
    foldAfter before (t ++ after) =
      foldWithin before after t ++ foldAfter (t.reverse ++ before) after := by
  induction t generalizing before with
  | nil => rfl
  | cons c rest ih =>
    rw [List.cons_append, foldAfter, foldWithin, ih, List.append_assoc, List.reverse_cons,
      List.append_assoc, List.singleton_append]

theorem foldWithin_nil (before t : Text) : foldWithin before [] t = foldAfter before t := by
  have h := foldAfter_append before t []
  rw [List.append_nil, foldAfter, List.append_nil] at h
  exact h.symm

theorem foldWithin_append (before after s t : Text) :
    foldWithin before after (s ++ t) =
      foldWithin before (t ++ after) s ++ foldWithin (s.reverse ++ before) after t := by
  induction s generalizing before with
  | nil => rfl
  | cons c rest ih =>
    rw [List.cons_append, foldWithin, foldWithin, ih, List.append_assoc, List.append_assoc,
      List.reverse_cons, List.append_assoc, List.singleton_append]

/-- A sigma between the two texts is the last letter of a word. -/
def EndsWord (before after : Text) : Prop := meetsCased before = true ∧ meetsCased after = false

instance (before after : Text) : Decidable (EndsWord before after) :=
  inferInstanceAs (Decidable (_ ∧ _))

def smallSigma : Char := Char.ofNat 0x3c3

theorem foldChar_sigma (before after : Text) :
    foldChar before after capitalSigma =
      [if EndsWord before after then finalSigma else smallSigma] := by
  have hl : Unicode.lower capitalSigma = [smallSigma] := by decide +kernel
  rw [foldChar, hl]
  by_cases h : EndsWord before after
  · rw [if_pos h, if_pos ⟨rfl, h.1, by simp [h.2]⟩]
  · rw [if_neg h, if_neg (fun hf => h ⟨hf.2.1, Bool.eq_false_iff.2 hf.2.2⟩)]

/-- Only the capital sigmas of a text depend on what stands around it. -/
theorem foldWithin_congr (h : ∀ a b, t = a ++ capitalSigma :: b →
      (EndsWord (a.reverse ++ before) (b ++ after) ↔
        EndsWord (a.reverse ++ before') (b ++ after'))) :
    foldWithin before after t = foldWithin before' after' t := by
  induction t generalizing before before' with
  | nil => rfl
  | cons c rest ih =>
    have hfirst : foldChar before (rest ++ after) c = foldChar before' (rest ++ after') c := by
      by_cases hc : c = capitalSigma
      · have he := h [] rest (by rw [hc, List.nil_append])
        rw [List.reverse_nil, List.nil_append, List.nil_append] at he
        simp only [hc, foldChar_sigma, he]
      · simp [foldChar, hc]
    have hrest : foldWithin (c :: before) after rest = foldWithin (c :: before') after' rest := by
      apply ih
      intro a b he
      have ha := h (c :: a) b (by rw [he, List.cons_append])
      rwa [List.reverse_cons, List.append_assoc, List.append_assoc] at ha
    rw [foldWithin, foldWithin, hfirst, hrest]

/-- Case conversion looks across all of the text. -/
def Transparent (t : Text) : Prop := ∀ c ∈ t, isCaseIgnorable c = true

theorem transparent_reverse : Transparent t.reverse ↔ Transparent t := by
  simp [Transparent]

theorem meetsCased_append_of_transparent (h : Transparent t) (far : Text) :
    meetsCased (t ++ far) = meetsCased far := by
  rw [meetsCased, List.dropWhile_append_of_pos h, meetsCased]

theorem meetsCased_of_transparent (h : Transparent t) : meetsCased t = false := by
  have hf := meetsCased_append_of_transparent h []
  rwa [List.append_nil] at hf

/-- Nobody looks behind a text that is not transparent. -/
theorem meetsCased_append_of_not_transparent (h : ¬ Transparent t) (far : Text) :
    meetsCased (t ++ far) = meetsCased t := by
  have hne : t.dropWhile isCaseIgnorable ≠ [] := fun hn => h (List.dropWhile_eq_nil_iff.1 hn)
  obtain ⟨c, rest, hd⟩ := List.exists_cons_of_ne_nil hne
  rw [meetsCased, meetsCased, List.dropWhile_append, hd]
  rfl

/-- Each capital sigma of the fragment ends a word between the two texts exactly if it does so in
the fragment alone. -/
def SameForms (p f s : Text) : Prop := ∀ a b, f = a ++ capitalSigma :: b →
  (EndsWord (a.reverse ++ p.reverse) (b ++ s) ↔ EndsWord a.reverse b)

/-- The fragment decides the form of each capital sigma in it. One that is open to the front has a
letter behind it, one that is open to the back has something else than a letter before it; so
neither of them ends a word. -/
def Settled (f : Text) : Prop := ∀ a b, f = a ++ capitalSigma :: b →
  (Transparent a → meetsCased b = true) ∧ (Transparent b → meetsCased a.reverse = false)

theorem foldWithin_of_sameForms (h : SameForms p f s) : foldWithin p.reverse s f = fold f := by
  rw [fold, ← foldWithin_nil]
  apply foldWithin_congr
  intro a b he
  rw [List.append_nil, List.append_nil]
  exact h a b he

/-- What a text is folded to in the middle depends on both of its sides. -/
theorem fold_append_append (p f s : Text) :
    fold (p ++ f ++ s) =
      foldWithin [] (f ++ s) p ++ foldWithin p.reverse s f ++
        foldAfter (f.reverse ++ p.reverse) s := by
  rw [fold, List.append_assoc p, foldAfter_append, foldAfter_append, List.append_nil,
    List.append_assoc]

/-- What a fragment is folded to stands in the folded text, if its sigmas keep their forms. -/
theorem fold_isInfix (h : SameForms p f s) : fold f <:+: fold (p ++ f ++ s) := by
  rw [fold_append_append, foldWithin_of_sameForms h]
  exact List.infix_append _ _ _

/-- Where no letter touches a fragment, its sigmas keep their forms. -/
theorem sameForms_of_apart (hp : meetsCased p.reverse = false) (hs : meetsCased s = false)
    (f : Text) : SameForms p f s := by
  intro a b _
  have hfront : meetsCased (a.reverse ++ p.reverse) = meetsCased a.reverse := by
    by_cases ha : Transparent a.reverse
    · rw [meetsCased_append_of_transparent ha, hp, meetsCased_of_transparent ha]
    · exact meetsCased_append_of_not_transparent ha p.reverse
  have hback : meetsCased (b ++ s) = meetsCased b := by
    by_cases hb : Transparent b
    · rw [meetsCased_append_of_transparent hb, hs, meetsCased_of_transparent hb]
    · exact meetsCased_append_of_not_transparent hb s
  rw [EndsWord, EndsWord, hfront, hback]

/-- What decides its own sigmas looks the same anywhere. -/
theorem Settled.sameForms (h : Settled f) (p s : Text) : SameForms p f s := by
  intro a b he
  obtain ⟨hfront, hback⟩ := h a b he
  by_cases ha : Transparent a
  · have hb : ¬ Transparent b := by
      intro hb
      have hm := hfront ha
      rw [meetsCased_of_transparent hb] at hm
      cases hm
    rw [EndsWord, EndsWord, meetsCased_append_of_not_transparent hb, hfront ha]
    simp
  · rw [← transparent_reverse] at ha
    rw [EndsWord, EndsWord, meetsCased_append_of_not_transparent ha]
    by_cases hb : Transparent b
    · rw [hback hb]
      simp
    · rw [meetsCased_append_of_not_transparent hb]

theorem Transparent.sigma_not_mem (h : Transparent t) : capitalSigma ∉ t := by
  intro hm
  have hv : isCaseIgnorable capitalSigma = false := by decide +kernel
  rw [h capitalSigma hm] at hv
  cases hv

/-- A sigma is a letter that nobody looks behind. -/
theorem meetsCased_append_sigma (near far far' : Text) :
    meetsCased (near ++ capitalSigma :: far) = meetsCased (near ++ capitalSigma :: far') := by
  have hv : ¬ Transparent (near ++ [capitalSigma]) := fun h => h.sigma_not_mem (by simp)
  rw [List.append_cons, List.append_cons near capitalSigma far',
    meetsCased_append_of_not_transparent hv, meetsCased_append_of_not_transparent hv]

theorem foldWithin_of_transparent (h : Transparent t) :
    foldWithin before after t = foldWithin before' after' t := by
  apply foldWithin_congr
  intro a b he
  exact absurd (by simp [he]) h.sigma_not_mem

theorem foldWithin_front_sigma (before after after' t : Text) :
    foldWithin before (capitalSigma :: after) t = foldWithin before (capitalSigma :: after') t := by
  apply foldWithin_congr
  intro a b _
  rw [EndsWord, EndsWord, meetsCased_append_sigma b after after']

theorem foldWithin_back_sigma (before before' after t : Text) :
    foldWithin (capitalSigma :: before) after t = foldWithin (capitalSigma :: before') after t := by
  apply foldWithin_congr
  intro a b _
  rw [EndsWord, EndsWord, meetsCased_append_sigma a.reverse before before']

/-- Text next to a fragment changes at most the one sigma that is open to it. -/
theorem foldWithin_open {a b : Text} (hp : p = [] ∨ Transparent a) (hs : s = [] ∨ Transparent b) :
    foldWithin p.reverse s (a ++ capitalSigma :: b) =
      foldWithin [] [capitalSigma] a ++
        (if EndsWord (a.reverse ++ p.reverse) (b ++ s) then finalSigma else smallSigma) ::
          foldWithin [capitalSigma] [] b := by
  have hfront : foldWithin p.reverse (capitalSigma :: (b ++ s)) a =
      foldWithin [] [capitalSigma] a := by
    rcases hp with rfl | ha
    · exact foldWithin_front_sigma [] (b ++ s) [] a
    · exact foldWithin_of_transparent ha
  have hback : foldWithin (capitalSigma :: (a.reverse ++ p.reverse)) s b =
      foldWithin [capitalSigma] [] b := by
    rcases hs with rfl | hb
    · exact foldWithin_back_sigma (a.reverse ++ p.reverse) [] [] b
    · exact foldWithin_of_transparent hb
  rw [foldWithin_append, List.cons_append, foldWithin, foldChar_sigma, hfront, hback]
  rfl

theorem foldWithin_eq_self (h : ∀ c ∈ t, IsLower c) : foldWithin before after t = t := by
  have hc : foldWithin before after t = foldWithin before [] t := by
    apply foldWithin_congr
    intro a b he
    exact absurd rfl (ne_capitalSigma_of_isLower (h capitalSigma (by simp [he])))
  rw [hc, foldWithin_nil, foldAfter_eq_self before h]

theorem fold_append_lower (hp : ∀ c ∈ p, IsLower c) (hs : ∀ c ∈ s, IsLower c) (f : Text) :
    fold (p ++ f ++ s) = p ++ foldWithin p.reverse s f ++ s := by
  rw [fold_append_append, foldWithin_eq_self hp, foldAfter_eq_self _ hs]

/-- One character in place of another leaves less of the other one. -/
theorem count_exchange_lt {x y : Char} (hne : y ≠ x) (hp : x ∉ p) (hs : x ∉ s) (a b : Text) :
    (p ++ (a ++ y :: b) ++ s).count x < (a ++ x :: b).count x := by
  rw [List.count_append, List.count_append, List.count_append, List.count_append,
    List.count_eq_zero_of_not_mem hp, List.count_eq_zero_of_not_mem hs, List.count_cons_self,
    List.count_cons_of_ne hne]
  omega

/-- A fragment settles its sigmas if no letter in front of it or behind it takes a sigma of either
form from it. -/
theorem settled_of_count_le (h : ∀ p s, ∀ x ∈ [finalSigma, smallSigma],
      (fold f).count x ≤ (fold (p ++ f ++ s)).count x) : Settled f := by
  have hmeets : meetsCased ['a'] = true := by decide +kernel
  have hletter : ∀ c ∈ ['a'], IsLower c := List.forall_mem_singleton.2 (by decide +kernel)
  have hnil : ∀ c ∈ ([] : Text), IsLower c := by simp
  intro a b he
  have hf : fold f = foldWithin [] [capitalSigma] a ++
      (if EndsWord a.reverse b then finalSigma else smallSigma) ::
        foldWithin [capitalSigma] [] b := by
    have ho := foldWithin_open (p := []) (s := []) (a := a) (b := b) (Or.inl rfl) (Or.inl rfl)
    rwa [List.reverse_nil, foldWithin_nil, List.append_nil, List.append_nil, ← he] at ho
  constructor
  · -- a letter in front makes the sigma a final one
    intro ha
    by_contra hb
    have hopen := transparent_reverse.2 ha
    have hform : ¬ EndsWord a.reverse b := by
      rw [EndsWord, meetsCased_of_transparent hopen]
      simp
    have hform' : EndsWord (a.reverse ++ ['a'].reverse) (b ++ []) := by
      rw [EndsWord, meetsCased_append_of_transparent hopen, List.append_nil]
      exact ⟨hmeets, Bool.eq_false_iff.2 hb⟩
    have hle := h ['a'] [] smallSigma (by simp)
    rw [hf, if_neg hform, fold_append_lower hletter hnil, he,
      foldWithin_open (Or.inr ha) (Or.inl rfl), if_pos hform'] at hle
    exact Nat.not_lt.2 hle (count_exchange_lt (by decide) (by decide) (by decide) _ _)
  · -- a letter behind makes it one that is not final
    intro hb
    by_contra ha
    have hform : EndsWord a.reverse b :=
      ⟨by simpa using ha, meetsCased_of_transparent hb⟩
    have hform' : ¬ EndsWord (a.reverse ++ List.reverse []) (b ++ ['a']) := by
      rw [EndsWord, meetsCased_append_of_transparent hb, hmeets]
      simp
    have hle := h [] ['a'] finalSigma (by simp)
    rw [hf, if_pos hform, fold_append_lower hnil hletter, he,
      foldWithin_open (Or.inl rfl) (Or.inr hb), if_neg hform'] at hle
    exact Nat.not_lt.2 hle (count_exchange_lt (by decide) (by decide) (by decide) _ _)

end KeywordSieve.Text

namespace KeywordSieve.Term

open Text Unicode

variable {f n : Text}

theorem isInfix_of_normalize (h : normalize f = some n) : n <:+: fold f := by
  obtain ⟨rfl, -⟩ := normalize_eq_some.1 h
  exact (trimBoth_isInfix isBlank _).trans
    ((trimBoth_isInfix isQuote _).trans (trimBoth_isInfix isBlank _))

/-- Normalizing takes nothing but white space and quotes off a folded fragment. -/
theorem count_of_normalize {x : Char} (h : normalize f = some n) (hb : isBlank x = false)
    (hq : isQuote x = false) : n.count x = (fold f).count x := by
  obtain ⟨rfl, -⟩ := normalize_eq_some.1 h
  rw [trim, count_trimBoth hb, count_trimBoth hq, trim, count_trimBoth hb]

theorem found_of_sameForms {p s : Text} (h : normalize f = some n) (hs : SameForms p f s)
    (summary : Option Text) : foundIn (searchText (some (p ++ f ++ s)) summary) n = true := by
  rw [foundIn_iff, searchText_eq]
  exact ((isInfix_of_normalize h).trans (fold_isInfix hs)).trans (List.prefix_append _ _).isInfix

/-- A fragment that is found in all titles settles its sigmas. -/
theorem settled_of_found (h : normalize f = some n)
    (hf : ∀ p s, foundIn (searchText (some (p ++ f ++ s)) none) n = true) : Settled f := by
  have hx : ∀ x ∈ [finalSigma, smallSigma], isBlank x = false ∧ isQuote x = false :=
    List.forall_mem_cons.2 ⟨by decide, List.forall_mem_singleton.2 (by decide)⟩
  apply settled_of_count_le
  intro p s x hm
  obtain ⟨hb, hq⟩ := hx x hm
  have hi : n <:+: fold (p ++ f ++ s) ++ [' '] := by
    have hm := foundIn_iff.1 (hf p s)
    rw [searchText_eq] at hm
    exact hm
  have hspace : x ≠ ' ' := by
    rintro rfl
    exact absurd hb (by decide)
  have hle := hi.sublist.count_le x
  rwa [count_of_normalize h hb hq, List.count_append, List.count_singleton,
    beq_eq_false_iff_ne.2 hspace.symm] at hle

/-- A fragment is found in a title that it is part of if its sigmas have the same forms in the title
as on their own, as they have where no letter touches the fragment. It is found in all such titles
exactly if it settles its sigmas. -/
theorem found_verbatim (h : normalize f = some n) :
    (∀ p s summary, SameForms p f s → foundIn (searchText (some (p ++ f ++ s)) summary) n = true) ∧
      (∀ p s summary, meetsCased p.reverse = false → meetsCased s = false →
        foundIn (searchText (some (p ++ f ++ s)) summary) n = true) ∧
      ((∀ p s summary, foundIn (searchText (some (p ++ f ++ s)) summary) n = true) ↔
        Settled f) := by
  refine ⟨?_, ?_, ?_, ?_⟩
  · intro p s summary hs
    exact found_of_sameForms h hs summary
  · intro p s summary hp hs
    exact found_of_sameForms h (sameForms_of_apart hp hs f) summary
  · intro hf
    exact settled_of_found h (fun p s => hf p s none)
  · intro hs p s summary
    exact found_of_sameForms h (hs.sameForms p s) summary

/-- A word in capitals, on its own in a title. -/
theorem found_verbatim_word :
    normalize "ΟΔΟΣ" = some ("οδος" : Text) ∧
      foundIn (searchText (some ("Η " ++ "ΟΔΟΣ" ++ " ΜΟΥ")) (some "Σ")) "οδος" = true := by
  have h : normalize "ΟΔΟΣ" = some ("οδος" : Text) := by decide +kernel
  have hp : meetsCased ("Η " : Text).reverse = false := by decide +kernel
  have hs : meetsCased (" ΜΟΥ" : Text) = false := by decide +kernel
  exact ⟨h, (found_verbatim h).2.1 "Η " " ΜΟΥ" (some "Σ") hp hs⟩

/-- At the beginning of a longer word the last letter of the same word is another one. -/
theorem found_verbatim_fails :
    normalize "ΟΔΟΣ" = some ("οδος" : Text) ∧
      foundIn (searchText (some ("" ++ "ΟΔΟΣ" ++ "ΤΡΩΜΑ")) (some "")) "οδος" = false := by
  constructor <;> decide +kernel

end KeywordSieve.Term
