import KeywordSieve.Proofs.Joining
import KeywordSieve.Proofs.Verbatim

/-!
Whether a text is cut before it is folded or after it makes no difference. Lower-casing reaches
neither a comma nor a minus sign nor white space, so none of them is made by folding, and it looks
across none of them, so none is lost. Each piece of the plain text between commas can therefore be
trimmed, told by its minus sign and normalized on its own, whatever its neighbours are.
-/
namespace KeywordSieve.Unicode

/-- Where the code points lie that lower-casing makes of others, in context or out of it. -/
def reachedRanges : List (Nat × Nat) :=
  (0x307, 0x307) :: (0x3c2, 0x3c2) ::
    lowerShifts.map fun s => (s.target, s.target + (s.last - s.first))

/-- The characters that lower-casing makes of no other one. -/
def IsUnreached (d : Char) : Prop := inRanges reachedRanges d = false

instance (d : Char) : Decidable (IsUnreached d) := inferInstanceAs (Decidable (_ = _))

theorem eq_of_mem_lower {c d : Char} (hd : IsUnreached d) (h : d ∈ lower c) : d = c := by
  have hout : ∀ r ∈ reachedRanges, ¬ (r.1 ≤ d.toNat ∧ d.toNat ≤ r.2) := by
    intro r hr hin
    rw [IsUnreached, inRanges_eq_true.2 ⟨r, hr, hin⟩] at hd
    cases hd
  unfold lower at h
  split at h
  · -- the letter and the combining dot that the dotted capital becomes
    rw [List.mem_cons, List.mem_singleton] at h
    rcases h with rfl | rfl
    · have hr : (0x61, 0x7a) ∈ reachedRanges :=
        List.mem_cons_of_mem _ (List.mem_cons_of_mem _ List.mem_cons_self)
      exact absurd (by decide) (hout _ hr)
    · exact absurd (by decide) (hout (0x307, 0x307) List.mem_cons_self)
  · rw [List.mem_singleton] at h
    rcases shiftBy_cases lowerShifts c.toNat with hn | ⟨s, hs, ha, he⟩
    · rw [h, shiftBy_eq_self hn, Char.ofNat_toNat]
    · have hv : d.toNat = s.image c.toNat := by
        rw [h, ← he, Char.ofNat, dif_pos (isValidChar_shiftBy_lower c)]
        rfl
      obtain ⟨hfirst, hlast, -⟩ := Shift.applies_iff.1 ha
      have hr : (s.target, s.target + (s.last - s.first)) ∈ reachedRanges :=
        List.mem_cons_of_mem _ (List.mem_cons_of_mem _ (List.mem_map.2 ⟨s, hs, rfl⟩))
      refine absurd ?_ (hout _ hr)
      simp only [hv, Shift.image]
      omega

theorem blankRanges_unreached : apart blankRanges reachedRanges = true := by decide +kernel

theorem isUnreached_of_isBlank {d : Char} (h : isBlank d = true) : IsUnreached d :=
  inRanges_of_apart blankRanges_unreached h

theorem isUnreached_comma : IsUnreached ',' := by decide +kernel

theorem isUnreached_minus : IsUnreached '-' := by decide +kernel

theorem isBarrier_minus : IsBarrier '-' := by constructor <;> decide +kernel

end KeywordSieve.Unicode

namespace KeywordSieve.Text

open Unicode

variable {before after t : Text} {c d : Char}

theorem eq_of_mem_foldChar (hd : IsUnreached d) (h : d ∈ foldChar before after c) : d = c := by
  unfold foldChar at h
  split at h
  · rw [List.mem_singleton.1 h] at hd
    exact absurd hd (by decide +kernel)
  · exact eq_of_mem_lower hd h

theorem mem_of_mem_foldAfter (hd : IsUnreached d) (h : d ∈ foldAfter before t) : d ∈ t := by
  induction t generalizing before with
  | nil => cases h
  | cons c rest ih =>
    rcases List.mem_append.1 h with h | h
    · rw [eq_of_mem_foldChar hd h]
      exact List.mem_cons_self
    · exact List.mem_cons_of_mem c (ih h)

theorem foldChar_ne_nil (before after : Text) (c : Char) : foldChar before after c ≠ [] := by
  unfold foldChar lower
  split
  · simp
  · split <;> simp

/-- What folding makes of the first character stands first. -/
theorem head_fold (hd : IsUnreached d) (h : d ∈ (fold t).head?) : d ∈ t.head? := by
  cases t with
  | nil => cases h
  | cons c rest =>
    change d ∈ (foldChar [] rest c ++ _).head? at h
    rw [List.head?_append_of_ne_nil _ (foldChar_ne_nil [] rest c)] at h
    rw [eq_of_mem_foldChar hd (List.mem_of_mem_head? h)]
    rfl

/-- What folding makes of the last character stands last. -/
theorem last_fold (hd : IsUnreached d) (h : d ∈ (fold t).getLast?) : d ∈ t.getLast? := by
  rcases List.eq_nil_or_concat t with rfl | ⟨front, c, rfl⟩
  · cases h
  · rw [List.concat_eq_append] at h ⊢
    have hc : foldAfter (front.reverse ++ []) [c] = foldChar (front.reverse ++ []) [] c :=
      List.append_nil _
    rw [fold, foldAfter_append, hc,
      List.getLast?_append_of_ne_nil _ (foldChar_ne_nil _ _ _)] at h
    rw [eq_of_mem_foldChar hd (List.mem_of_mem_getLast? h), List.getLast?_concat]
    rfl

/-- What is trimmed stays so when it is folded. -/
theorem trimmed_fold (h : Trimmed isBlank t) : Trimmed isBlank (fold t) := by
  constructor
  · intro d hd
    by_contra hb
    have hb' : isBlank d = true := by simpa using hb
    exact hb (h.head d (head_fold (isUnreached_of_isBlank hb') hd))
  · intro d hd
    by_contra hb
    have hb' : isBlank d = true := by simpa using hb
    exact hb (h.last d (last_fold (isUnreached_of_isBlank hb') hd))

theorem trim_fold (t : Text) : trim (fold t) = fold (trim t) := by
  obtain ⟨left, right, hl, hr, he⟩ := exists_surround isBlank t
  have ht : Trimmed isBlank (fold (trim t)) := trimmed_fold (trimBoth_trimmed isBlank t)
  calc trim (fold t) = trim (fold (left ++ trim t ++ right)) := congrArg (trim ∘ fold) he
    _ = trim (left ++ fold (trim t) ++ right) := by rw [fold_surround hl hr]
    _ = fold (trim t) := trimBoth_wrapped hl hr ht

/-- A folded text is cut at the same commas, into the folded pieces. -/
theorem pieces_fold (t : Text) : pieces ',' (fold t) = (pieces ',' t).map fold := by
  induction t using pieces_induction ',' with
  | last p hp =>
    have hf : ',' ∉ fold p := fun hm => hp (mem_of_mem_foldAfter isUnreached_comma hm)
    rw [pieces_of_not_mem hp, pieces_of_not_mem hf, List.map_singleton]
  | more p rest hp ih =>
    have hf : ',' ∉ fold p := fun hm => hp (mem_of_mem_foldAfter isUnreached_comma hm)
    rw [fold_append_cons isBarrier_comma, pieces_append_cons _ hf, pieces_append_cons _ hp, ih,
      List.map_cons]

end KeywordSieve.Text

namespace KeywordSieve.Query.Filter

open Text Term Unicode

/-- A fragment may be folded before it is made a term. -/
theorem normalize_fold (t : Text) : normalize (fold t) = normalize t := by
  rw [Term.normalize, fold_fold, Term.normalize]

theorem pieceTerm?_minus {piece rest : Text} (h : trim piece = '-' :: rest) :
    pieceTerm? piece = (normalize rest).map (true, ·) := by
  rw [pieceTerm?, h]
  rfl

theorem pieceTerm?_bare {piece : Text} (h : '-' ∉ (trim piece).head?) :
    pieceTerm? piece = (normalize (trim piece)).map (false, ·) := by
  rw [pieceTerm?]
  split
  · next hm =>
    rw [hm] at h
    exact absurd rfl h
  · rfl

/-- A piece denotes the same term when it is folded, with the same mark. -/
theorem pieceTerm?_fold (piece : Text) : pieceTerm? (fold piece) = pieceTerm? piece := by
  by_cases h : '-' ∈ (trim piece).head?
  · obtain ⟨rest, hrest⟩ := List.head?_eq_some_iff.1 h
    have hf : trim (fold piece) = '-' :: fold rest := by
      rw [trim_fold, hrest]
      exact fold_append_cons isBarrier_minus [] rest
    rw [pieceTerm?_minus hrest, pieceTerm?_minus hf, normalize_fold]
  · have hf : '-' ∉ (trim (fold piece)).head? := by
      rw [trim_fold]
      exact fun hm => h (head_fold isUnreached_minus hm)
    rw [pieceTerm?_bare h, pieceTerm?_bare hf, trim_fold, normalize_fold]

/-- The terms of a text that is cut as it is written, each piece being folded on its own. -/
def piecewiseTerms (text : Text) : List Signed := (pieces ',' text).filterMap pieceTerm?

/-- It does not matter whether a text is folded first or cut first. -/
theorem bareTerms_eq_piecewiseTerms (text : Text) : bareTerms text = piecewiseTerms text := by
  have hp : pieceTerm? ∘ fold = pieceTerm? := funext pieceTerm?_fold
  rw [bareTerms, pieces_fold, List.filterMap_map, hp, piecewiseTerms]

/-- For any tokens, folding the plain text as a whole gives the terms of its raw pieces, in their
order and with their marks. They stand behind those of the phrases. -/
theorem plainTerms_piecewise (tokens : List Token) :
    plainTerms tokens = piecewiseTerms (tokens.flatMap plainText) ∧
      (ofTokens tokens).includes = select false (tokens.filterMap phraseTerm?) ++
        select false (piecewiseTerms (tokens.flatMap plainText)) ∧
      (ofTokens tokens).excludes = select true (tokens.filterMap phraseTerm?) ++
        select true (piecewiseTerms (tokens.flatMap plainText)) := by
  have hp : plainTerms tokens = piecewiseTerms (tokens.flatMap plainText) :=
    bareTerms_eq_piecewiseTerms _
  refine ⟨hp, ?_, ?_⟩
  · rw [← hp, ← select_append]
    rfl
  · rw [← hp, ← select_append]
    rfl

/-- A sigma at the end of one piece, and two around a quote in another behind a minus sign. -/
example : piecewiseTerms "ΟΔΟΣ, -\"ΑΣ\"Σ ,-'" =
    [(false, "οδος".toList), (true, "ας\"σ".toList)] := by
  decide +kernel

end KeywordSieve.Query.Filter
