import KeywordSieve.Proofs.NormalForm

/-!
Characters that folding does not look across. Whether a sigma ends a word depends on the nearest
characters around it that are not case-ignorable, so a character that is neither ignorable nor a
cased letter is as good as the end of the text. A comma is one, and so is all white space: a text
may be cut at commas, or trimmed, before it is folded or after.
-/
namespace KeywordSieve.Unicode

/-- Whether no range of one table meets a range of the other. -/
def apart (rs ss : List (Nat × Nat)) : Bool :=
  rs.all fun r => ss.all fun s => r.2 < s.1 || s.2 < r.1

theorem inRanges_of_apart {rs ss : List (Nat × Nat)} {c : Char} (h : apart rs ss = true)
    (hc : inRanges rs c = true) : inRanges ss c = false := by
  apply Bool.eq_false_iff.2
  intro hd
  obtain ⟨r, hr, hlow, hhigh⟩ := inRanges_eq_true.1 hc
  obtain ⟨s, hs, hlow', hhigh'⟩ := inRanges_eq_true.1 hd
  have ha := List.all_eq_true.1 (List.all_eq_true.1 h r hr) s hs
  simp only [Bool.or_eq_true, decide_eq_true_eq] at ha
  omega

/-- The ranges in which the code points lie that lower-casing moves. -/
def movedRanges : List (Nat × Nat) :=
  (dottedShift :: lowerShifts).map fun s => (s.first, s.last)

theorem isLower_of_not_moved {c : Char} (h : inRanges movedRanges c = false) : IsLower c := by
  apply isLower_of_not_applies
  intro s hs
  apply Bool.eq_false_iff.2
  intro ha
  obtain ⟨hfirst, hlast, -⟩ := Shift.applies_iff.1 ha
  have hm : (s.first, s.last) ∈ movedRanges := List.mem_map.2 ⟨s, hs, rfl⟩
  rw [inRanges_eq_true.2 ⟨_, hm, hfirst, hlast⟩] at h
  cases h

/-- Folding leaves the character alone, does not pass over it, and takes it for no letter. -/
structure IsBarrier (c : Char) : Prop where
  lower : IsLower c
  visible : isCaseIgnorable c = false
  uncased : isCased c = false

theorem isBarrier_comma : IsBarrier ',' := by constructor <;> decide +kernel

/-- No white space is moved, passed over or taken for a letter. -/
theorem blankRanges_apart :
    (apart blankRanges movedRanges && apart blankRanges caseIgnorableRanges &&
      apart blankRanges casedRanges) = true := by
  decide +kernel

/-- White space divides what is folded. -/
theorem isBarrier_of_isBlank {c : Char} (h : isBlank c = true) : IsBarrier c := by
  have ha := blankRanges_apart
  simp only [Bool.and_eq_true] at ha
  exact {
    lower := isLower_of_not_moved (inRanges_of_apart ha.1.1 h)
    visible := inRanges_of_apart ha.1.2 h
    uncased := inRanges_of_apart ha.2 h }

end KeywordSieve.Unicode

namespace KeywordSieve.Text

open Unicode

variable {c : Char}

/-- What stands behind a barrier is not looked at. -/
theorem meetsCased_append (hc : IsBarrier c) (near far : Text) :
    meetsCased (near ++ c :: far) = meetsCased near := by
  induction near with
  | nil => simp [meetsCased, hc.visible, hc.uncased]
  | cons d near ih =>
    unfold meetsCased at ih ⊢
    cases hd : isCaseIgnorable d with
    | true => simpa [hd] using ih
    | false => simp [hd]

theorem foldAfter_barrier (hc : IsBarrier c) (near far t : Text) :
    foldAfter (near ++ c :: far) t = foldAfter near t := by
  induction t generalizing near with
  | nil => rfl
  | cons d rest ih =>
    have hr := ih (d :: near)
    rw [List.cons_append] at hr
    rw [foldAfter, foldAfter, foldChar, foldChar, meetsCased_append hc, hr]

/-- What stands on either side of a barrier is folded as if it stood alone. -/
theorem foldAfter_append_cons (hc : IsBarrier c) (before front back : Text) :
    foldAfter before (front ++ c :: back) = foldAfter before front ++ c :: fold back := by
  induction front generalizing before with
  | nil =>
    have hb : foldAfter ([] ++ c :: before) back = fold back := foldAfter_barrier hc [] before back
    change foldChar before back c ++ foldAfter ([] ++ c :: before) back = c :: fold back
    rw [foldChar_of_isLower before back hc.lower, hb]
    rfl
  | cons d front ih =>
    rw [List.cons_append, foldAfter, foldAfter, foldChar, foldChar, meetsCased_append hc, ih,
      List.append_assoc]

/-- What stands on either side of a barrier is folded on its own. -/
theorem fold_append_cons (hc : IsBarrier c) (front back : Text) :
    fold (front ++ c :: back) = fold front ++ c :: fold back :=
  foldAfter_append_cons hc [] front back

/-- White space around a text is kept, and changes nothing in it. -/
theorem fold_surround {left right : Text} (hl : ∀ c ∈ left, isBlank c = true)
    (hr : ∀ c ∈ right, isBlank c = true) (t : Text) :
    fold (left ++ t ++ right) = left ++ fold t ++ right := by
  have hright : fold (t ++ right) = fold t ++ right := by
    cases right with
    | nil => simp
    | cons c right =>
      have hlow : ∀ d ∈ right, IsLower d := by
        intro d hd
        exact (isBarrier_of_isBlank (hr d (List.mem_cons_of_mem c hd))).lower
      rw [fold_append_cons (isBarrier_of_isBlank (hr c (by simp))), fold_eq_self hlow]
  rw [List.append_assoc, List.append_assoc, ← hright]
  clear hr hright
  induction left with
  | nil => rfl
  | cons c left ih =>
    have hc := isBarrier_of_isBlank (hl c (by simp))
    have hrest := ih (fun d hd => hl d (List.mem_cons_of_mem c hd))
    have hf := fold_append_cons hc [] (left ++ (t ++ right))
    rw [hrest] at hf
    exact hf

end KeywordSieve.Text

namespace KeywordSieve.Term

open Text Unicode

/-- White space around a fragment makes no other term of it. -/
theorem normalize_trim (t : Text) : normalize (trim t) = normalize t := by
  obtain ⟨left, right, hl, hr, he⟩ := exists_surround isBlank t
  have ht : trim (fold t) = trim (fold (trim t)) := by
    calc trim (fold t) = trim (fold (left ++ trim t ++ right)) := congrArg (trim ∘ fold) he
      _ = trim (left ++ fold (trim t) ++ right) := by rw [fold_surround hl hr]
      _ = trim (fold (trim t)) := trimBoth_surround hl hr _
  unfold normalize
  rw [ht]

/-- Title and summary are folded one by one, for the space between them is a barrier. -/
theorem searchText_eq (title summary : Option Text) :
    searchText title summary = fold (title.getD []) ++ ' ' :: fold (summary.getD []) :=
  fold_append_cons (isBarrier_of_isBlank (by decide)) _ _

end KeywordSieve.Term
