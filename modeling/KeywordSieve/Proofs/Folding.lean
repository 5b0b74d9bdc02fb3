import KeywordSieve.Text.Fold

/-!
Folding has nothing left to do on its own output. The table of lower-case mappings never sends a
code point to one that it moves again, and a capital sigma becomes one of two small letters, so
every character of a folded text is left alone by a second fold, whatever stands around it.
-/
namespace KeywordSieve.Unicode

/-- Whether the images of one shift stay outside another: the ranges are apart, or both go in
steps of two and the images have the other parity. -/
def Shift.clearOf (s r : Shift) : Bool :=
  s.target + (s.last - s.first) < r.first || r.last < s.target ||
    (s.step == 2 || s.first == s.last) && r.step == 2 && (s.target + r.first) % 2 == 1

/-- Whether the images of a shift are code points of characters. -/
def Shift.isScalar (s : Shift) : Bool :=
  s.target + (s.last - s.first) < 0xd800 ||
    0xdfff < s.target && s.target + (s.last - s.first) < 0x110000

theorem Shift.applies_iff {s : Shift} {n : Nat} :
    s.applies n = true ↔ s.first ≤ n ∧ n ≤ s.last ∧ (n - s.first) % s.step = 0 := by
  simp [applies, and_assoc]

theorem Shift.not_applies_image {s r : Shift} {n : Nat} (h : s.clearOf r = true)
    (hn : s.applies n = true) : r.applies (s.image n) = false := by
  obtain ⟨hfirst, hlast, hstep⟩ := applies_iff.1 hn
  simp only [clearOf, Bool.or_eq_true, Bool.and_eq_true, decide_eq_true_eq, beq_iff_eq] at h
  apply Bool.eq_false_iff.2
  intro hi
  obtain ⟨hlow, hhigh, heven⟩ := applies_iff.1 hi
  simp only [image] at hlow hhigh heven
  rcases h with (h | h) | ⟨⟨hs, hr⟩, hodd⟩
  · omega
  · omega
  · -- an even distance from the target is an odd one from where the other shift starts
    have hsame : (n - s.first) % 2 = 0 := by
      rcases hs with hs | hs
      · rwa [hs] at hstep
      · omega
    rw [hr] at heven
    omega

theorem Shift.isValidChar_image {s : Shift} {n : Nat} (h : s.isScalar = true)
    (hn : s.applies n = true) : (s.image n).isValidChar := by
  obtain ⟨hfirst, hlast, -⟩ := applies_iff.1 hn
  simp only [isScalar, Bool.or_eq_true, Bool.and_eq_true, decide_eq_true_eq] at h
  simp only [Nat.isValidChar, image]
  omega

/-- The one mapping that the table leaves out, as a shift of one code point. -/
def dottedShift : Shift := ⟨0x130, 0x130, 1, 0x69⟩

/-- What the table moves is never moved again. -/
theorem lowerShifts_clear :
    (lowerShifts.all fun s => (dottedShift :: lowerShifts).all fun r => s.clearOf r) = true := by
  decide +kernel

theorem lowerShifts_scalar : (lowerShifts.all fun s => s.isScalar) = true := by
  decide +kernel

theorem shiftBy_eq_self {shifts : List Shift} {n : Nat} (h : ∀ r ∈ shifts, r.applies n = false) :
    shiftBy shifts n = n := by
  unfold shiftBy
  rw [List.find?_eq_none.2 (by simpa using h)]

/-- A code point is one that no mapping moves, or one of the mappings gives its image. -/
theorem shiftBy_cases (shifts : List Shift) (n : Nat) :
    (∀ r ∈ shifts, r.applies n = false) ∨
      ∃ s ∈ shifts, s.applies n = true ∧ shiftBy shifts n = s.image n := by
  cases hf : shifts.find? (fun s => s.applies n) with
  | none =>
    left
    simpa using List.find?_eq_none.1 hf
  | some s =>
    right
    have hs : s.applies n = true := by simpa using List.find?_some hf
    exact ⟨s, List.mem_of_find?_eq_some hf, hs, by rw [shiftBy, hf]⟩

/-- No mapping moves what the table gives, if its argument is not the dotted capital. -/
theorem not_applies_shiftBy_lower {n : Nat} (h : dottedShift.applies n = false) :
    ∀ r ∈ dottedShift :: lowerShifts, r.applies (shiftBy lowerShifts n) = false := by
  intro r hr
  rcases shiftBy_cases lowerShifts n with hn | ⟨s, hs, hn, he⟩
  · rw [shiftBy_eq_self hn]
    rcases List.mem_cons.1 hr with rfl | hr
    · exact h
    · exact hn r hr
  · have hc := List.all_eq_true.1 (List.all_eq_true.1 lowerShifts_clear s hs) r hr
    rw [he]
    exact Shift.not_applies_image hc hn

theorem isValidChar_shiftBy_lower (c : Char) : (shiftBy lowerShifts c.toNat).isValidChar := by
  rcases shiftBy_cases lowerShifts c.toNat with hn | ⟨s, hs, hn, he⟩
  · rw [shiftBy_eq_self hn]
    exact c.valid
  · rw [he]
    exact Shift.isValidChar_image (List.all_eq_true.1 lowerShifts_scalar s hs) hn

theorem dottedShift_applies {c : Char} : dottedShift.applies c.toNat = true ↔ c = dottedCapitalI := by
  constructor
  · intro h
    obtain ⟨hfirst, hlast, -⟩ := Shift.applies_iff.1 h
    apply Char.toNat_inj.1
    exact Nat.le_antisymm hlast hfirst
  · intro h
    subst h
    decide

/-- Lower-casing leaves the character alone. -/
def IsLower (c : Char) : Prop := lower c = [c]

instance (c : Char) : Decidable (IsLower c) := inferInstanceAs (Decidable (lower c = [c]))

theorem isLower_of_not_applies {c : Char}
    (h : ∀ r ∈ dottedShift :: lowerShifts, r.applies c.toNat = false) : IsLower c := by
  have hd : c ≠ dottedCapitalI := by
    intro he
    have hn := h dottedShift (by simp)
    rw [dottedShift_applies.2 he] at hn
    cases hn
  unfold IsLower lower
  rw [if_neg hd, shiftBy_eq_self (fun r hr => h r (List.mem_cons_of_mem _ hr)), Char.ofNat_toNat]

/-- Every character of a lower-case form is in lower case. -/
theorem isLower_of_mem_lower {c d : Char} (h : d ∈ lower c) : IsLower d := by
  unfold lower at h
  split at h
  · simp only [List.mem_cons, List.not_mem_nil, or_false] at h
    rcases h with rfl | rfl <;> decide
  · next hc =>
    have hd : dottedShift.applies c.toNat = false :=
      Bool.eq_false_iff.2 (fun ht => hc (dottedShift_applies.1 ht))
    have hn : d.toNat = shiftBy lowerShifts c.toNat := by
      rw [List.mem_singleton.1 h, Char.ofNat, dif_pos (isValidChar_shiftBy_lower c)]
      rfl
    apply isLower_of_not_applies
    rw [hn]
    exact not_applies_shiftBy_lower hd

end KeywordSieve.Unicode

namespace KeywordSieve.Text

open Unicode

theorem ne_capitalSigma_of_isLower {c : Char} (h : IsLower c) : c ≠ capitalSigma := by
  intro he
  subst he
  revert h
  decide

theorem isLower_of_mem_foldChar {before after : Text} {c d : Char}
    (h : d ∈ foldChar before after c) : IsLower d := by
  unfold foldChar at h
  split at h
  · rw [List.mem_singleton.1 h]
    decide
  · exact isLower_of_mem_lower h

theorem foldChar_of_isLower {c : Char} (before after : Text) (h : IsLower c) :
    foldChar before after c = [c] := by
  unfold foldChar
  rw [if_neg (fun hs => ne_capitalSigma_of_isLower h hs.1)]
  exact h

theorem isLower_of_mem_foldAfter {before t : Text} {c : Char} (h : c ∈ foldAfter before t) :
    IsLower c := by
  induction t generalizing before with
  | nil => cases h
  | cons d rest ih =>
    rcases List.mem_append.1 h with h | h
    · exact isLower_of_mem_foldChar h
    · exact ih h

/-- Every character of a folded text is in lower case. -/
theorem isLower_of_mem_fold {t : Text} {c : Char} (h : c ∈ fold t) : IsLower c :=
  isLower_of_mem_foldAfter h

theorem foldAfter_eq_self {t : Text} (before : Text) (h : ∀ c ∈ t, IsLower c) :
    foldAfter before t = t := by
  induction t generalizing before with
  | nil => rfl
  | cons c rest ih =>
    have hr := ih (c :: before) (fun d hd => h d (List.mem_cons_of_mem c hd))
    rw [foldAfter, foldChar_of_isLower before rest (h c (by simp)), hr]
    rfl

/-- A text in lower case is its own fold: no context is looked at. -/
theorem fold_eq_self {t : Text} (h : ∀ c ∈ t, IsLower c) : fold t = t := foldAfter_eq_self [] h

@[simp] theorem fold_fold (t : Text) : fold (fold t) = fold t :=
  fold_eq_self (fun _ hc => isLower_of_mem_fold hc)

end KeywordSieve.Text
