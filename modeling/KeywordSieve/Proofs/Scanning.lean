import KeywordSieve.Proofs.Fitting
import KeywordSieve.Proofs.Success

/-!
What the scanner of scalars makes of the words, numbers and strings of JSON inside a collection. A
word or number is read up to the white space behind it, which is passed with it, and a string that
fits is read up to its closing quote, as its codes.
-/
namespace KeywordSieve.Yaml

open Text Cursor

def Mark.pass (m : Mark) (s : Text) : Mark := s.foldl Mark.past m

namespace Mark

variable {m : Mark} {s t : Text}

@[simp] theorem pass_nil (m : Mark) : m.pass [] = m := rfl

@[simp] theorem pass_cons (m : Mark) (c : Char) (s : Text) : m.pass (c :: s) = (m.past c).pass s :=
  rfl

theorem pass_append (m : Mark) (s t : Text) : m.pass (s ++ t) = (m.pass s).pass t :=
  List.foldl_append

theorem index_past (m : Mark) (c : Char) : (m.past c).index = m.index + 1 := by
  unfold past
  split
  · rfl
  · split <;> rfl

theorem index_pass (m : Mark) (s : Text) : (m.pass s).index = m.index + s.length := by
  induction s generalizing m with
  | nil => rfl
  | cons c s ih =>
    rw [pass_cons, ih, index_past, List.length_cons]
    omega

theorem line_past {c : Char} (h : isBreak c = false) (m : Mark) : (m.past c).line = m.line := by
  unfold past
  rw [if_neg (by simp [h])]
  split <;> rfl

theorem line_pass (h : ∀ c ∈ s, isBreak c = false) (m : Mark) : (m.pass s).line = m.line := by
  induction s generalizing m with
  | nil => rfl
  | cons c s ih =>
    rw [List.forall_mem_cons] at h
    rw [pass_cons, ih h.2, line_past h.1]

end Mark

namespace Cursor

theorem skip_append (s t : Text) (m : Mark) : skip s.length ⟨s ++ t, m⟩ = ⟨t, m.pass s⟩ := by
  induction s generalizing m with
  | nil => rfl
  | cons c s ih => exact ih (m.past c)

end Cursor

/-- White space that may stand between two tokens anywhere. -/
def IsGap (s : Text) : Prop := ∀ c ∈ s, c = ' ' ∨ c = '\n'

/-- The characters that are read as they are and end no line. -/
def IsInline (c : Char) : Prop := isAllowed c = true ∧ isBreak c = false ∧ c ≠ '\r'

theorem isInline_of_visible {c : Char} (hl : 0x20 ≤ c.toNat) (hu : c.toNat ≤ 0x7e) :
    IsInline c := by
  have hne : ∀ d : Char, d.toNat < 0x20 ∨ 0x7e < d.toNat → c ≠ d := by
    rintro d hd rfl
    omega
  refine ⟨by simp [isAllowed, hl, hu], ?_, hne '\r' (by decide)⟩
  simp [isBreak, hne '\n' (by decide), hne '\x85' (by decide), hne '\u2028' (by decide),
    hne '\u2029' (by decide)]

namespace Plain

/-- The characters in front of which a value in a flow collection ends. No token begins with a
tab, but it ends one. -/
def Closes (c : Char) : Prop := c = ',' ∨ c = ']' ∨ c = '\x7d' ∨ c = '\t'

/-- The characters of words and numbers. -/
def isPlain (c : Char) : Bool := c.isAlphanum || c == '-' || c == '+' || c == '.'

variable {c : Char} {s gap t : Text} {m : Mark}

theorem ends_of_closes (h : Closes c) (after : Option Char) : ends true c after = true := by
  rcases h with rfl | rfl | rfl | rfl <;> simp [ends, endsWord]

theorem not_ends_of_isPlain (h : isPlain c = true) (after : Option Char) :
    ends true c after = false := by
  apply Bool.eq_false_iff.2
  intro he
  have hm : c ∈ " \t\n\x85\u2028\u2029:,?[]\x7b\x7d".toList := by
    simp only [ends, endsWord, isBreak, Bool.or_eq_true, Bool.and_eq_true, beq_iff_eq,
      List.contains_iff_mem] at he
    rcases he with (((rfl | rfl) | ((rfl | rfl) | rfl) | rfl) | ⟨rfl, -⟩) | ⟨-, he⟩
    all_goals try decide
    exact List.mem_append_right " \t\n\x85\u2028\u2029:".toList he
  have hn : (" \t\n\x85\u2028\u2029:,?[]\x7b\x7d".toList.all (!isPlain ·)) = true := by decide
  have hc := List.all_eq_true.1 hn c hm
  rw [h] at hc
  cases hc

theorem piece_closes (h : Closes c) (t : Text) : piece true (c :: t) = [] := by
  rw [piece, if_pos (ends_of_closes h _)]

/-- A word or number goes on up to white space or the end of the value. -/
theorem piece_plain (hs : ∀ d ∈ s, isPlain d = true) (hg : IsGap gap) (hc : Closes c) :
    piece true (s ++ (gap ++ c :: t)) = s := by
  induction s with
  | nil =>
    cases gap with
    | nil => exact piece_closes hc t
    | cons d gap =>
      rw [IsGap, List.forall_mem_cons] at hg
      rw [List.nil_append, List.cons_append, piece, if_pos]
      rcases hg.1 with rfl | rfl <;> rfl
  | cons d s ih =>
    rw [List.forall_mem_cons] at hs
    rw [List.cons_append, piece, if_neg (by simp [not_ends_of_isPlain hs.1]), ih hs.2]

theorem breaks_gap (hg : IsGap gap) (hc : Closes c) (lineStart : Bool) (m : Mark) :
    ∃ more, breaks lineStart m (gap ++ c :: t) = (some more, ⟨c :: t, m.pass gap⟩) := by
  induction gap generalizing lineStart m with
  | nil =>
    refine ⟨[], ?_⟩
    rcases hc with rfl | rfl | rfl | rfl <;> simp [breaks, atDocumentMarker, isBreak]
  | cons d gap ih =>
    rw [IsGap, List.forall_mem_cons] at hg
    rcases hg.1 with rfl | rfl
    · obtain ⟨more, he⟩ := ih hg.2 false (m.past ' ')
      exact ⟨more, by simp [breaks, atDocumentMarker, he]⟩
    · obtain ⟨more, he⟩ := ih hg.2 true (m.past '\n')
      exact ⟨'\n' :: more, by simp [breaks, atDocumentMarker, isBreak, he, breakText]⟩

/-- The gap behind a word or number is passed with it. -/
theorem gap_closes (hg : IsGap gap) (hc : Closes c) (m : Mark) :
    ∃ space fresh, Plain.gap ⟨gap ++ c :: t, m⟩ = (space, fresh, ⟨c :: t, m.pass gap⟩) := by
  have hclose : isBreak c = false ∧ c ≠ ' ' := by
    rcases hc with rfl | rfl | rfl | rfl <;> decide
  have hspaces : ∀ d ∈ gap.takeWhile (· = ' '), decide (d = ' ') = true := by
    exact List.all_eq_true.1 List.all_takeWhile
  have hsplit : gap = gap.takeWhile (· = ' ') ++ gap.dropWhile (· = ' ') :=
    List.takeWhile_append_dropWhile.symm
  generalize gap.takeWhile (· = ' ') = spaces at hspaces hsplit
  cases hd : gap.dropWhile (· = ' ') with
  | nil =>
    rw [hd, List.append_nil] at hsplit
    subst hsplit
    have ht : (gap ++ c :: t).takeWhile (· = ' ') = gap := by
      rw [List.takeWhile_append_of_pos hspaces, List.takeWhile_cons_of_neg (by simpa using hclose.2),
        List.append_nil]
    refine ⟨gap, false, ?_⟩
    simp only [Plain.gap, ht, skip_append, head?, List.head?_cons, hclose.1]
    rfl
  | cons d behind =>
    have hne : d ≠ ' ' := by
      have hn := List.head?_dropWhile_not (· = ' ') gap
      rw [hd] at hn
      simpa using hn
    rw [hd] at hsplit
    subst hsplit
    have hg' : IsGap behind := fun e he => hg e (by simp [he])
    obtain rfl : d = '\n' := (hg d (by simp)).resolve_left hne
    have ht : (spaces ++ '\n' :: behind ++ c :: t).takeWhile (· = ' ') = spaces := by
      rw [List.append_assoc, List.takeWhile_append_of_pos hspaces, List.cons_append,
        List.takeWhile_cons_of_neg (by decide), List.append_nil]
    obtain ⟨more, hm⟩ := breaks_gap (t := t) hg' hc true ((m.pass spaces).past '\n')
    refine ⟨folded '\n' more, true, ?_⟩
    have hk := skip_append spaces ('\n' :: (behind ++ c :: t)) m
    rw [Plain.gap]
    simp only [ht]
    rw [List.append_assoc, List.cons_append, hk]
    simp only [head?, List.head?_cons, next, hm, Mark.pass_append, Mark.pass_cons]
    rfl

/-- A word or number is read as it is. -/
theorem read_plain (hs : ∀ d ∈ s, isPlain d = true) (hne : s ≠ []) (hg : IsGap gap)
    (hc : Closes c) (indent : Int) (m : Mark) : ∃ fresh m',
      read true indent ⟨s ++ (gap ++ c :: t), m⟩ = (s, fresh, ⟨c :: t, m'⟩) := by
  obtain ⟨d, more, rfl⟩ := List.exists_cons_of_ne_nil hne
  obtain ⟨space, fresh, hgap⟩ := gap_closes (t := t) hg hc (m.pass (d :: more))
  have hstart : d ≠ '#' := by
    rintro rfl
    exact absurd (hs '#' (by simp)) (by decide)
  refine ⟨fresh, (m.pass (d :: more)).pass gap, ?_⟩
  have hstop : ∀ fuel before, pieces true indent fuel before fresh
      ⟨c :: t, (m.pass (d :: more)).pass gap⟩ =
        ([], fresh, ⟨c :: t, (m.pass (d :: more)).pass gap⟩) := by
    intro fuel before
    cases fuel with
    | zero => rfl
    | succ fuel => simp [pieces, piece_closes hc]
  rw [read, List.cons_append, List.length_cons, pieces]
  simp only [← List.cons_append, piece_plain hs hg hc, skip_append, hgap, hstop]
  simp [sees, head?, hstart]

end Plain

namespace Quoted

open Json

variable {start m : Mark} {fuel : Nat} {t u : Text}

theorem letterCode?_of_escaped? {e c : Char} (h : escaped? e = some c) :
    letterCode? e = some c.toNat := by
  unfold escaped? at h
  split at h <;> cases h <;> rfl

/-- A hexadecimal digit is a visible character, and its value is less than sixteen. -/
theorem hexValue?_bounds {c : Char} {n : Nat} (h : Text.hexValue? c = some n) :
    n < 16 ∧ 0x20 ≤ c.toNat ∧ c.toNat ≤ 0x7e := by
  unfold Text.hexValue? at h
  simp only [Char.le_def, UInt32.le_iff_toNat_le, Char.toNat_val] at h
  have h0 : '0'.toNat = 48 := rfl
  have h9 : '9'.toNat = 57 := rfl
  have ha : 'a'.toNat = 97 := rfl
  have hf : 'f'.toNat = 102 := rfl
  have hA : 'A'.toNat = 65 := rfl
  have hF : 'F'.toNat = 70 := rfl
  split at h
  · cases h
    omega
  · split at h
    · cases h
      omega
    · split at h
      · cases h
        omega
      · cases h

/-- The digits of a code by their values. -/
theorem exists_hexValues {a b c d : Char} {n : Nat} (h : hexCode? a b c d = some n) :
    ∃ i j k l, Text.hexValue? a = some i ∧ Text.hexValue? b = some j ∧
      Text.hexValue? c = some k ∧ Text.hexValue? d = some l ∧
      n = 16 * (16 * (16 * (16 * 0 + i) + j) + k) + l := by
  simp only [hexCode?, List.foldlM_cons, List.foldlM_nil] at h
  simp only [Option.bind_eq_bind, Option.bind_eq_some_iff, Option.map_eq_some_iff] at h
  obtain ⟨_, ⟨i, ha, rfl⟩, _, ⟨j, hb, rfl⟩, _, ⟨k, hc, rfl⟩, _, ⟨l, hd, rfl⟩, h⟩ := h
  cases h
  exact ⟨i, j, k, l, ha, hb, hc, hd, rfl⟩

theorem hexNumber_of_hexCode? {a b c d : Char} {n : Nat} (h : hexCode? a b c d = some n)
    (t : Text) : hexNumber 0 4 (a :: b :: c :: d :: t) = .ok n ∧ n < 0x110000 := by
  obtain ⟨i, j, k, l, ha, hb, hc, hd, rfl⟩ := exists_hexValues h
  refine ⟨by simp only [hexNumber, ha, hb, hc, hd], ?_⟩
  have := (hexValue?_bounds ha).1
  have := (hexValue?_bounds hb).1
  have := (hexValue?_bounds hc).1
  have := (hexValue?_bounds hd).1
  omega

/-- A piece that is no space is read as its number. -/
theorem body_piece (p : Piece) (hf : p.fits = true) (hp : p.text ≠ [' ']) :
    body true start (fuel + 1) ⟨p.text ++ t, m⟩ =
      (fun r => (p.number :: r.1, r.2)) <$> body true start fuel ⟨t, m.pass p.text⟩ := by
  cases p with
  | plain c h =>
    simp only [Piece.fits, Bool.and_eq_true, Bool.not_eq_true'] at hf
    have hs : isSpaceOrTab c = false := by
      simp only [isSpaceOrTab, Bool.or_eq_false_iff, beq_eq_false_iff_ne]
      refine ⟨?_, ?_⟩
      · rintro rfl
        exact hp rfl
      · rintro rfl
        exact absurd h.2.2 (by decide)
    simp [body, head?, Piece.text, h.1, h.2.1, hs, hf.2, next]
    rfl
  | letter e c h =>
    simp [body, head?, Piece.text, isSpaceOrTab, isBreak, escape, next, letterCode?_of_escaped? h]
    rfl
  | code a b c d n h =>
    obtain ⟨hn, hlt⟩ := hexNumber_of_hexCode? h t
    simp [body, head?, Piece.text, isSpaceOrTab, isBreak, escape, next, letterCode?, codeLength?,
      hn, hlt, skip]
    rfl

/-- Spaces are read as they are if a character follows that is neither a space nor a line end. -/
theorem body_spaces {c : Char} (hs : isSpaceOrTab c = false) (hb : isBreak c = false) (n : Nat) :
    body true start (fuel + 1) ⟨List.replicate (n + 1) ' ' ++ c :: t, m⟩ =
      (fun r => ((List.replicate (n + 1) ' ').map Char.toNat ++ r.1, r.2)) <$>
        body true start fuel ⟨c :: t, m.pass (List.replicate (n + 1) ' ')⟩ := by
  have hall : ∀ d ∈ List.replicate (n + 1) ' ', isSpaceOrTab d = true := by
    intro d hd
    rw [List.eq_of_mem_replicate hd]
    rfl
  have hg : gap start ⟨List.replicate (n + 1) ' ' ++ c :: t, m⟩ =
      .ok (List.replicate (n + 1) ' ', ⟨c :: t, m.pass (List.replicate (n + 1) ' ')⟩) := by
    have ht : (List.replicate (n + 1) ' ' ++ c :: t).takeWhile isSpaceOrTab =
        List.replicate (n + 1) ' ' := by
      rw [List.takeWhile_append_of_pos hall, List.takeWhile_cons_of_neg (by simp [hs]),
        List.append_nil]
    simp only [gap, ht, skip_append, head?, List.head?_cons, hb]
    rfl
  have hhead : head? ⟨List.replicate (n + 1) ' ' ++ c :: t, m⟩ = some ' ' := rfl
  rw [body]
  simp only [hhead, hg]
  rfl

/-- A text that is read as some codes is read with the spaces in front of it too. -/
theorem body_behind_spaces {c : Char} {s : Text} {codes : List Nat} (steps : Nat)
    (hs : isSpaceOrTab c = false) (hb : isBreak c = false)
    (h : ∀ fuel m, steps < fuel → body true start fuel ⟨c :: t, m⟩ = .ok (codes, ⟨u, m.pass s⟩))
    (spaces : Nat) (hfuel : spaces + steps < fuel) :
    body true start fuel ⟨List.replicate spaces ' ' ++ c :: t, m⟩ =
      .ok ((List.replicate spaces ' ').map Char.toNat ++ codes,
        ⟨u, m.pass (List.replicate spaces ' ' ++ s)⟩) := by
  obtain ⟨fuel, rfl⟩ := Nat.exists_eq_add_of_le' (show 1 ≤ fuel by omega)
  cases spaces with
  | zero => exact h (fuel + 1) m (by omega)
  | succ n =>
    rw [body_spaces hs hb, h fuel _ (by omega), Mark.pass_append]
    rfl

/-- A piece that is no space begins with a character at which a run of spaces ends. -/
theorem exists_head (p : Piece) (hf : p.fits = true) (hp : p.text ≠ [' ']) :
    ∃ c more, p.text = c :: more ∧ isSpaceOrTab c = false ∧ isBreak c = false := by
  cases p with
  | plain c h =>
    simp only [Piece.fits, Bool.and_eq_true, Bool.not_eq_true'] at hf
    refine ⟨c, [], rfl, ?_, hf.2⟩
    simp only [isSpaceOrTab, Bool.or_eq_false_iff, beq_eq_false_iff_ne]
    constructor
    · rintro rfl
      exact hp rfl
    · rintro rfl
      exact absurd h.2.2 (by decide)
  | letter e c h => exact ⟨_, _, rfl, by decide, by decide⟩
  | code a b c d n h => exact ⟨_, _, rfl, by decide, by decide⟩

/-- The pieces up to the closing quote are read as their numbers, with some spaces in front. -/
theorem body_pieces (start m : Mark) (u : Text) (ps : List Piece)
    (hf : ∀ p ∈ ps, p.fits = true) (spaces : Nat) (hfuel : spaces + ps.length < fuel) :
    body true start fuel
        ⟨List.replicate spaces ' ' ++ (ps.flatMap Piece.text ++ '"' :: u), m⟩ =
      .ok ((List.replicate spaces ' ').map Char.toNat ++ ps.map Piece.number,
        ⟨u, m.pass (List.replicate spaces ' ' ++ (ps.flatMap Piece.text ++ ['"']))⟩) := by
  induction ps generalizing spaces m fuel with
  | nil =>
    apply body_behind_spaces 0 (by decide) (by decide)
    · intro fuel m hfuel
      obtain ⟨fuel, rfl⟩ := Nat.exists_eq_add_of_le' (show 1 ≤ fuel by omega)
      rfl
    · omega
  | cons p ps ih =>
    rw [List.forall_mem_cons] at hf
    rw [List.length_cons] at hfuel
    by_cases hp : p.text = [' ']
    · -- one more space in front
      have hn : p.number = ' '.toNat := by
        cases p with
        | plain c h =>
          cases hp
          rfl
        | letter => cases hp
        | code => cases hp
      have hr := ih m hf.2 (spaces + 1) (show spaces + 1 + ps.length < fuel by omega)
      simpa [List.replicate_succ', hp, hn] using hr
    · obtain ⟨c, more, hc, hs, hb⟩ := exists_head p hf.1 hp
      rw [List.flatMap_cons, hc, List.cons_append, List.cons_append, List.append_assoc]
      apply body_behind_spaces (ps.length + 1) hs hb
      · intro fuel m hfuel
        obtain ⟨fuel, rfl⟩ := Nat.exists_eq_add_of_le' (show 1 ≤ fuel by omega)
        have hr := ih (m.pass p.text) hf.2 0 (show 0 + ps.length < fuel by omega)
        rw [List.replicate_zero, List.nil_append, List.nil_append] at hr
        have hpass : m.pass (c :: (more ++ List.flatMap Piece.text ps) ++ ['"']) =
            (m.pass p.text).pass (ps.flatMap Piece.text ++ ['"']) := by
          rw [← Mark.pass_append, hc, List.cons_append, List.append_assoc, List.cons_append]
        rw [← List.cons_append, ← hc, body_piece p hf.1 hp, hr, hpass]
        rfl
      · omega

theorem length_pieces (ps : List Piece) : ps.length ≤ (ps.flatMap Piece.text).length := by
  induction ps with
  | nil => simp
  | cons p ps ih =>
    have hp : 1 ≤ p.text.length := by
      cases p <;> simp [Piece.text]
    rw [List.flatMap_cons, List.length_append, List.length_cons]
    omega

/-- A string that fits is read as its codes. -/
theorem read_literal (l : Literal) (hf : ∀ p ∈ l.pieces, p.fits = true) :
    read true ⟨l.text ++ u, m⟩ = .ok (l.codes, ⟨u, m.pass l.text⟩) := by
  have hfuel : 0 + l.pieces.length < (l.text ++ u).length := by
    have hl := length_pieces l.pieces
    simp only [Literal.text, Literal.inside, List.length_append, List.length_cons]
    omega
  have hb := body_pieces m (m.past '"') u l.pieces hf 0 hfuel
  have ht : l.text ++ u = '"' :: (l.pieces.flatMap Piece.text ++ '"' :: u) := by
    simp [Literal.text, Literal.inside]
  rw [read]
  dsimp only
  rw [ht] at hb ⊢
  exact hb

/-! A string that fits is on one line, and its characters are read as they are. -/

theorem isInline_piece (p : Piece) (hf : p.fits = true) : ∀ c ∈ p.text, IsInline c := by
  have hdigit : ∀ {c n}, Text.hexValue? c = some n → IsInline c := by
    intro c n h
    exact isInline_of_visible (hexValue?_bounds h).2.1 (hexValue?_bounds h).2.2
  cases p with
  | plain c h =>
    simp only [Piece.fits, Bool.and_eq_true, Bool.not_eq_true'] at hf
    simp only [Piece.text, List.mem_singleton]
    rintro _ rfl
    refine ⟨hf.1, hf.2, ?_⟩
    rintro rfl
    exact absurd h.2.2 (by decide)
  | letter e c h =>
    have he : 0x20 ≤ e.toNat ∧ e.toNat ≤ 0x7e := by
      unfold escaped? at h
      split at h <;> first | decide | cases h
    simp only [Piece.text, List.forall_mem_cons]
    exact ⟨isInline_of_visible (by decide) (by decide), isInline_of_visible he.1 he.2, by simp⟩
  | code a b c d n h =>
    obtain ⟨i, j, k, l, ha, hb, hc, hd, -⟩ := exists_hexValues h
    simp only [Piece.text, List.forall_mem_cons]
    exact ⟨isInline_of_visible (by decide) (by decide),
      isInline_of_visible (by decide) (by decide), hdigit ha, hdigit hb, hdigit hc, hdigit hd,
      by simp⟩

theorem isInline_literal {l : Literal} (hf : l.fits = true) : ∀ c ∈ l.text, IsInline c := by
  have hq : IsInline '"' := isInline_of_visible (by decide) (by decide)
  rw [Literal.text, List.forall_mem_cons, List.forall_mem_append]
  refine ⟨hq, ?_, by simpa using hq⟩
  intro c hc
  obtain ⟨p, hp, hc⟩ := List.mem_flatMap.1 hc
  exact isInline_piece p (List.all_eq_true.1 hf p hp) c hc

end Quoted

end KeywordSieve.Yaml
