import KeywordSieve.Proofs.Numerals
import KeywordSieve.Proofs.Scanning
import KeywordSieve.Proofs.Trimming

/-!
The words and numbers of JSON as plain scalars of YAML. A number says an integer, a fraction or, if
it has an exponent but no fraction, a text; it is no date and has no parts of sixty. Only an integer
of too many digits says nothing.
-/
namespace KeywordSieve.Yaml

open Text Number Json

variable {t : Text}

def isNumeric (c : Char) : Bool :=
  c.isDigit || c == '-' || c == '+' || c == '.' || c == 'e' || c == 'E'

theorem isOneOf_eq_false {spellings : List String}
    (hs : (spellings.all fun s => !s.toList.head?.any startsNumber) = true)
    (ht : t.head?.any startsNumber = true) : isOneOf spellings t = false := by
  rw [isOneOf, List.any_eq_false]
  intro s hm he
  have hn := List.all_eq_true.1 hs s hm
  rw [← beq_iff_eq.1 he, ht] at hn
  cases hn

theorem not_mem_of_numeric {c : Char} (ht : ∀ d ∈ t, isNumeric d = true)
    (hc : isNumeric c = false) : c ∉ t := by
  intro hm
  rw [ht c hm] at hc
  cases hc

/-- A fraction without colons is read. -/
theorem magnitude?_ok (ht : ∀ c ∈ t, isNumeric c = true) {x : Except ScalarFault Double}
    (h : magnitude? t = some x) : ∃ d, x = .ok d := by
  have hp : pieces ':' (t.takeWhile (· ≠ '.')) = [t.takeWhile (· ≠ '.')] := by
    apply pieces_of_not_mem
    exact fun hm => not_mem_of_numeric ht (by decide) ((List.takeWhile_sublist _).mem hm)
  rw [magnitude?] at h
  simp only [hp] at h
  split at h
  · split at h
    · cases h
      exact ⟨_, rfl⟩
    · cases h
  · next hm _ hcons =>
    cases hcons
    exact absurd rfl hm
  · cases h

/-- Without its underscores an integer consists of its digits. -/
theorem length_bare (h : startsWithDigit isPositiveDigit t = true) :
    (bare t).length ≤ t.countP Char.isDigit := by
  have hall : ∀ c ∈ t, isGrouped c = true := by
    cases t with
    | nil => simp
    | cons c rest =>
      simp only [startsWithDigit, Bool.and_eq_true, List.all_eq_true] at h
      rw [List.forall_mem_cons]
      refine ⟨?_, h.2⟩
      have hc := h.1
      simp only [isPositiveDigit, Bool.and_eq_true, decide_eq_true_eq] at hc
      rw [isGrouped, Bool.or_eq_true, Char.isDigit]
      left
      simp only [ge_iff_le, Bool.and_eq_true, decide_eq_true_eq]
      exact ⟨Char.le_trans (by decide) hc.1, hc.2⟩
  rw [bare, ← List.countP_eq_length_filter]
  apply List.countP_mono_left
  intro c hc hu
  have hg := hall c hc
  rw [isGrouped, Bool.or_eq_true, beq_iff_eq] at hg
  exact hg.resolve_right (by simpa using hu)

theorem natural?_ok (ht : ∀ c ∈ t, isNumeric c = true)
    (hl : t.countP Char.isDigit ≤ greatestLength) {x : Except ScalarFault Nat}
    (h : natural? t = some x) : ∃ n, x = .ok n := by
  unfold natural? at h
  split at h
  · cases h
    exact ⟨_, rfl⟩
  · exact absurd (ht 'b' (by simp)) (by decide)
  · exact absurd (ht 'x' (by simp)) (by decide)
  · split at h
    · cases h
      exact ⟨_, rfl⟩
    · cases h
  · have hp : pieces ':' t = [t] := pieces_of_not_mem (not_mem_of_numeric ht (by decide))
    rw [hp] at h
    dsimp only at h
    split at h
    · next hd =>
      cases h
      simp only [List.all_nil, Bool.and_true] at hd
      have hlength := Nat.le_trans (length_bare hd) hl
      simp only [sexagesimal, List.map_cons, List.map_nil, List.foldlM_cons, List.foldlM_nil,
        decimal, if_pos hlength]
      exact ⟨_, rfl⟩
    · cases h

/-- A text in which no dash stands right behind its first digits is no date. -/
theorem timestamp_eq_none
    (hs : (t.dropWhile Char.isDigit).head? = some '-' → t.head? = some '-') :
    Timestamp.value? t = none := by
  have hrest : (t.take 4).takeWhile Char.isDigit ++
      t.drop ((t.take 4).takeWhile Char.isDigit).length = t :=
    List.prefix_iff_eq_append.1 ((List.takeWhile_prefix _).trans (List.take_prefix _ _))
  have hdigits : ∀ c ∈ (t.take 4).takeWhile Char.isDigit, c.isDigit = true :=
    List.all_eq_true.1 List.all_takeWhile
  generalize hdrop : t.drop ((t.take 4).takeWhile Char.isDigit).length = rest at hrest
  have hexpect : (t.take 4).takeWhile Char.isDigit ≠ [] →
      Timestamp.expect? (· = '-') rest = none := by
    intro hne
    cases rest with
    | nil => rfl
    | cons c more =>
      rw [Timestamp.expect?, if_neg]
      intro hc
      rw [decide_eq_true_eq] at hc
      subst hc
      -- the dash is behind the digits, so it opens the text, and there are none
      have hdash : t.head? = some '-' := by
        apply hs
        rw [← hrest, List.dropWhile_append_of_pos hdigits]
        rfl
      obtain ⟨tail, rfl⟩ := List.head?_eq_some_iff.1 hdash
      exact hne rfl
  have hp : Timestamp.parts? t = none := by
    rw [Timestamp.parts?, Timestamp.digits?]
    dsimp only
    split
    · rfl
    · next hfour =>
      rw [hdrop]
      rw [Option.bind_eq_bind, Option.bind_some, hexpect]
      · rfl
      · rintro hnil
        rw [hnil] at hfour
        exact hfour (by decide)
  rw [Timestamp.value?, hp]
  rfl

theorem sign_subset (t : Text) : (sign t).2 ⊆ t := by
  unfold sign
  split
  · exact List.subset_cons_self _ _
  · exact List.subset_cons_self _ _
  · exact List.Subset.refl _

theorem float?_ok (ht : ∀ c ∈ t, isNumeric c = true) {x : Except ScalarFault Double}
    (h : float? t = some x) : ∃ d, x = .ok d := by
  have hu : ∀ c ∈ (sign t).2, isNumeric c = true := fun c hc => ht c (sign_subset t hc)
  simp only [float?] at h
  split at h
  · cases h
    exact ⟨_, rfl⟩
  split at h
  · cases h
    exact ⟨_, rfl⟩
  split at h
  · split at h
    · cases h
      exact ⟨_, rfl⟩
    · cases h
  · obtain ⟨y, hy, rfl⟩ := Option.map_eq_some_iff.1 h
    obtain ⟨d, rfl⟩ := magnitude?_ok hu hy
    exact ⟨_, rfl⟩

theorem integer?_ok (ht : ∀ c ∈ t, isNumeric c = true)
    (hl : t.countP Char.isDigit ≤ greatestLength) {x : Except ScalarFault Int}
    (h : integer? t = some x) : ∃ n, x = .ok n := by
  have hu : ∀ c ∈ (sign t).2, isNumeric c = true := fun c hc => ht c (sign_subset t hc)
  have hlength : (sign t).2.countP Char.isDigit ≤ t.countP Char.isDigit := by
    unfold sign
    split
    · exact Nat.le_of_eq (List.countP_cons_of_neg (by decide)).symm
    · exact Nat.le_of_eq (List.countP_cons_of_neg (by decide)).symm
    · exact Nat.le_refl _
  simp only [integer?] at h
  obtain ⟨y, hy, rfl⟩ := Option.map_eq_some_iff.1 h
  obtain ⟨n, rfl⟩ := natural?_ok hu (Nat.le_trans hlength hl) hy
  exact ⟨_, rfl⟩

/-- What is written like a number says a value, if it is not too long. -/
theorem ofPlain_numeric (ht : ∀ c ∈ t, isNumeric c = true)
    (hstart : t.head?.any startsNumber = true)
    (hs : (t.dropWhile Char.isDigit).head? = some '-' → t.head? = some '-')
    (hl : t.countP Char.isDigit ≤ greatestLength) : ∃ v, Form.ofPlain t = .ok (.value v) := by
  have hbool : bool? t = none := by
    rw [bool?, isOneOf_eq_false (by decide) hstart, isOneOf_eq_false (by decide) hstart]
    rfl
  rw [Form.ofPlain, isOneOf_eq_false (by decide) hstart, isOneOf_eq_false (by decide) hstart,
    isOneOf_eq_false (by decide) hstart, hbool, timestamp_eq_none hs]
  simp only [Bool.false_eq_true, if_false]
  cases hf : float? t with
  | some x =>
    obtain ⟨d, rfl⟩ := float?_ok ht hf
    exact ⟨_, rfl⟩
  | none =>
    cases hi : integer? t with
    | some x =>
      obtain ⟨n, rfl⟩ := integer?_ok ht hl hi
      exact ⟨_, rfl⟩
    | none => exact ⟨_, rfl⟩

end KeywordSieve.Yaml

namespace KeywordSieve.Json

open Text Yaml

namespace Numeral

variable (n : Numeral)

theorem isNumeric_behind : ∀ c ∈ n.behind, isNumeric c = true := by
  have hdigits : ∀ {ds}, IsDigits ds → ∀ c ∈ ds, isNumeric c = true := by
    intro ds h c hc
    simp [isNumeric, h.2 c hc]
  rw [behind, List.forall_mem_append]
  constructor
  · rcases n.isFraction with hf | ⟨ds, hd, hf⟩
    · simp [hf]
    · rw [hf, List.forall_mem_cons]
      exact ⟨by decide, hdigits hd⟩
  · rcases n.isExponent with he | ⟨e, sign, ds, he, hs, hd, hx⟩
    · simp [he]
    · rw [hx, List.forall_mem_cons, List.forall_mem_append]
      refine ⟨?_, ?_, hdigits hd⟩
      · rcases he with rfl | rfl <;> decide
      · rcases hs with rfl | rfl | rfl <;> simp [isNumeric]

theorem isNumeric_text : ∀ c ∈ n.text, isNumeric c = true := by
  rw [text, List.forall_mem_append, List.forall_mem_append]
  refine ⟨?_, ?_, n.isNumeric_behind⟩
  · rw [sign]
    split <;> simp [isNumeric]
  · intro c hc
    simp [isNumeric, n.isDigits.2 c hc]

/-- A dash behind the first digits is the sign, and there are none in front of it. -/
theorem head?_of_dash (h : (n.text.dropWhile Char.isDigit).head? = some '-') :
    n.text.head? = some '-' := by
  rw [text, sign] at h ⊢
  cases hneg : n.negative with
  | true => rfl
  | false =>
    rw [hneg, if_neg (by simp), List.nil_append, List.dropWhile_append_of_pos n.isDigits.2] at h
    cases hb : n.behind with
    | nil =>
      rw [hb] at h
      cases h
    | cons c more =>
      have hc := n.head?_behind c (by rw [hb]; rfl)
      have hd : c.isDigit = false := by
        rcases hc with rfl | rfl | rfl <;> decide
      rw [hb, List.dropWhile_cons_of_neg (by simp [hd])] at h
      cases h
      exact absurd hc (by decide)

/-- As a plain scalar a number that is not too long says a value. -/
theorem exists_value (hl : n.text.countP Char.isDigit ≤ Number.greatestLength) :
    ∃ v, Form.ofPlain n.text = .ok (.value v) :=
  ofPlain_numeric n.isNumeric_text n.starts n.head?_of_dash hl

end Numeral

namespace Simple

variable (s : Simple)

theorem isPlain : ∀ c ∈ s.text, Plain.isPlain c = true := by
  rcases s.word_or_numeral with hw | ⟨n, hn, -⟩
  · have hall : (words.all fun w => w.1.all Plain.isPlain) = true := by decide
    exact List.all_eq_true.1 (List.all_eq_true.1 hall _ hw)
  · intro c hc
    rw [hn] at hc
    have hnum := n.isNumeric_text c hc
    simp only [isNumeric, Bool.or_eq_true, beq_iff_eq] at hnum
    rcases hnum with ((((hd | rfl) | rfl) | rfl) | rfl) | rfl
    · simp [Plain.isPlain, Char.isAlphanum, hd]
    all_goals decide

/-- As a plain scalar a word or number that is not too long says a value, and null if it is null. -/
theorem exists_value (hf : s.fits = true) :
    ∃ v, Form.ofPlain s.text = .ok (.value v) ∧ (s.value = .null → v = .null) := by
  rcases s.word_or_numeral with hw | ⟨n, hn, hv⟩
  · simp only [words, List.mem_cons, List.not_mem_nil, or_false, Prod.mk.injEq] at hw
    rcases hw with ⟨ht, hj⟩ | ⟨ht, hj⟩ | ⟨ht, hj⟩
    · rw [ht]
      exact ⟨.null, rfl, fun _ => rfl⟩
    · rw [ht, hj]
      exact ⟨.bool true, rfl, fun h => by cases h⟩
    · rw [ht, hj]
      exact ⟨.bool false, rfl, fun h => by cases h⟩
  · obtain ⟨v, hform⟩ := n.exists_value (by simpa [Simple.fits, hn] using hf)
    rw [hn]
    refine ⟨v, hform, fun hj => ?_⟩
    rw [hj, Numeral.value?, numberOf] at hv
    split at hv
    · cases hv
    · obtain ⟨x, -, hx⟩ := Option.map_eq_some_iff.1 hv
      cases hx

end Simple

end KeywordSieve.Json
