import KeywordSieve.Json.Written

/-!
The numbers of JSON by their parts. A number that is read at the head of a text consists of a sign,
digits without leading zeros, a fraction and an exponent, and what is no string, array or object is
such a number or one of three words.
-/
namespace KeywordSieve.Json

open Text

def IsDigits (t : Text) : Prop := t ≠ [] ∧ ∀ c ∈ t, c.isDigit = true

/-- A fraction with its point, if there is one. -/
def IsFraction (t : Text) : Prop := t = [] ∨ ∃ ds, IsDigits ds ∧ t = '.' :: ds

/-- An exponent with its letter and sign, if there is one. -/
def IsExponent (t : Text) : Prop := t = [] ∨ ∃ e sign ds, (e = 'e' ∨ e = 'E') ∧
  (sign = [] ∨ sign = ['-'] ∨ sign = ['+']) ∧ IsDigits ds ∧ t = e :: (sign ++ ds)

/-- The parts of a number. No digit stands behind a leading zero. -/
structure Numeral where
  negative : Bool
  whole : Text
  fraction : Text
  exponent : Text
  isDigits : IsDigits whole
  leading : whole.head? = some '0' → whole = ['0']
  isFraction : IsFraction fraction
  isExponent : IsExponent exponent

variable {t rest whole : Text} {j : Json}

/-- The number that some parts denote, given whether there is a minus sign. -/
def numberOf (negative : Bool) (whole frac expo : Text) : Option Json :=
  if frac.isEmpty && expo.isEmpty then
    let n := (Double.leadingDigits whole).1
    some (int (if negative then -(n : Int) else n))
  else (Double.ofUnsigned? negative (whole ++ frac ++ expo)).map double

def unsigned? (negative : Bool) (t : Text) : Option (Json × Text) :=
  let whole := t.takeWhile Char.isDigit
  let behind := t.drop whole.length
  let frac := fraction behind
  let expo := exponent (behind.drop frac.length)
  if whole.isEmpty || (whole.head? == some '0' && whole != ['0']) then none
  else (numberOf negative whole frac expo).map (·, behind.drop (frac.length + expo.length))

theorem map_numberOf (negative : Bool) (whole frac expo rest : Text) :
    (numberOf negative whole frac expo).map (·, rest) =
      if frac.isEmpty && expo.isEmpty then
        let n := (Double.leadingDigits whole).1
        some (int (if negative then -(n : Int) else n), rest)
      else (Double.ofUnsigned? negative (whole ++ frac ++ expo)).map fun x => (double x, rest) := by
  unfold numberOf
  split
  · rfl
  · rw [Option.map_map]
    rfl

theorem number?_minus (u : Text) : number? ('-' :: u) = unsigned? true u := by
  simp only [unsigned?, map_numberOf]
  rfl

theorem number?_plus (h : t.head? ≠ some '-') : number? t = unsigned? false t := by
  simp only [unsigned?, map_numberOf]
  rw [number?]
  rintro rest rfl
  exact h rfl

namespace Numeral

def sign (n : Numeral) : Text := if n.negative then ['-'] else []

def behind (n : Numeral) : Text := n.fraction ++ n.exponent

def text (n : Numeral) : Text := n.sign ++ (n.whole ++ n.behind)

def value? (n : Numeral) : Option Json := numberOf n.negative n.whole n.fraction n.exponent

end Numeral

theorem isDigits_takeWhile (h : (t.takeWhile Char.isDigit).isEmpty = false) :
    IsDigits (t.takeWhile Char.isDigit) :=
  ⟨by simpa using h, List.all_eq_true.1 List.all_takeWhile⟩

/-- What is taken off the head of a text as a fraction is one. -/
theorem fraction_split (t : Text) : ∃ rest, IsFraction (fraction t) ∧ t = fraction t ++ rest := by
  unfold fraction
  split
  · next more =>
    dsimp only
    cases hd : (more.takeWhile Char.isDigit).isEmpty with
    | true => exact ⟨_, Or.inl rfl, rfl⟩
    | false =>
      refine ⟨more.dropWhile Char.isDigit, Or.inr ⟨_, isDigits_takeWhile hd, rfl⟩, ?_⟩
      rw [if_neg (by simp), List.cons_append, List.takeWhile_append_dropWhile]
  · exact ⟨t, Or.inl rfl, rfl⟩

theorem exponent_split (t : Text) : ∃ rest, IsExponent (exponent t) ∧ t = exponent t ++ rest := by
  cases t with
  | nil => exact ⟨[], Or.inl rfl, rfl⟩
  | cons e more =>
    obtain ⟨sign, behind, hsplit, hsign, he⟩ : ∃ sign behind, more = sign ++ behind ∧
        (sign = [] ∨ sign = ['-'] ∨ sign = ['+']) ∧ exponent (e :: more) =
          if (e == 'e' || e == 'E') && !(behind.takeWhile Char.isDigit).isEmpty then
            e :: sign ++ behind.takeWhile Char.isDigit
          else [] := by
      simp only [exponent]
      split
      · exact ⟨['-'], _, rfl, by simp, rfl⟩
      · exact ⟨['+'], _, rfl, by simp, rfl⟩
      · exact ⟨[], _, rfl, by simp, rfl⟩
    rw [he]
    split
    · next h =>
      simp only [Bool.and_eq_true, Bool.or_eq_true, beq_iff_eq, Bool.not_eq_true'] at h
      refine ⟨behind.dropWhile Char.isDigit,
        Or.inr ⟨e, sign, _, h.1, hsign, isDigits_takeWhile h.2, rfl⟩, ?_⟩
      rw [hsplit, List.cons_append, List.cons_append, List.append_assoc,
        List.takeWhile_append_dropWhile]
    · exact ⟨e :: more, Or.inl rfl, rfl⟩

theorem takeWhile_digits (rest : Text) (hw : ∀ c ∈ whole, c.isDigit = true)
    (hr : ∀ c ∈ rest.head?, c.isDigit = false) :
    (whole ++ rest).takeWhile Char.isDigit = whole := by
  rw [List.takeWhile_append_of_pos hw]
  cases rest with
  | nil => simp
  | cons c rest => rw [List.takeWhile_cons_of_neg (by simp [hr c rfl]), List.append_nil]

namespace Numeral

variable (n : Numeral)

/-- No digit stands behind the whole number. -/
theorem head?_behind : ∀ c ∈ n.behind.head?, c = '.' ∨ c = 'e' ∨ c = 'E' := by
  intro c hc
  rw [behind] at hc
  rcases n.isFraction with hf | ⟨ds, -, hf⟩
  · rw [hf, List.nil_append] at hc
    rcases n.isExponent with he | ⟨e, sign, ds, he, -, -, hx⟩
    · rw [he] at hc
      cases hc
    · rw [hx] at hc
      cases hc
      exact Or.inr he
  · rw [hf] at hc
    cases hc
    exact Or.inl rfl

/-- What may stand behind a number. -/
def Stops (rest : Text) : Prop := ∀ c ∈ rest.head?, c.isDigit = false ∧ c ≠ '.' ∧ c ≠ 'e' ∧ c ≠ 'E'

theorem stops_nil : Stops [] := by
  simp [Stops]

theorem takeWhile_whole (h : Stops rest) :
    (n.whole ++ (n.behind ++ rest)).takeWhile Char.isDigit = n.whole := by
  apply takeWhile_digits _ n.isDigits.2
  intro c hc
  rw [List.head?_append, Option.mem_def, Option.or_eq_some_iff] at hc
  rcases hc with hc | ⟨-, hc⟩
  · rcases n.head?_behind c hc with rfl | rfl | rfl <;> decide
  · exact (h c hc).1

end Numeral

theorem fraction_append {frac expo : Text} (hf : IsFraction frac) (he : IsExponent expo)
    (h : Numeral.Stops rest) : fraction (frac ++ (expo ++ rest)) = frac := by
  have hx : ∀ c ∈ (expo ++ rest).head?, c.isDigit = false ∧ c ≠ '.' := by
    rcases he with rfl | ⟨e, sign, ds, he, -, -, rfl⟩
    · exact fun c hc => ⟨(h c hc).1, (h c hc).2.1⟩
    · intro c hc
      cases hc
      rcases he with rfl | rfl <;> decide
  rcases hf with rfl | ⟨ds, hd, rfl⟩
  · rw [List.nil_append]
    unfold fraction
    split
    · next heq =>
      rw [heq] at hx
      exact absurd rfl (hx '.' rfl).2
    · rfl
  · have ht : (ds ++ (expo ++ rest)).takeWhile Char.isDigit = ds :=
      takeWhile_digits _ hd.2 fun c hc => (hx c hc).1
    simp [fraction, ht, hd.1]

theorem exponent_append {expo : Text} (he : IsExponent expo) (h : Numeral.Stops rest) :
    exponent (expo ++ rest) = expo := by
  rcases he with rfl | ⟨e, sign, ds, he, hs, hd, rfl⟩
  · cases rest with
    | nil => rfl
    | cons c rest => simp [exponent, (h c rfl).2.2.1, (h c rfl).2.2.2]
  · have ht : (ds ++ rest).takeWhile Char.isDigit = ds :=
      takeWhile_digits _ hd.2 fun c hc => (h c hc).1
    have hee : (e == 'e' || e == 'E') = true := by simpa using he
    rcases hs with rfl | rfl | rfl
    · obtain ⟨d, more, rfl⟩ := List.exists_cons_of_ne_nil hd.1
      have hdd := hd.2 d (by simp)
      have hm : d ≠ '-' ∧ d ≠ '+' := by
        constructor <;> rintro rfl <;> exact absurd hdd (by decide)
      simp only [exponent, List.nil_append, List.cons_append]
      split
      · next h => cases h; exact absurd rfl hm.1
      · next h => cases h; exact absurd rfl hm.2
      · rw [← List.cons_append, ht]
        simp [hee]
    · simp [exponent, hee, ht, hd.1]
    · simp [exponent, hee, ht, hd.1]

/-- What is read as a number without a sign is one. -/
theorem exists_of_unsigned? {negative : Bool} (h : unsigned? negative t = some (j, rest)) :
    ∃ n : Numeral, n.negative = negative ∧ t = n.whole ++ (n.behind ++ rest) ∧
      n.value? = some j := by
  have hwhole : ∀ c ∈ t.takeWhile Char.isDigit, c.isDigit = true :=
    List.all_eq_true.1 List.all_takeWhile
  have ht : t = t.takeWhile Char.isDigit ++ t.drop (t.takeWhile Char.isDigit).length :=
    (List.prefix_iff_eq_append.1 (List.takeWhile_prefix _)).symm
  obtain ⟨more, hfrac, hmore⟩ := fraction_split (t.drop (t.takeWhile Char.isDigit).length)
  obtain ⟨last, hexpo, hlast⟩ := exponent_split more
  simp only [unsigned?] at h
  split at h
  · cases h
  next hn =>
  simp only [Bool.or_eq_true, Bool.and_eq_true, beq_iff_eq, bne_iff_ne, not_or, not_and,
    Decidable.not_not, List.isEmpty_iff] at hn
  generalize t.takeWhile Char.isDigit = whole at *
  generalize t.drop whole.length = behind at *
  generalize fraction behind = frac at *
  subst hmore
  rw [List.drop_left] at h
  generalize exponent more = expo at *
  subst hlast
  rw [← List.drop_drop, List.drop_left, List.drop_left] at h
  obtain ⟨_, hj, hp⟩ := Option.map_eq_some_iff.1 h
  cases hp
  refine ⟨⟨negative, whole, frac, expo, ⟨hn.1, hwhole⟩, hn.2, hfrac, hexpo⟩, rfl, ?_, hj⟩
  rw [ht, Numeral.behind, List.append_assoc]

/-- What is read as a number is one. -/
theorem exists_numeral (h : number? t = some (j, rest)) :
    ∃ n : Numeral, t = n.text ++ rest ∧ n.value? = some j := by
  by_cases hm : t.head? = some '-'
  · obtain ⟨u, rfl⟩ := List.head?_eq_some_iff.1 hm
    rw [number?_minus] at h
    obtain ⟨n, hn, rfl, hj⟩ := exists_of_unsigned? h
    refine ⟨n, ?_, hj⟩
    simp [Numeral.text, Numeral.sign, hn]
  · rw [number?_plus hm] at h
    obtain ⟨n, hn, rfl, hj⟩ := exists_of_unsigned? h
    refine ⟨n, ?_, hj⟩
    simp [Numeral.text, Numeral.sign, hn]

/-- A number is read as its value. -/
theorem number?_append (n : Numeral) (h : Numeral.Stops rest) :
    number? (n.text ++ rest) = n.value?.map (·, rest) := by
  have hu : unsigned? n.negative (n.whole ++ (n.behind ++ rest)) = n.value?.map (·, rest) := by
    have hn : (n.whole.isEmpty || (n.whole.head? == some '0' && n.whole != ['0'])) = false := by
      simpa [n.isDigits.1] using n.leading
    have hf : fraction (n.behind ++ rest) = n.fraction := by
      rw [Numeral.behind, List.append_assoc, fraction_append n.isFraction n.isExponent h]
    have he : exponent ((n.behind ++ rest).drop n.fraction.length) = n.exponent := by
      rw [Numeral.behind, List.append_assoc, List.drop_left, exponent_append n.isExponent h]
    have hd : (n.behind ++ rest).drop (n.fraction.length + n.exponent.length) = rest := by
      rw [Numeral.behind, ← List.length_append, List.drop_left]
    simp only [unsigned?, n.takeWhile_whole h, List.drop_left, hf, he, hn, hd]
    rfl
  obtain ⟨d, more, hd⟩ := List.exists_cons_of_ne_nil n.isDigits.1
  have hdigit : d.isDigit = true := n.isDigits.2 d (by simp [hd])
  rw [Numeral.text, Numeral.sign, List.append_assoc, List.append_assoc]
  cases hneg : n.negative with
  | true =>
    rw [if_pos rfl, List.cons_append, List.nil_append, number?_minus, ← hneg, hu]
  | false =>
    rw [if_neg (by simp), List.nil_append, number?_plus, ← hneg, hu]
    rw [hd]
    rintro hm
    cases hm
    exact absurd hdigit (by decide)

/-- A number begins with a digit or a dash; no word does. -/
def startsNumber (c : Char) : Bool := c.isDigit || c == '-'

namespace Numeral

variable (n : Numeral)

/-- A number begins with a digit, or with a dash and a digit. -/
theorem exists_cons : ∃ c more, n.text = c :: more ∧
    (c.isDigit = true ∨ c = '-' ∧ ∃ d ∈ more.head?, d.isDigit = true) := by
  obtain ⟨d, more, hd⟩ := List.exists_cons_of_ne_nil n.isDigits.1
  have hdigit : d.isDigit = true := n.isDigits.2 d (by simp [hd])
  rw [text, sign, hd]
  cases n.negative with
  | true => exact ⟨'-', _, rfl, Or.inr ⟨rfl, d, rfl, hdigit⟩⟩
  | false => exact ⟨d, _, rfl, Or.inl hdigit⟩

theorem starts : n.text.head?.any startsNumber = true := by
  obtain ⟨c, more, ht, hc⟩ := n.exists_cons
  rw [ht, List.head?_cons, Option.any_some, startsNumber]
  rcases hc with hc | ⟨rfl, -⟩
  · simp [hc]
  · rfl

end Numeral

def words : List (Text × Json) :=
  [("null".toList, null), ("true".toList, bool true), ("false".toList, bool false)]

theorem after?_eq_some {word : Text} (h : after? word t = some rest) : t = word ++ rest := by
  rw [after?] at h
  split at h
  · next hp =>
    cases h
    exact (List.prefix_iff_eq_append.1 (List.isPrefixOf_iff_prefix.1 hp)).symm
  · cases h

/-- What is no string, array or object is a word or a number. -/
theorem simple?_cases (h : simple? t = some (j, rest)) :
    (∃ w ∈ words, t = w.1 ++ rest ∧ j = w.2) ∨ number? t = some (j, rest) := by
  rw [simple?] at h
  split at h
  · next hn =>
    cases h
    exact Or.inl ⟨_, List.mem_cons_self, after?_eq_some hn, rfl⟩
  · next hn =>
    cases h
    exact Or.inl ⟨_, List.mem_cons_of_mem _ List.mem_cons_self, after?_eq_some hn, rfl⟩
  · next hn =>
    cases h
    exact Or.inl ⟨("false".toList, bool false), by simp [words], after?_eq_some hn, rfl⟩
  · exact Or.inr h

theorem after?_eq_none {word : Text} (hw : word.head?.any startsNumber = false) (hne : word ≠ [])
    (ht : t.head?.any startsNumber = true) : after? word t = none := by
  obtain ⟨c, more, rfl⟩ := List.exists_cons_of_ne_nil hne
  rw [after?, if_neg]
  rw [List.isPrefixOf_iff_prefix]
  rintro ⟨rest, rfl⟩
  simp only [List.cons_append, List.head?_cons, Option.any_some] at hw ht
  rw [hw] at ht
  cases ht

theorem simple?_append (n : Numeral) (h : Numeral.Stops rest) :
    simple? (n.text ++ rest) = n.value?.map (·, rest) := by
  have hs : (n.text ++ rest).head?.any startsNumber = true := by
    obtain ⟨c, more, ht, -⟩ := n.exists_cons
    have hn := n.starts
    rw [ht] at hn ⊢
    exact hn
  rw [simple?, after?_eq_none (by decide) (by decide) hs, after?_eq_none (by decide) (by decide) hs,
    after?_eq_none (by decide) (by decide) hs]
  exact number?_append n h

/-- What is read as a word or number is one. -/
theorem exists_simple (h : simple? t = some (j, rest)) :
    ∃ s : Simple, t = s.text ++ rest ∧ s.value = j := by
  rcases simple?_cases h with ⟨w, hw, rfl, rfl⟩ | hn
  · refine ⟨⟨w.1, w.2, ?_⟩, rfl, rfl⟩
    simp only [words, List.mem_cons, List.not_mem_nil, or_false] at hw
    rcases hw with rfl | rfl | rfl <;> rfl
  · obtain ⟨n, rfl, hj⟩ := exists_numeral hn
    refine ⟨⟨n.text, j, ?_⟩, rfl, rfl⟩
    rw [← List.append_nil n.text, simple?_append n Numeral.stops_nil, hj]
    rfl

namespace Simple

variable (s : Simple)

theorem word_or_numeral : (s.text, s.value) ∈ words ∨ ∃ n : Numeral, s.text = n.text ∧
    n.value? = some s.value := by
  rcases simple?_cases s.denotes with ⟨w, hw, ht, hj⟩ | hn
  · rw [List.append_nil] at ht
    rw [ht, hj]
    exact Or.inl hw
  · obtain ⟨n, ht, hj⟩ := exists_numeral hn
    rw [List.append_nil] at ht
    exact Or.inr ⟨n, ht, hj⟩

/-- A word or number begins with a letter or digit, or with a dash and a digit. -/
theorem exists_cons : ∃ c more, s.text = c :: more ∧
    (c.isAlphanum = true ∨ c = '-' ∧ ∃ d ∈ more.head?, d.isDigit = true) := by
  rcases s.word_or_numeral with hw | ⟨n, hn, -⟩
  · have hall : (words.all fun w => w.1.head?.any Char.isAlphanum) = true := by decide
    obtain ⟨c, hc, ha⟩ := (Option.any_eq_true _ _).1 (List.all_eq_true.1 hall _ hw)
    obtain ⟨more, hm⟩ := List.head?_eq_some_iff.1 hc
    exact ⟨c, more, hm, Or.inl ha⟩
  · obtain ⟨c, more, ht, hc⟩ := n.exists_cons
    exact ⟨c, more, hn.trans ht, hc.imp_left fun hd => by simp [Char.isAlphanum, hd]⟩

/-- A word or number is read off the head of a longer text. -/
theorem simple?_text_append (h : Numeral.Stops rest) :
    simple? (s.text ++ rest) = some (s.value, rest) := by
  rcases s.word_or_numeral with hw | ⟨n, hn, hv⟩
  · simp only [words, List.mem_cons, List.not_mem_nil, or_false, Prod.mk.injEq] at hw
    rcases hw with ⟨ht, hj⟩ | ⟨ht, hj⟩ | ⟨ht, hj⟩ <;> rw [ht, hj] <;> rfl
  · rw [hn, simple?_append n h, hv]
    rfl

end Simple

end KeywordSieve.Json
