import Mathlib.Tactic.SplitIfs
import KeywordSieve.Json.Reader
import KeywordSieve.Proofs.Trimming

/-!
JSON values that are written and read again. What reads a value takes its text off the head of a
longer one, so the laws here say what may follow it. The steps of reading that a text needs are
bounded by its length. Of doubles nothing is said: that their digits denote them is a matter of its
own.
-/
namespace KeywordSieve.Json

open Text

variable {t rest : Text} {j : Json}

/-- A character is escaped by a letter that stands for it or by its code, or it is written as it
is. -/
theorem escape_cases (c : Char) :
    (∃ e, escape c = ['\\', e] ∧ e ≠ 'u' ∧ 0x20 ≤ e.toNat ∧ escaped? e = some c) ∨
      (c.toNat < 0x20 ∧ escape c = '\\' :: 'u' :: hexDigits 4 c.toNat) ∨
      (0x20 ≤ c.toNat ∧ c ≠ '"' ∧ c ≠ '\\' ∧ escape c = [c]) := by
  unfold escape
  split_ifs with hq hb hn hr ht hbs hf hc
  · exact Or.inl ⟨_, rfl, by decide, by decide, by rw [hq]; rfl⟩
  · exact Or.inl ⟨_, rfl, by decide, by decide, by rw [hb]; rfl⟩
  · exact Or.inl ⟨_, rfl, by decide, by decide, by rw [hn]; rfl⟩
  · exact Or.inl ⟨_, rfl, by decide, by decide, by rw [hr]; rfl⟩
  · exact Or.inl ⟨_, rfl, by decide, by decide, by rw [ht]; rfl⟩
  · exact Or.inl ⟨_, rfl, by decide, by decide, by rw [hbs]; rfl⟩
  · exact Or.inl ⟨_, rfl, by decide, by decide, by rw [hf]; rfl⟩
  · exact Or.inr (Or.inl ⟨hc, rfl⟩)
  · exact Or.inr (Or.inr ⟨by omega, hq, hb, rfl⟩)

/-- The four digits of a control character are read as its code. -/
theorem hexCode?_hexDigits : ∀ n < 0x20,
    hexDigits 4 n = ['0', '0', (n / 16).digitChar, (n % 16).digitChar] ∧
      hexCode? '0' '0' (n / 16).digitChar (n % 16).digitChar = some n := by
  decide

/-- One escaped character at the head of a string is read as its code. -/
theorem codes?_escape (c : Char) (rest : Text) :
    codes? (escape c ++ rest) = (codes? rest).map fun p => (c.toNat :: p.1, p.2) := by
  rcases escape_cases c with ⟨e, he, hu, -, hx⟩ | ⟨hc, he⟩ | ⟨hc, hq, hb, he⟩
  · rw [he, List.cons_append, List.singleton_append, codes?, hx]
    · cases codes? rest <;> rfl
    · intro a b c d more h
      cases h
      exact absurd rfl hu
  · obtain ⟨hd, hx⟩ := hexCode?_hexDigits c.toNat hc
    simp only [he, hd, List.cons_append, List.nil_append, codes?, hx]
    cases codes? rest <;> rfl
  · rw [he, List.singleton_append, codes?, if_neg (by omega)]
    · cases codes? rest <;> rfl
    · exact hq
    · rintro a b' c' d more h -
      exact hb h
    · rintro e more h -
      exact hb h

theorem codes?_flatMap_escape (t rest : Text) :
    codes? (t.flatMap escape ++ '"' :: rest) = some (t.map Char.toNat, rest) := by
  induction t with
  | nil => simp [codes?]
  | cons c t ih =>
    rw [List.flatMap_cons, List.append_assoc, codes?_escape, ih]
    rfl

/-- No code of a character is half of a pair. -/
theorem not_half (c : Char) : isHigh c.toNat = false ∧ isLow c.toNat = false := by
  have hv : c.toNat < 0xd800 ∨ 0xdfff < c.toNat := c.valid.imp id And.left
  constructor <;> apply Bool.eq_false_iff.2 <;> intro h
  · simp only [isHigh, Bool.and_eq_true, decide_eq_true_eq] at h
    omega
  · simp only [isLow, Bool.and_eq_true, decide_eq_true_eq] at h
    omega

theorem textOfCodes?_map (t : Text) : textOfCodes? (t.map Char.toNat) = some t := by
  induction t with
  | nil => rfl
  | cons c t ih =>
    obtain ⟨hhigh, hlow⟩ := not_half c
    cases t with
    | nil => simp [textOfCodes?, hhigh, hlow]
    | cons d t =>
      rw [List.map_cons, List.map_cons, textOfCodes?, hhigh, hlow, ← List.map_cons, ih]
      simp

/-- The string behind an opening quote is read as it was before it was escaped. -/
theorem string?_escaped (t rest : Text) :
    string? (t.flatMap escape ++ '"' :: rest) = some (t, rest) := by
  simp [string?, codes?_flatMap_escape, textOfCodes?_map]

theorem string_append (t rest : Text) :
    string t ++ rest = '"' :: (t.flatMap escape ++ '"' :: rest) := by
  simp [string]

/-- What may stand behind a value: nothing, a comma or the end of an array or object. -/
def Ends (rest : Text) : Prop := ∀ c ∈ rest.head?, c = ',' ∨ c = ']' ∨ c = '\x7d'

theorem ends_nil : Ends [] := by
  simp [Ends]

theorem ends_cons {c : Char} (h : c = ',' ∨ c = ']' ∨ c = '\x7d') (rest : Text) :
    Ends (c :: rest) := by
  simpa [Ends] using h

/-- Only zero is written with a zero in front. -/
theorem head_toDigits {n : Nat} (h : (Nat.toDigits 10 n).head? = some '0') : n = 0 := by
  induction n using Nat.strongRecOn with
  | ind n ih =>
    rcases Nat.lt_or_ge n 10 with hn | hn
    · have hd : ∀ m < 10, (Nat.toDigits 10 m).head? = some '0' → m = 0 := by decide
      exact hd n hn h
    · rw [Nat.toDigits_of_base_le (by omega) hn, List.head?_append,
        List.head?_eq_some_head Nat.toDigits_ne_nil, Option.some_or,
        ← List.head?_eq_some_head Nat.toDigits_ne_nil] at h
      have hz := ih (n / 10) (by omega) h
      omega

theorem takeWhile_ofNat (n : Nat) {rest : Text} (h : Ends rest) :
    (ofNat n ++ rest).takeWhile Char.isDigit = ofNat n := by
  have hd : ∀ c ∈ ofNat n, c.isDigit = true := fun c hc =>
    Nat.isDigit_of_mem_toDigits (by omega) (by omega) hc
  rw [List.takeWhile_append_of_pos hd]
  cases rest with
  | nil => simp
  | cons c more =>
    rcases h c rfl with rfl | rfl | rfl <;> simp [List.takeWhile]

theorem leadingDigits_ofNat (n : Nat) : (Double.leadingDigits (ofNat n)).1 = n := by
  have ht : (ofNat n).takeWhile Char.isDigit = ofNat n := by
    have ht := takeWhile_ofNat n ends_nil
    rwa [List.append_nil] at ht
  rw [Double.leadingDigits, ht]
  exact Nat.ofDigitChars_toDigits (by omega) (by omega)

theorem fraction_of_ends (h : Ends rest) : fraction rest = [] := by
  cases rest with
  | nil => rfl
  | cons c more => rcases h c rfl with rfl | rfl | rfl <;> rfl

theorem exponent_of_ends (h : Ends rest) : exponent rest = [] := by
  cases rest with
  | nil => rfl
  | cons c more => rcases h c rfl with rfl | rfl | rfl <;> simp [exponent]

/-- No number begins with a digit zero that another digit follows. -/
theorem not_leadingZero (n : Nat) :
    ((ofNat n).isEmpty || ((ofNat n).head? == some '0' && ofNat n != ['0'])) = false := by
  have hne : ofNat n ≠ [] := Nat.toDigits_ne_nil
  by_cases hz : (ofNat n).head? = some '0'
  · rw [head_toDigits hz]
    rfl
  · simp [hne, hz]

/-- The whole part is all there is of a number that ends behind it. -/
theorem number?_ofInt (i : Int) (h : Ends rest) : number? (ofInt i ++ rest) = some (int i, rest) := by
  have hdrop : ∀ n, (ofNat n ++ rest).drop (ofNat n).length = rest := fun n => List.drop_left
  cases i with
  | negSucc n =>
    simp only [number?, ofInt, List.cons_append, takeWhile_ofNat _ h, hdrop, fraction_of_ends h,
      exponent_of_ends h, not_leadingZero, leadingDigits_ofNat, List.length_nil, List.drop_zero]
    rfl
  | ofNat n =>
    have hsign : ∀ more, ofNat n ++ rest = '-' :: more → False := by
      intro more he
      have ht := takeWhile_ofNat n h
      rw [he] at ht
      exact Nat.toDigits_ne_nil ht.symm
    rw [ofInt, number?]
    · simp only [takeWhile_ofNat _ h, hdrop, fraction_of_ends h, exponent_of_ends h,
        not_leadingZero, leadingDigits_ofNat, List.length_nil, List.drop_zero]
      rfl
    · exact hsign

theorem head_ofInt (i : Int) : ∃ c more, ofInt i = c :: more ∧ (c = '-' ∨ c.isDigit = true) := by
  cases i with
  | negSucc n => exact ⟨'-', _, rfl, Or.inl rfl⟩
  | ofNat n =>
    obtain ⟨c, more, hc⟩ := List.exists_cons_of_ne_nil (Nat.toDigits_ne_nil (n := n) (b := 10))
    refine ⟨c, more, hc, Or.inr ?_⟩
    exact Nat.isDigit_of_mem_toDigits (b := 10) (n := n) (by omega) (by omega) (by simp [hc])

mutual

/-- Whether no double stands in a value. -/
def isExact : Json → Bool
  | double _ => false
  | array elements => allExact elements
  | object fields => fieldsExact fields
  | _ => true

def allExact : List Json → Bool
  | [] => true
  | j :: rest => isExact j && allExact rest

def fieldsExact : List (Text × Json) → Bool
  | [] => true
  | (_, j) :: rest => isExact j && fieldsExact rest

end

/-- The text of a value begins with no white space and with no closing bracket. -/
theorem head_render (h : isExact j = true) :
    ∃ c more, render j = c :: more ∧ isSpace c = false ∧ c ≠ ']' := by
  cases j with
  | null => exact ⟨_, _, rfl, by decide, by decide⟩
  | bool b => cases b <;> exact ⟨_, _, rfl, by decide, by decide⟩
  | int i =>
    obtain ⟨c, more, hc, hd⟩ := head_ofInt i
    refine ⟨c, more, hc, ?_, ?_⟩
    · apply Bool.eq_false_iff.2
      intro hs
      simp only [isSpace, Bool.or_eq_true, beq_iff_eq] at hs
      rcases hs with ((rfl | rfl) | rfl) | rfl <;> rcases hd with hd | hd <;> cases hd
    · rintro rfl
      rcases hd with hd | hd <;> cases hd
  | double x => cases h
  | text t => exact ⟨_, _, rfl, by decide, by decide⟩
  | array js => exact ⟨_, _, rfl, by decide, by decide⟩
  | object fields => exact ⟨_, _, rfl, by decide, by decide⟩

/-- No word stands in front where a number does. -/
theorem after?_ofInt {c : Char} (word : Text) (i : Int) (rest : Text) (hm : c ≠ '-')
    (hn : c.isDigit = false) : after? (c :: word) (ofInt i ++ rest) = none := by
  obtain ⟨d, more, hd, hx⟩ := head_ofInt i
  have hne : c ≠ d := by
    rintro rfl
    rcases hx with hx | hx
    · exact hm hx
    · rw [hn] at hx
      cases hx
  simp [hd, after?, hne]

theorem simple?_ofInt (i : Int) (h : Ends rest) : simple? (ofInt i ++ rest) = some (int i, rest) := by
  have hnull : after? "null" (ofInt i ++ rest) = none := after?_ofInt _ i rest (by decide) rfl
  have htrue : after? "true" (ofInt i ++ rest) = none := after?_ofInt _ i rest (by decide) rfl
  have hfalse : after? "false" (ofInt i ++ rest) = none := after?_ofInt _ i rest (by decide) rfl
  rw [simple?, hnull, htrue, hfalse]
  exact number?_ofInt i h

variable {fuel : Nat}

theorem value?_ofInt (i : Int) (h : Ends rest) :
    value? (fuel + 1) (ofInt i ++ rest) = some (int i, rest) := by
  obtain ⟨c, more, hc, hd⟩ := head_ofInt i
  have hs := simple?_ofInt i h
  rw [hc, List.cons_append] at hs ⊢
  rw [value?]
  · exact hs
  all_goals
    intro behind h
    cases h
    rcases hd with hd | hd <;> cases hd

/-- A text that begins with a character which is no white space. -/
def Solid (t : Text) : Prop := ∃ c more, t = c :: more ∧ isSpace c = false

theorem Solid.skipSpace (h : Solid t) : Json.skipSpace t = t := by
  obtain ⟨c, more, rfl, hs⟩ := h
  exact List.dropWhile_cons_of_neg (by simp [hs])

theorem Solid.append (h : Solid t) (rest : Text) : Solid (t ++ rest) := by
  obtain ⟨c, more, rfl, hs⟩ := h
  exact ⟨c, more ++ rest, rfl, hs⟩

/-! What is read between brackets. White space is passed over in front of each part. -/

theorem value?_array {js : List Json} (hb : (skipSpace t).head? ≠ some ']')
    (h : elements? fuel (skipSpace t) = some (js, rest)) :
    value? (fuel + 1) ('[' :: t) = some (array js, rest) := by
  rw [value?]
  split
  · next hend =>
    rw [hend] at hb
    exact absurd rfl hb
  · rw [h]
    rfl

theorem elements?_last {u : Text} (h : value? fuel t = some (j, u))
    (hu : skipSpace u = ']' :: rest) : elements? (fuel + 1) t = some ([j], rest) := by
  rw [elements?, h]
  simp only [Option.bind_eq_bind, Option.bind_some, hu]
  rfl

theorem elements?_comma {js : List Json} {u more : Text} (h : value? fuel t = some (j, u))
    (hu : skipSpace u = ',' :: more) (hm : elements? fuel (skipSpace more) = some (js, rest)) :
    elements? (fuel + 1) t = some (j :: js, rest) := by
  rw [elements?, h]
  simp only [Option.bind_eq_bind, Option.bind_some, hu, hm]
  rfl

theorem value?_object {fields : List (Text × Json)} (hb : (skipSpace t).head? ≠ some '\x7d')
    (h : fields? fuel (skipSpace t) = some (fields, rest)) :
    value? (fuel + 1) ('\x7b' :: t) = some (object fields, rest) := by
  rw [value?]
  split
  · next hend =>
    rw [hend] at hb
    exact absurd rfl hb
  · rw [h]
    rfl

section

variable {key u v more : Text}

theorem fields?_last (hkey : string? t = some (key, v)) (hcolon : skipSpace v = ':' :: more)
    (h : value? fuel (skipSpace more) = some (j, u)) (hu : skipSpace u = '\x7d' :: rest) :
    fields? (fuel + 1) ('"' :: t) = some ([(key, j)], rest) := by
  have hquote : after? "\"" ('"' :: t) = some t := rfl
  have hbehind : after? ":" (':' :: more) = some more := rfl
  rw [fields?]
  simp only [Option.bind_eq_bind, hquote, Option.bind_some, hkey, hcolon, hbehind, h, hu]
  rfl

theorem fields?_comma {fields : List (Text × Json)} {next : Text} (hkey : string? t = some (key, v))
    (hcolon : skipSpace v = ':' :: more) (h : value? fuel (skipSpace more) = some (j, u))
    (hu : skipSpace u = ',' :: next)
    (hf : fields? fuel (skipSpace next) = some (fields, rest)) :
    fields? (fuel + 1) ('"' :: t) = some ((key, j) :: fields, rest) := by
  have hquote : after? "\"" ('"' :: t) = some t := rfl
  have hbehind : after? ":" (':' :: more) = some more := rfl
  rw [fields?]
  simp only [Option.bind_eq_bind, hquote, Option.bind_some, hkey, hcolon, hbehind, h, hu, hf]
  rfl

end

def field (key t : Text) : Text := string key ++ ": " ++ t

theorem field_eq (key t : Text) :
    field key t = '"' :: (key.flatMap escape ++ '"' :: ':' :: ' ' :: t) := by
  rw [field, List.append_assoc, string_append]
  rfl

theorem field_append (key t rest : Text) : field key t ++ rest = field key (t ++ rest) := by
  simp [field]

theorem length_field (key t : Text) : (field key t).length = (field key []).length + t.length := by
  simp only [field, List.length_append, List.length_nil, Nat.add_zero]

theorem solid_field (key t : Text) : Solid (field key t) := by
  rw [field_eq]
  exact ⟨_, _, rfl, by decide⟩

theorem renderFields_cons (key : Text) (j : Json) (fields : List (Text × Json)) :
    renderFields ((key, j) :: fields) = field key (render j) :: renderFields fields :=
  rfl

/-- No JSON text begins with white space. -/
theorem solid_render (h : isExact j = true) : Solid (render j) := by
  obtain ⟨c, more, hc, hs, -⟩ := head_render h
  exact ⟨c, more, hc, hs⟩

theorem joinWith_comma (part next : Text) (more : List Text) :
    joinWith ", " (part :: next :: more) = part ++ ',' :: ' ' :: joinWith ", " (next :: more) := by
  rw [joinWith, List.intercalate_cons_cons, List.append_assoc]
  rfl

/-- What stands between brackets begins as its first part does. -/
theorem exists_joined (part : Text) (more : List Text) :
    ∃ rest, joinWith ", " (part :: more) = part ++ rest :=
  ⟨_, joinWith_cons ", " part more⟩

theorem solid_joined {part : Text} (h : Solid part) (more : List Text) :
    Solid (joinWith ", " (part :: more)) := by
  obtain ⟨rest, hr⟩ := exists_joined part more
  rw [hr]
  exact h.append rest

mutual

/-- A value is read from its text, whatever follows it that may follow a value. Two steps for every
character are enough, of which each bracket and each comma takes one. -/
theorem value?_render (j : Json) (fuel : Nat) (rest : Text) (h : isExact j = true) (he : Ends rest)
    (hf : 2 * (render j).length + 1 ≤ fuel) : value? fuel (render j ++ rest) = some (j, rest) := by
  obtain ⟨fuel, rfl⟩ := Nat.exists_eq_add_of_le' (show 1 ≤ fuel by omega)
  cases j with
  | null => rfl
  | bool b => cases b <;> rfl
  | int i => exact value?_ofInt i he
  | double x => cases h
  | text t =>
    rw [render, string_append, value?, string?_escaped]
    rfl
  | array js =>
    cases js with
    | nil => rfl
    | cons j js =>
      simp only [render, List.length_append, List.length_cons, List.length_nil] at hf
      have hj : isExact j = true := ((Bool.and_eq_true _ _).mp h).1
      obtain ⟨more, hm⟩ := exists_joined (render j) (renderAll js)
      obtain ⟨c, behind, hc, hs, hb⟩ := head_render hj
      have hsolid : Solid (joinWith ", " (renderAll (j :: js)) ++ ([']'] ++ rest)) :=
        (solid_joined (solid_render hj) _).append _
      rw [render, List.append_assoc, List.cons_append]
      apply value?_array
      · rw [hsolid.skipSpace, renderAll, hm, hc]
        simpa using hb
      · rw [hsolid.skipSpace]
        exact elements?_render j js fuel rest h (by omega)
  | object fields =>
    cases fields with
    | nil => rfl
    | cons p fields =>
      obtain ⟨key, j⟩ := p
      simp only [render, List.length_append, List.length_cons, List.length_nil] at hf
      obtain ⟨more, hm⟩ := exists_joined (field key (render j)) (renderFields fields)
      have hsolid : Solid (joinWith ", " (renderFields ((key, j) :: fields)) ++ (['\x7d'] ++ rest)) :=
        (solid_joined (solid_field key _) _).append _
      rw [render, List.append_assoc, List.cons_append]
      apply value?_object
      · rw [hsolid.skipSpace, renderFields_cons, hm, field_eq]
        simp
      · rw [hsolid.skipSpace]
        exact fields?_render key j fields fuel rest h (by omega)
termination_by fuel

theorem elements?_render (j : Json) (js : List Json) (fuel : Nat) (rest : Text)
    (h : allExact (j :: js) = true)
    (hf : 2 * (joinWith ", " (renderAll (j :: js))).length + 2 ≤ fuel) :
    elements? fuel (joinWith ", " (renderAll (j :: js)) ++ ']' :: rest) = some (j :: js, rest) := by
  obtain ⟨fuel, rfl⟩ := Nat.exists_eq_add_of_le' (show 1 ≤ fuel by omega)
  rw [allExact, Bool.and_eq_true] at h
  cases js with
  | nil =>
    rw [renderAll, renderAll, joinWith_singleton] at hf ⊢
    exact elements?_last (value?_render j fuel _ h.1 (ends_cons (by simp) _) (by omega)) rfl
  | cons next js =>
    rw [renderAll, renderAll, joinWith_comma] at hf ⊢
    rw [List.length_append, List.length_cons, List.length_cons] at hf
    rw [List.append_assoc]
    have hn : isExact next = true := ((Bool.and_eq_true _ _).mp h.2).1
    have hsolid : Solid (joinWith ", " (renderAll (next :: js)) ++ ']' :: rest) :=
      (solid_joined (solid_render hn) _).append _
    apply elements?_comma (value?_render j fuel _ h.1 (ends_cons (by simp) _) (by omega)) rfl
    refine (congrArg (elements? fuel) hsolid.skipSpace).trans ?_
    exact elements?_render next js fuel rest h.2 (by rw [renderAll]; omega)
termination_by fuel

theorem fields?_render (key : Text) (j : Json) (fields : List (Text × Json)) (fuel : Nat)
    (rest : Text) (h : fieldsExact ((key, j) :: fields) = true)
    (hf : 2 * (joinWith ", " (renderFields ((key, j) :: fields))).length + 2 ≤ fuel) :
    fields? fuel (joinWith ", " (renderFields ((key, j) :: fields)) ++ '\x7d' :: rest) =
      some ((key, j) :: fields, rest) := by
  obtain ⟨fuel, rfl⟩ := Nat.exists_eq_add_of_le' (show 1 ≤ fuel by omega)
  rw [fieldsExact, Bool.and_eq_true] at h
  have hs : ∀ more, Solid (render j ++ more) := (solid_render h.1).append
  cases fields with
  | nil =>
    rw [renderFields_cons, renderFields, joinWith_singleton] at hf ⊢
    rw [length_field] at hf
    rw [field_append, field_eq]
    have hv := value?_render j fuel ('\x7d' :: rest) h.1 (ends_cons (by simp) _) (by omega)
    exact fields?_last (string?_escaped key _) rfl
      ((congrArg (value? fuel) (hs _).skipSpace).trans hv) rfl
  | cons next fields =>
    obtain ⟨name, k⟩ := next
    rw [renderFields_cons, renderFields_cons, joinWith_comma] at hf ⊢
    rw [List.length_append, List.length_cons, List.length_cons, length_field] at hf
    rw [List.append_assoc, field_append, field_eq]
    have hsolid : Solid (joinWith ", " (renderFields ((name, k) :: fields)) ++ '\x7d' :: rest) :=
      (solid_joined (solid_field name _) _).append _
    refine fields?_comma (string?_escaped key _) rfl ((congrArg (value? fuel) (hs _).skipSpace).trans
      (value?_render j fuel _ h.1 (ends_cons (Or.inl rfl) _) (by omega))) rfl ?_
    refine (congrArg (fields? fuel) hsolid.skipSpace).trans ?_
    exact fields?_render name k fields fuel rest h.2 (by rw [renderFields_cons]; omega)
termination_by fuel

end

/-- A value without doubles is read back from its text. -/
theorem ofText?_render (h : isExact j = true) : ofText? (render j) = some j := by
  have hv := value?_render j (2 * (render j).length + 1) [] h ends_nil (by omega)
  rw [List.append_nil] at hv
  rw [ofText?, (solid_render h).skipSpace, hv]
  rfl

end KeywordSieve.Json
