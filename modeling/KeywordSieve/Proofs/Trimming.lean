import KeywordSieve.Text.Basic

/-!
Laws of trimming and of cutting at a separator. A trimmed text is one that trimming leaves alone,
and a join of pieces without the separator is cut into the same pieces again.
-/
namespace KeywordSieve.Text

variable {p : Char → Bool} {t : Text}

structure Trimmed (p : Char → Bool) (t : Text) : Prop where
  head : ∀ c ∈ t.head?, p c = false
  last : ∀ c ∈ t.getLast?, p c = false

theorem dropWhile_eq_self (h : ∀ c ∈ t.head?, p c = false) : t.dropWhile p = t := by
  cases t with
  | nil => rfl
  | cons c rest => simp [h c rfl]

theorem head_dropWhile {c : Char} (h : c ∈ (t.dropWhile p).head?) : p c = false := by
  have hn := List.head?_dropWhile_not p t
  rw [Option.mem_def.1 h] at hn
  simpa using hn

theorem trimBoth_eq_self (h : Trimmed p t) : trimBoth p t = t := by
  have hlast : t.reverse.dropWhile p = t.reverse := by
    apply dropWhile_eq_self
    intro c hc
    exact h.last c (by rwa [List.head?_reverse] at hc)
  rw [trimBoth, dropWhile_eq_self h.head, hlast, List.reverse_reverse]

/-- Characters that trimming takes off make no difference at the ends of a text. -/
theorem trimBoth_surround {left right : Text} (hl : ∀ c ∈ left, p c = true)
    (hr : ∀ c ∈ right, p c = true) (t : Text) : trimBoth p (left ++ t ++ right) = trimBoth p t := by
  have hright : ∀ c ∈ right.reverse, p c = true := by
    intro c hc
    exact hr c (List.mem_reverse.1 hc)
  have hnil : right.dropWhile p = [] := by
    have hd : (right ++ []).dropWhile p = [] := List.dropWhile_append_of_pos hr
    rwa [List.append_nil] at hd
  unfold trimBoth
  rw [List.append_assoc, List.dropWhile_append_of_pos hl, List.dropWhile_append]
  cases t.dropWhile p with
  | nil => simp [hnil]
  | cons c rest =>
    rw [if_neg (by simp), List.reverse_append, List.dropWhile_append_of_pos hright]

/-- What is wrapped around a trimmed text is all that trimming takes off. -/
theorem trimBoth_wrapped {left right : Text} (hl : ∀ c ∈ left, p c = true)
    (hr : ∀ c ∈ right, p c = true) (h : Trimmed p t) : trimBoth p (left ++ t ++ right) = t := by
  rw [trimBoth_surround hl hr, trimBoth_eq_self h]

/-- Trimming keeps a first character without `p`. -/
theorem trimBoth_cons {c : Char} (hc : p c = false) (t : Text) :
    ∃ rest, trimBoth p (c :: t) = c :: rest := by
  refine ⟨(t.reverse.dropWhile p).reverse, ?_⟩
  rw [trimBoth, List.dropWhile_cons_of_neg (by simp [hc]), List.reverse_cons, List.dropWhile_append]
  cases t.reverse.dropWhile p with
  | nil => simp [hc]
  | cons d more => simp

/-- A text is what trimming leaves of it, with what is taken off around it. -/
theorem exists_surround (p : Char → Bool) (t : Text) :
    ∃ left right : Text, (∀ c ∈ left, p c = true) ∧ (∀ c ∈ right, p c = true) ∧
      t = left ++ trimBoth p t ++ right := by
  have hall : ∀ u : Text, ∀ c ∈ u.takeWhile p, p c = true := by
    intro u
    exact List.all_eq_true.1 List.all_takeWhile
  refine ⟨t.takeWhile p, ((t.dropWhile p).reverse.takeWhile p).reverse, hall t, ?_, ?_⟩
  · intro c hc
    exact hall _ c (List.mem_reverse.1 hc)
  · rw [trimBoth, List.append_assoc, ← List.reverse_append, List.takeWhile_append_dropWhile,
      List.reverse_reverse, List.takeWhile_append_dropWhile]

/-- The second pass of trimming only takes characters off the end. -/
theorem trimBoth_isPrefix (p : Char → Bool) (t : Text) : trimBoth p t <+: t.dropWhile p := by
  have hs := List.reverse_prefix.2 (List.dropWhile_suffix (l := (t.dropWhile p).reverse) p)
  rwa [List.reverse_reverse] at hs

theorem trimBoth_isInfix (p : Char → Bool) (t : Text) : trimBoth p t <:+: t :=
  (trimBoth_isPrefix p t).isInfix.trans (List.dropWhile_suffix p).isInfix

/-- There is nothing more to trim. -/
theorem trimBoth_trimmed (p : Char → Bool) (t : Text) : Trimmed p (trimBoth p t) := by
  constructor
  · intro c hc
    obtain ⟨right, hr⟩ := trimBoth_isPrefix p t
    apply head_dropWhile (t := t)
    rw [← hr, List.head?_append, Option.mem_def.1 hc]
    rfl
  · intro c hc
    rw [trimBoth, List.getLast?_reverse] at hc
    exact head_dropWhile hc

theorem trimBoth_eq_nil (h : ∀ c ∈ t, p c = true) : trimBoth p t = [] := by
  have hs : trimBoth p ([] ++ [] ++ t) = trimBoth p [] := trimBoth_surround (by simp) h []
  rwa [List.nil_append, List.nil_append] at hs

/-- Trimming takes off only characters with `p`. -/
theorem mem_trimBoth {c : Char} (hm : c ∈ t) (hc : p c = false) : c ∈ trimBoth p t := by
  obtain ⟨left, right, hl, hr, he⟩ := exists_surround p t
  rw [he, List.mem_append, List.mem_append] at hm
  rcases hm with (hm | hm) | hm
  · rw [hl c hm] at hc
    cases hc
  · exact hm
  · rw [hr c hm] at hc
    cases hc

/-- Nothing is lost but what is trimmed. -/
theorem count_trimBoth {c : Char} (hc : p c = false) (t : Text) :
    (trimBoth p t).count c = t.count c := by
  have hn : ∀ u : Text, (∀ d ∈ u, p d = true) → u.count c = 0 := by
    intro u hu
    apply List.count_eq_zero_of_not_mem
    intro hm
    rw [hu c hm] at hc
    cases hc
  obtain ⟨left, right, hl, hr, he⟩ := exists_surround p t
  conv => rhs; rw [he, List.count_append, List.count_append, hn left hl, hn right hr]
  omega

/-- Two trimmed texts at the ends make a trimmed text. -/
theorem Trimmed.append {front back : Text} (hf : Trimmed p front) (hb : Trimmed p back)
    (hne : front ≠ []) (hne' : back ≠ []) (middle : Text) : Trimmed p (front ++ middle ++ back) := by
  obtain ⟨c, rest, rfl⟩ := List.exists_cons_of_ne_nil hne
  constructor
  · intro d hd
    exact hf.head d hd
  · intro d hd
    rw [List.getLast?_append, List.getLast?_eq_some_getLast hne', Option.some_or,
      ← List.getLast?_eq_some_getLast hne'] at hd
    exact hb.last d hd

variable {separator : Char}

theorem pieces_of_not_mem (h : separator ∉ t) : pieces separator t = [t] := by
  induction t with
  | nil => rfl
  | cons c rest ih =>
    have hc : c ≠ separator := by
      intro he
      exact h (by simp [he])
    have hr : separator ∉ rest := by
      intro he
      exact h (List.mem_cons_of_mem c he)
    simp [pieces, ih hr, hc]

/-- A cut at one separator leaves what stands before it and behind it to be cut on its own. -/
theorem pieces_append_separator (separator : Char) (front back : Text) :
    pieces separator (front ++ separator :: back) =
      pieces separator front ++ pieces separator back := by
  induction front with
  | nil =>
    obtain ⟨piece, more, hp⟩ := List.exists_cons_of_ne_nil (pieces_ne_nil separator back)
    simp [pieces, hp]
  | cons c front ih =>
    obtain ⟨piece, more, hp⟩ := List.exists_cons_of_ne_nil (pieces_ne_nil separator front)
    by_cases hc : c = separator <;> simp [pieces, ih, hp, hc]

/-- The first separator ends the first piece. -/
theorem pieces_append_cons (rest : Text) (h : separator ∉ t) :
    pieces separator (t ++ separator :: rest) = t :: pieces separator rest := by
  rw [pieces_append_separator, pieces_of_not_mem h, List.singleton_append]

/-- What is to show of a text follows from its last piece on. -/
theorem pieces_induction {motive : Text → Prop} (separator : Char)
    (last : ∀ p, separator ∉ p → motive p)
    (more : ∀ p rest, separator ∉ p → motive rest → motive (p ++ separator :: rest))
    (t : Text) : motive t := by
  induction hn : t.length using Nat.strongRecOn generalizing t with
  | ind n ih =>
    by_cases hm : separator ∈ t
    · obtain ⟨p, rest, rfl, hp⟩ := List.eq_append_cons_of_mem hm
      rw [List.length_append, List.length_cons] at hn
      exact more p rest hp (ih rest.length (by omega) rest rfl)
    · exact last t hm

/-- Induction along parts that are joined: a separator stands behind each of them but the last. -/
@[elab_as_elim] theorem parts_induction {α : Type} {p : α → Prop} {motive : List α → Prop}
    (nil : motive []) (last : ∀ a, p a → motive [a])
    (more : ∀ a b rest, p a → motive (b :: rest) → motive (a :: b :: rest))
    (parts : List α) (h : ∀ a ∈ parts, p a) : motive parts := by
  induction parts with
  | nil => exact nil
  | cons a rest ih =>
    have ha := h a (by simp)
    have hrest := ih (fun b hb => h b (List.mem_cons_of_mem a hb))
    cases rest with
    | nil => exact last a ha
    | cons b rest => exact more a b rest ha hrest

@[simp] theorem joinWith_singleton (separator part : Text) : joinWith separator [part] = part :=
  List.intercalate_singleton

theorem joinWith_cons (separator part : Text) (more : List Text) :
    joinWith separator (part :: more) = part ++ more.flatMap (separator ++ ·) := by
  induction more generalizing part with
  | nil => simp
  | cons next more ih =>
    rw [joinWith, List.intercalate_cons_cons, ← joinWith, ih, List.flatMap_cons, List.append_assoc,
      List.append_assoc]

theorem joinWith_cons_cons (part next : Text) (more : List Text) :
    joinWith [separator] (part :: next :: more) =
      part ++ separator :: joinWith [separator] (next :: more) := by
  rw [joinWith, List.intercalate_cons_cons, List.append_assoc, List.singleton_append, joinWith]

theorem mem_joinWith {parts : List Text} {c : Char} (h : c ∈ joinWith [separator] parts) :
    c = separator ∨ ∃ part ∈ parts, c ∈ part := by
  induction parts with
  | nil => cases h
  | cons part more ih =>
    cases more with
    | nil =>
      rw [joinWith_singleton] at h
      exact Or.inr ⟨part, by simp, h⟩
    | cons next more =>
      rw [joinWith_cons_cons, List.mem_append, List.mem_cons] at h
      rcases h with h | h | h
      · exact Or.inr ⟨part, by simp, h⟩
      · exact Or.inl h
      · rcases ih h with hs | ⟨other, ho, hc⟩
        · exact Or.inl hs
        · exact Or.inr ⟨other, List.mem_cons_of_mem part ho, hc⟩

/-- Cutting undoes joining, if no part holds the separator. -/
theorem pieces_joinWith (parts : List Text) (hne : parts ≠ [])
    (h : ∀ part ∈ parts, separator ∉ part) : pieces separator (joinWith [separator] parts) = parts := by
  revert hne
  refine parts_induction ?nil ?last ?more parts h
  case nil => exact fun hne => absurd rfl hne
  case last =>
    intro part hp _
    rw [joinWith_singleton, pieces_of_not_mem hp]
  case more =>
    intro part next more hp ih _
    rw [joinWith_cons_cons, pieces_append_cons _ hp, ih (by simp)]

end KeywordSieve.Text
