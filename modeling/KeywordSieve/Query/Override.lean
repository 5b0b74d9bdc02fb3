import KeywordSieve.Term

/-!
Override groups as they are written: the word `except` in any case, white space, and a body in
parentheses. Inside the body a quote that has a partner later in the query opens a quoted run, in
which a parenthesis is an ordinary character. The terms of a group are separated by commas; a
quoted element may hold commas.
-/
namespace KeywordSieve.Query.Override

open Text Term

def word : Text := ['e', 'x', 'c', 'e', 'p', 't']

def dropWord : Text → Text → Option Text
  | [], t => some t
  | _ :: _, [] => none
  | w :: ws, c :: rest => if smallAscii c = w then dropWord ws rest else none

theorem dropWord_length {w t rest : Text} (h : dropWord w t = some rest) :
    rest.length ≤ t.length := by
  induction w generalizing t with
  | nil => simp_all [dropWord]
  | cons c w ih =>
    cases t with
    | nil => simp [dropWord] at h
    | cons x t =>
      simp only [dropWord] at h
      split at h
      · have := ih h
        simp only [List.length_cons]
        omega
      · cases h

/-- What follows `except(` at the head of a text. -/
def opening? (t : Text) : Option Text :=
  match (dropWord word t).map (List.dropWhile Unicode.isBlank) with
  | some ('(' :: rest) => some rest
  | _ => none

theorem opening?_length {t inside : Text} (h : opening? t = some inside) :
    inside.length ≤ t.length := by
  unfold opening? at h
  split at h
  · next rest hd =>
    cases h
    obtain ⟨d, hd, he⟩ := Option.map_eq_some_iff.1 hd
    have hb := (List.dropWhile_suffix (l := d) Unicode.isBlank).length_le
    have hw := dropWord_length hd
    rw [he] at hb
    simp only [List.length_cons] at hb
    omega
  · cases h

/-- The quoted run that is open after a character, in front of the text that follows it. -/
def runAfter (run : Option Char) (c : Char) (rest : Text) : Option Char :=
  match run with
  | some q => if c = q then none else some q
  | none => if isQuote c ∧ c ∈ rest then some c else none

/-- The body up to the first closing parenthesis outside a quoted run, and what follows it. -/
def close? (run : Option Char) : Text → Option (Text × Text)
  | [] => none
  | c :: rest =>
    if run = none ∧ c = ')' then some ([], rest)
    else (close? (runAfter run c rest) rest).map fun p => (c :: p.1, p.2)

theorem close?_eq {run : Option Char} {t body rest : Text} (h : close? run t = some (body, rest)) :
    t = body ++ ')' :: rest := by
  induction t generalizing run body with
  | nil => simp [close?] at h
  | cons c t ih =>
    simp only [close?] at h
    split at h
    · next hc => simp_all
    · obtain ⟨p, hp, he⟩ := Option.map_eq_some_iff.1 h
      cases he
      simp [ih hp]

/-- The elements of a body: a quoted run that starts an element, or a run without commas. -/
def elements : Text → List Text
  | [] => []
  | c :: rest =>
    if isQuote c ∧ c ∈ rest then
      (c :: rest.takeWhile (· ≠ c) ++ [c]) :: elements ((rest.dropWhile (· ≠ c)).drop 1)
    else if c = ',' then elements rest
    else (c :: rest.takeWhile (· ≠ ',')) :: elements (rest.dropWhile (· ≠ ','))
termination_by t => t.length
decreasing_by
  · have := (List.dropWhile_suffix (l := rest) (· ≠ c)).length_le
    simp only [List.length_drop, List.length_cons]
    omega
  · simp
  · have := (List.dropWhile_suffix (l := rest) (· ≠ ',')).length_le
    simp only [List.length_cons]
    omega

/-- The terms of a body, in order; elements without a term are dropped. -/
def terms (body : Text) : List Text := (elements body).filterMap normalize

end KeywordSieve.Query.Override
