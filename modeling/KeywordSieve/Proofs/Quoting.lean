import Mathlib.Algebra.Group.Nat.Defs
import KeywordSieve.Proofs.NormalForm
import KeywordSieve.Text.Quoted

/-!
Quoted texts show what they say and where they end. Between quotes a backslash is never a character
of its own, the letter behind it tells how many hexadecimal digits follow, and the quote is never
written without a backslash in front. So each character between quotes delimits itself, and from
that quoted texts do, and lists of them are told apart.
-/
namespace KeywordSieve.Text

open Unicode Term

variable {q c e : Char} {s t rest rest' : Text} {n width : Nat}

/-- Whatever follows what is written, it can be read in one way only. -/
def SelfDelimiting {α : Type} (write : α → Text) : Prop :=
  ∀ a b rest rest', write a ++ rest = write b ++ rest' → a = b ∧ rest = rest'

/-- A list whose elements delimit themselves ends at a character with which no element begins. -/
theorem SelfDelimiting.flatMap {α : Type} {write : α → Text} (hw : SelfDelimiting write)
    (hq : ∀ a, ∃ d more, write a = d :: more ∧ d ≠ q) {as bs : List α}
    (h : as.flatMap write ++ q :: rest = bs.flatMap write ++ q :: rest') :
    as = bs ∧ rest = rest' := by
  induction as generalizing bs with
  | nil =>
    cases bs with
    | nil => exact ⟨rfl, (List.cons.inj h).2⟩
    | cons b bs =>
      obtain ⟨d, more, hd, hne⟩ := hq b
      rw [List.flatMap_cons, hd] at h
      exact absurd (List.cons.inj h).1.symm hne
  | cons a as ih =>
    cases bs with
    | nil =>
      obtain ⟨d, more, hd, hne⟩ := hq a
      rw [List.flatMap_cons, hd] at h
      exact absurd (List.cons.inj h).1 hne
    | cons b bs =>
      rw [List.flatMap_cons, List.flatMap_cons, List.append_assoc, List.append_assoc] at h
      obtain ⟨rfl, htail⟩ := hw _ _ _ _ h
      obtain ⟨rfl, hrest⟩ := ih htail
      exact ⟨rfl, hrest⟩

def hexNumber (t : Text) : Nat := t.foldl (fun n c => 16 * n + (hexValue? c).getD 0) 0

theorem hexValue?_digitChar : ∀ d < 16, hexValue? d.digitChar = some d := by decide

theorem hexNumber_concat (t : Text) (c : Char) :
    hexNumber (t ++ [c]) = 16 * hexNumber t + (hexValue? c).getD 0 := by
  simp [hexNumber]

theorem hexNumber_toDigits (n : Nat) : hexNumber (Nat.toDigits 16 n) = n := by
  induction n using Nat.strongRecOn with
  | ind n ih =>
    rcases Nat.lt_or_ge n 16 with hn | hn
    · rw [Nat.toDigits_of_lt_base hn]
      simp [hexNumber, hexValue?_digitChar n hn]
    · have hd := hexValue?_digitChar (n % 16) (Nat.mod_lt n (by omega))
      rw [Nat.toDigits_of_base_le (by omega) hn, hexNumber_concat, ih (n / 16) (by omega), hd,
        Option.getD_some]
      omega

theorem hexNumber_zeros (k : Nat) (t : Text) : hexNumber (List.replicate k '0' ++ t) = hexNumber t := by
  induction k with
  | zero => rfl
  | succ k ih => exact ih

@[simp] theorem hexNumber_hexDigits (width n : Nat) : hexNumber (hexDigits width n) = n := by
  rw [hexDigits, padLeft, hexNumber_zeros, hexNumber_toDigits]

theorem length_hexDigits (hw : 0 < width) (hn : n < 16 ^ width) :
    (hexDigits width n).length = width := by
  have hle := (Nat.length_toDigits_le_iff (by omega) hw).2 hn
  rw [hexDigits, padLeft, List.length_append, List.length_replicate]
  omega

/-- How many hexadecimal digits follow a letter behind a backslash. -/
def codeWidth? : Char → Option Nat
  | 'x' => some 2
  | 'u' => some 4
  | 'U' => some 8
  | _ => none

/-- What another character behind a backslash stands for. -/
def escaped : Char → Char
  | 't' => '\t'
  | 'n' => '\n'
  | 'r' => '\r'
  | c => c

/-- The character at the head of what stands between quotes, and what follows it. -/
def unescape? : Text → Option (Char × Text)
  | [] => none
  | '\\' :: e :: rest =>
    match codeWidth? e with
    | some width => some (Char.ofNat (hexNumber (rest.take width)), rest.drop width)
    | none => some (escaped e, rest)
  | c :: rest => some (c, rest)

/-- The letter of an escape tells how many digits follow it. -/
theorem escapeCode_cases (c : Char) : ∃ e width, codeWidth? e = some width ∧ 0 < width ∧
    c.toNat < 16 ^ width ∧ escapeCode c.toNat = '\\' :: e :: hexDigits width c.toNat := by
  unfold escapeCode
  split
  · next h => exact ⟨'x', 2, rfl, by omega, h, rfl⟩
  split
  · next h => exact ⟨'u', 4, rfl, by omega, h, rfl⟩
  · have hv : c.toNat < 0xd800 ∨ 0xdfff < c.toNat ∧ c.toNat < 0x110000 := c.valid
    exact ⟨'U', 8, rfl, by omega, by omega, rfl⟩

/-- A character is escaped by one that stands for it or by its code, or it is written as it is. -/
theorem escapeChar_cases (hq : isQuote q = true) (c : Char) :
    (∃ e, escapeChar q c = ['\\', e] ∧ codeWidth? e = none ∧ escaped e = c) ∨
      (∃ e width, codeWidth? e = some width ∧ 0 < width ∧ c.toNat < 16 ^ width ∧
        escapeChar q c = '\\' :: e :: hexDigits width c.toNat) ∨
      c ≠ q ∧ c ≠ '\\' ∧ escapeChar q c = [c] := by
  unfold escapeChar
  split
  · next h =>
    refine Or.inl ⟨c, rfl, ?_⟩
    rcases h with rfl | rfl
    · rcases isQuote_iff.1 hq with rfl | rfl <;> decide
    · decide
  next h =>
  obtain ⟨hc, hb⟩ := not_or.1 h
  split
  · next h => exact Or.inl ⟨'t', rfl, rfl, h.symm⟩
  split
  · next h => exact Or.inl ⟨'n', rfl, rfl, h.symm⟩
  split
  · next h => exact Or.inl ⟨'r', rfl, rfl, h.symm⟩
  split
  · exact Or.inr (Or.inr ⟨hc, hb, rfl⟩)
  · exact Or.inr (Or.inl (escapeCode_cases c))

/-- One written character is read back, whatever follows it. -/
theorem unescape?_escapeChar (hq : isQuote q = true) (c : Char) (rest : Text) :
    unescape? (escapeChar q c ++ rest) = some (c, rest) := by
  rcases escapeChar_cases hq c with ⟨e, he, hw, hc⟩ | ⟨e, width, hw, hpos, hn, he⟩ | ⟨-, hb, he⟩
  · rw [he, List.cons_append, List.singleton_append, unescape?, hw, hc]
  · have hlen := length_hexDigits hpos hn
    rw [he, List.cons_append, List.cons_append, unescape?, hw]
    simp only [List.take_left' hlen, List.drop_left' hlen, hexNumber_hexDigits, Char.ofNat_toNat]
  · rw [he, List.singleton_append, unescape?]
    intro e rest h
    exact absurd h hb

/-- No written character begins with the quote. -/
theorem head_escapeChar (hq : isQuote q = true) (c : Char) :
    ∃ d more, escapeChar q c = d :: more ∧ d ≠ q := by
  have hb : '\\' ≠ q := by
    rintro rfl
    cases hq
  rcases escapeChar_cases hq c with ⟨e, he, -, -⟩ | ⟨e, width, -, -, -, he⟩ | ⟨hc, -, he⟩
  · exact ⟨_, _, he, hb⟩
  · exact ⟨_, _, he, hb⟩
  · exact ⟨_, _, he, hc⟩

theorem selfDelimiting_escapeChar (hq : isQuote q = true) : SelfDelimiting (escapeChar q) := by
  intro c d rest rest' h
  have hread := congrArg unescape? h
  rw [unescape?_escapeChar hq, unescape?_escapeChar hq] at hread
  exact Prod.mk.inj (Option.some.inj hread)

@[simp] theorem isQuote_quoteFor (t : Text) : isQuote (quoteFor t) = true := by
  unfold quoteFor
  split <;> rfl

theorem quoted_append (t rest : Text) : quoted t ++ rest =
    quoteFor t :: (t.flatMap (escapeChar (quoteFor t)) ++ quoteFor t :: rest) := by
  simp [quoted]

/-- Where a quoted text ends can be seen from the text itself. -/
theorem selfDelimiting_quoted : SelfDelimiting quoted := by
  intro s t rest rest' h
  rw [quoted_append, quoted_append] at h
  obtain ⟨hquote, hinner⟩ := List.cons.inj h
  have hq := isQuote_quoteFor s
  rw [← hquote] at hinner
  exact (selfDelimiting_escapeChar hq).flatMap (head_escapeChar hq) hinner

theorem quotedList_cons (t : Text) (ts : List Text) : quotedList (t :: ts) =
    '[' :: (quoted t ++ (ts.flatMap (fun u => ',' :: ' ' :: quoted u) ++ [']'])) := by
  simp [quotedList, joinWith_cons, List.flatMap_map]

/-- No two lists of texts are written alike. -/
theorem quotedList_injective : Function.Injective quotedList := by
  have hempty : ∀ t ts, quotedList [] ≠ quotedList (t :: ts) := by
    intro t ts h
    rw [quotedList_cons, quoted_append] at h
    have hq := isQuote_quoteFor t
    rw [← (List.cons.inj (List.cons.inj h).2).1] at hq
    revert hq
    decide
  have hmore : SelfDelimiting fun u => ',' :: ' ' :: quoted u := by
    intro s t rest rest' h
    exact selfDelimiting_quoted s t rest rest' (List.cons.inj (List.cons.inj h).2).2
  intro ss ts h
  cases ss with
  | nil =>
    cases ts with
    | nil => rfl
    | cons t ts => exact absurd h (hempty t ts)
  | cons s ss =>
    cases ts with
    | nil => exact absurd h.symm (hempty s ss)
    | cons t ts =>
      rw [quotedList_cons, quotedList_cons] at h
      obtain ⟨rfl, htail⟩ := selfDelimiting_quoted _ _ _ _ (List.cons.inj h).2
      rw [(hmore.flatMap (fun u => ⟨',', _, rfl, by decide⟩) htail).1]

end KeywordSieve.Text
