import Mathlib.Data.List.Forall2
import KeywordSieve.Proofs.NormalForm
import KeywordSieve.Query.Token

/-!
What a query may hold besides plain text, told without a scan: how a group opens, which characters
its body is made of, and what a phrase is. The scanning functions find a construct exactly where
one stands, and the text that follows decides where it ends, so no text begins with two of them.
-/
namespace KeywordSieve.Text

variable {c q : Char} {body after : Text}

theorem takeWhile_ne_append (h : q ∉ body) :
    (body ++ q :: after).takeWhile (· ≠ q) = body := by
  rw [List.takeWhile_append_of_pos (by grind)]
  simp

theorem dropWhile_ne_append (h : q ∉ body) :
    (body ++ q :: after).dropWhile (· ≠ q) = q :: after := by
  rw [List.dropWhile_append_of_pos (by grind)]
  simp

theorem takeWhile_ne_of_not_mem (h : q ∉ body) : body.takeWhile (· ≠ q) = body := by
  have ht : (body ++ []).takeWhile (· ≠ q) = body ++ [] := List.takeWhile_append_of_pos (by grind)
  rwa [List.append_nil] at ht

theorem dropWhile_ne_of_not_mem (h : q ∉ body) : body.dropWhile (· ≠ q) = [] := by
  have hd : (body ++ []).dropWhile (· ≠ q) = [] := List.dropWhile_append_of_pos (by grind)
  rwa [List.append_nil] at hd

theorem char_le_iff {c d : Char} : c ≤ d ↔ c.toNat ≤ d.toNat := by
  rw [Char.le_def, UInt32.le_iff_toNat_le]
  rfl

theorem smallAscii_toNat (c : Char) :
    (smallAscii c).toNat = if 65 ≤ c.toNat ∧ c.toNat ≤ 90 then c.toNat + 32 else c.toNat := by
  have hc : ('A' ≤ c ∧ c ≤ 'Z') ↔ (65 ≤ c.toNat ∧ c.toNat ≤ 90) := by
    rw [char_le_iff, char_le_iff]
    rfl
  unfold smallAscii
  simp only [hc]
  split
  · have hv : (c.toNat + 32).isValidChar := Or.inl (by omega)
    rw [Char.ofNat, dif_pos hv]
    rfl
  · rfl

end KeywordSieve.Text

namespace KeywordSieve.Query.Override

open Text Term Unicode

/-- The word letter by letter, each of them small or capital. -/
def Spells (spelled word : Text) : Prop :=
  List.Forall₂ (fun c w => c = w ∨ c = w.toUpper) spelled word

/-- How a group opens: the word, white space, and a parenthesis. -/
def IsOpening (opening : Text) : Prop :=
  ∃ spelled blanks, Spells spelled word ∧ (∀ c ∈ blanks, isBlank c = true) ∧
    opening = spelled ++ blanks ++ ['(']

theorem Spells.mem {spelled w : Text} {c : Char} (h : Spells spelled w) (hc : c ∈ spelled) :
    ∃ x ∈ w, c = x ∨ c = x.toUpper := by
  unfold Spells at h
  induction h with
  | nil => cases hc
  | @cons d x spelled w hd _ ih =>
    rcases List.mem_cons.1 hc with rfl | hc
    · exact ⟨x, by simp, hd⟩
    · obtain ⟨y, hy, he⟩ := ih hc
      exact ⟨y, List.mem_cons_of_mem x hy, he⟩

theorem IsOpening.mem {opening : Text} {c : Char} (h : IsOpening opening) (hc : c ∈ opening) :
    (∃ x ∈ word, c = x ∨ c = x.toUpper) ∨ isBlank c = true ∨ c = '(' := by
  obtain ⟨spelled, blanks, hs, hb, rfl⟩ := h
  rw [List.mem_append, List.mem_append, List.mem_singleton] at hc
  rcases hc with (hc | hc) | hc
  · exact Or.inl (hs.mem hc)
  · exact Or.inr (Or.inl (hb c hc))
  · exact Or.inr (Or.inr hc)

theorem comma_not_mem_opening {opening : Text} (h : IsOpening opening) : ',' ∉ opening := by
  intro hc
  have hw : ∀ x ∈ word, ¬ (',' = x ∨ ',' = x.toUpper) := by simp [word]
  rcases h.mem hc with ⟨x, hx, he⟩ | hb | hp
  · exact hw x hx he
  · revert hb
    decide
  · cases hp

theorem paren_mem_opening {opening : Text} (h : IsOpening opening) : '(' ∈ opening := by
  obtain ⟨spelled, blanks, -, -, rfl⟩ := h
  simp

/-- The body of a group with the rest of the query behind it. A quote with a partner takes all up
to the partner; a quote without one is a character like others. -/
inductive IsBody (after : Text) : Text → Prop where
  | nil : IsBody after []
  | run {q : Char} {inner rest : Text} : isQuote q = true → q ∉ inner → IsBody after rest →
      IsBody after (q :: inner ++ q :: rest)
  | lone {q : Char} {rest : Text} : isQuote q = true → q ∉ rest ++ after → IsBody after rest →
      IsBody after (q :: rest)
  | other {c : Char} {rest : Text} : isQuote c = false → c ≠ ')' → IsBody after rest →
      IsBody after (c :: rest)

theorem word_toNat : ∀ w ∈ word, 97 ≤ w.toNat ∧ w.toNat ≤ 122 ∧ w.toUpper.toNat = w.toNat - 32 := by
  simp [word]

theorem smallAscii_eq_iff {c w : Char} (h : w ∈ word) :
    smallAscii c = w ↔ c = w ∨ c = w.toUpper := by
  obtain ⟨hlow, hhigh, hup⟩ := word_toNat w h
  rw [← Char.toNat_inj, ← Char.toNat_inj, ← Char.toNat_inj, smallAscii_toNat, hup]
  split <;> omega

theorem dropWord_iff {w t rest : Text} (hw : w ⊆ word) :
    dropWord w t = some rest ↔ ∃ spelled, Spells spelled w ∧ t = spelled ++ rest := by
  induction w generalizing t with
  | nil => simp [dropWord, Spells]
  | cons x w ih =>
    have hx : x ∈ word := hw (by simp)
    have ih := fun u => ih (t := u) (fun d hd => hw (List.mem_cons_of_mem x hd))
    cases t with
    | nil =>
      simp only [dropWord, reduceCtorEq, Spells, false_iff]
      rintro ⟨spelled, hs, he⟩
      cases hs
      cases he
    | cons c t =>
      simp only [dropWord]
      by_cases hc : smallAscii c = x
      · rw [if_pos hc, ih]
        constructor
        · rintro ⟨spelled, hs, rfl⟩
          exact ⟨c :: spelled, .cons ((smallAscii_eq_iff hx).1 hc) hs, rfl⟩
        · rintro ⟨spelled, hs, he⟩
          cases hs with
          | cons hd hs =>
            cases he
            exact ⟨_, hs, rfl⟩
      · rw [if_neg hc]
        constructor
        · intro h
          cases h
        · rintro ⟨spelled, hs, he⟩
          cases hs with
          | cons hd hs =>
            cases he
            exact absurd ((smallAscii_eq_iff hx).2 hd) hc

/-- A group is opened exactly by what the rules of an opening allow. -/
theorem opening?_iff {t inside : Text} :
    opening? t = some inside ↔ ∃ opening, IsOpening opening ∧ t = opening ++ inside := by
  have hd : opening? t = some inside ↔
      ∃ rest, dropWord word t = some rest ∧ rest.dropWhile isBlank = '(' :: inside := by
    unfold opening?
    split
    · next found hf =>
      obtain ⟨rest, hw, hr⟩ := Option.map_eq_some_iff.1 hf
      simp [hw, hr]
    · next hf =>
      simp only [reduceCtorEq, false_iff, not_exists, not_and]
      intro rest hw hr
      exact hf inside (by rw [hw, Option.map_some, hr])
  rw [hd]
  constructor
  · rintro ⟨rest, hw, hr⟩
    obtain ⟨spelled, hs, rfl⟩ := (dropWord_iff (List.Subset.refl _)).1 hw
    refine ⟨spelled ++ rest.takeWhile isBlank ++ ['('], ⟨spelled, _, hs, ?_, rfl⟩, ?_⟩
    · intro c hc
      exact List.all_eq_true.1 List.all_takeWhile c hc
    · have hsplit := List.takeWhile_append_dropWhile (p := isBlank) (l := rest)
      rw [hr] at hsplit
      rw [List.append_assoc, List.append_assoc, List.singleton_append, hsplit]
  · rintro ⟨opening, ⟨spelled, blanks, hs, hb, rfl⟩, rfl⟩
    refine ⟨blanks ++ '(' :: inside, (dropWord_iff (List.Subset.refl _)).2 ⟨spelled, hs, by simp⟩, ?_⟩
    rw [List.dropWhile_append_of_pos hb]
    rfl

/-- No group opens with another letter than the first one of the word. -/
theorem opening?_cons_of_ne {c : Char} {rest : Text} (h : smallAscii c ≠ 'e') :
    opening? (c :: rest) = none := by
  simp [opening?, dropWord, word, h]

/-- Only a quote opens a run. -/
theorem isQuote_of_runAfter {run : Option Char} {c q : Char} {rest : Text}
    (hr : ∀ q ∈ run, isQuote q = true) (h : q ∈ runAfter run c rest) : isQuote q = true := by
  cases run with
  | some r =>
    simp only [runAfter] at h
    split at h
    · cases h
    · exact hr q h
  | none =>
    simp only [runAfter] at h
    split at h
    · next hc =>
      cases h
      exact hc.1
    · cases h

/-- A run that is open takes all up to its quote. -/
theorem close?_run {q : Char} {inner t : Text} (h : q ∉ inner) :
    close? (some q) (inner ++ q :: t) =
      (close? none t).map fun p => (inner ++ q :: p.1, p.2) := by
  induction inner with
  | nil => simp [close?, runAfter]
  | cons c inner ih =>
    have hc : c ≠ q := by
      intro he
      exact h (by simp [he])
    have hi := ih (fun hq => h (List.mem_cons_of_mem c hq))
    simp [close?, runAfter, hc, hi, Function.comp_def]

theorem ne_close_of_isQuote {q : Char} (h : isQuote q = true) : q ≠ ')' := by
  intro he
  subst he
  revert h
  decide

theorem ne_comma_of_isQuote {q : Char} (h : isQuote q = true) : q ≠ ',' := by
  intro he
  subst he
  revert h
  decide

/-- The scan finds a body that is there. -/
theorem close?_complete {body after : Text} (h : IsBody (')' :: after) body) :
    close? none (body ++ ')' :: after) = some (body, after) := by
  induction h with
  | nil => simp [close?]
  | @run q inner rest hq hi _ ih =>
    have hr := close?_run (t := rest ++ ')' :: after) hi
    rw [ih] at hr
    simp [close?, runAfter, hq, ne_close_of_isQuote hq, hr]
  | @lone q rest hq hn _ ih =>
    have ha : runAfter none q (rest ++ ')' :: after) = none := by
      rw [runAfter, if_neg (fun hm => hn hm.2)]
    rw [List.cons_append, close?, if_neg (fun hp => ne_close_of_isQuote hq hp.2), ha, ih]
    rfl
  | @other c rest hq hc _ ih => simp [close?, runAfter, hq, hc, ih]

/-- What the scan takes for a body is one. -/
theorem close?_sound {t body after : Text} (h : close? none t = some (body, after)) :
    IsBody (')' :: after) body := by
  induction hn : t.length using Nat.strongRecOn generalizing t body with
  | ind n ih =>
    cases t with
    | nil => cases h
    | cons c rest =>
      have hlen : rest.length < n := by
        rw [← hn]
        exact Nat.lt_succ_self _
      simp only [close?, true_and] at h
      split at h
      · cases h
        exact .nil
      · next hc =>
        obtain ⟨⟨b, a⟩, hb, he⟩ := Option.map_eq_some_iff.1 h
        cases he
        by_cases hq : isQuote c = true
        · by_cases hm : c ∈ rest
          · obtain ⟨inner, more, rfl, hi⟩ := List.eq_append_cons_of_mem hm
            rw [runAfter, if_pos ⟨hq, hm⟩, close?_run hi] at hb
            obtain ⟨⟨b', a'⟩, hb', he'⟩ := Option.map_eq_some_iff.1 hb
            cases he'
            have hmore : more.length < n := by
              rw [List.length_append, List.length_cons] at hlen
              omega
            exact .run hq hi (ih _ hmore hb' rfl)
          · rw [runAfter, if_neg (fun hb => hm hb.2)] at hb
            have hr := close?_eq hb
            exact .lone hq (hr ▸ hm) (ih _ hlen hb rfl)
        · rw [runAfter, if_neg (fun hb => hq hb.1)] at hb
          exact .other (Bool.eq_false_iff.2 hq) hc (ih _ hlen hb rfl)

/-- A group closes exactly behind what the rules of a body allow. -/
theorem close?_iff {t body after : Text} :
    close? none t = some (body, after) ↔ IsBody (')' :: after) body ∧ t = body ++ ')' :: after := by
  constructor
  · intro h
    exact ⟨close?_sound h, close?_eq h⟩
  · rintro ⟨h, rfl⟩
    exact close?_complete h

end KeywordSieve.Query.Override

namespace KeywordSieve.Query.Token

open Text Term Override

/-- The token is a construct, with the rest of the query behind it: a group, or a phrase that is
not empty. A phrase does not depend on what follows it. -/
inductive IsConstruct (after : Text) : Token → Prop where
  | phrase {negated : Bool} {q : Char} {body : Text} : isQuote q = true → q ∉ body → body ≠ [] →
      IsConstruct after (.phrase negated q body)
  | override {opening body : Text} : IsOpening opening → IsBody (')' :: after) body →
      IsConstruct after (.override opening body)

def Starts (t : Text) : Prop := ∃ token after, IsConstruct after token ∧ t = token.source ++ after

/-- A group is read where one stands, and nowhere else. -/
theorem override?_iff {t after : Text} {token : Token} :
    override? t = some (token, after) ↔ ∃ opening body, IsOpening opening ∧
      IsBody (')' :: after) body ∧ token = .override opening body ∧
      t = opening ++ body ++ ')' :: after := by
  have htake : ∀ opening inside : Text,
      (opening ++ inside).take ((opening ++ inside).length - inside.length) = opening := by
    intro opening inside
    rw [List.length_append, Nat.add_sub_cancel, List.take_left]
  constructor
  · intro h
    unfold override? at h
    split at h
    · cases h
    · next inside hi =>
      obtain ⟨opening, ho, rfl⟩ := opening?_iff.1 hi
      obtain ⟨p, hp, he⟩ := Option.map_eq_some_iff.1 h
      cases he
      obtain ⟨hb, hin⟩ := close?_iff.1 hp
      exact ⟨opening, p.1, ho, hb, by rw [htake], by rw [List.append_assoc, ← hin]⟩
  · rintro ⟨opening, body, ho, hb, rfl, rfl⟩
    unfold override?
    rw [List.append_assoc, opening?_iff.2 ⟨opening, ho, rfl⟩]
    simp only [close?_complete hb, Option.map_some, htake]

theorem phrase?_iff {negated : Bool} {t after : Text} {token : Token} :
    phrase? negated t = some (token, after) ↔ ∃ q body, isQuote q = true ∧ q ∉ body ∧
      body ≠ [] ∧ token = .phrase negated q body ∧ t = q :: body ++ q :: after := by
  constructor
  · intro h
    cases t with
    | nil => cases h
    | cons q rest =>
      simp only [phrase?] at h
      split at h
      · next hq =>
        by_cases hm : q ∈ rest
        · obtain ⟨body, more, rfl, hb⟩ := List.eq_append_cons_of_mem hm
          rw [takeWhile_ne_append hb, dropWhile_ne_append hb] at h
          cases body with
          | nil => cases h
          | cons c body =>
            cases h
            exact ⟨q, c :: body, hq, hb, by simp, rfl, rfl⟩
        · rw [dropWhile_ne_of_not_mem hm] at h
          split at h
          · next hd =>
            cases hd
          · cases h
      · cases h
  · rintro ⟨q, body, hq, hb, hne, rfl, rfl⟩
    obtain ⟨c, rest, rfl⟩ := List.exists_cons_of_ne_nil hne
    rw [List.cons_append, phrase?, if_pos hq, takeWhile_ne_append hb, dropWhile_ne_append hb]

theorem override?_cons_of_ne {c : Char} {rest : Text} (h : smallAscii c ≠ 'e') :
    override? (c :: rest) = none := by
  rw [override?, opening?_cons_of_ne h]

/-- A text that begins with a quote, or a minus sign and a quote, can only begin with a phrase. -/
theorem construct?_phrase {negated : Bool} {q : Char} {rest : Text} (hq : isQuote q = true) :
    construct? ((if negated then ['-'] else []) ++ q :: rest) = phrase? negated (q :: rest) := by
  cases negated
  · rcases isQuote_iff.1 hq with rfl | rfl
    · simp [construct?, override?_cons_of_ne (show smallAscii '"' ≠ 'e' by decide)]
    · simp [construct?, override?_cons_of_ne (show smallAscii '\'' ≠ 'e' by decide)]
  · simp [construct?, override?_cons_of_ne (show smallAscii '-' ≠ 'e' by decide)]

/-- A construct is found at the head of a text exactly if one stands there. -/
theorem construct?_iff {t after : Text} {token : Token} :
    construct? t = some (token, after) ↔ IsConstruct after token ∧ t = token.source ++ after := by
  constructor
  · intro h
    unfold construct? at h
    split at h
    · next hf =>
      cases h
      obtain ⟨opening, body, ho, hb, rfl, rfl⟩ := override?_iff.1 hf
      exact ⟨.override ho hb, by simp [source]⟩
    · split at h
      · obtain ⟨q, body, hq, hb, hne, rfl, rfl⟩ := phrase?_iff.1 h
        exact ⟨.phrase hq hb hne, by simp [source]⟩
      · obtain ⟨q, body, hq, hb, hne, rfl, rfl⟩ := phrase?_iff.1 h
        exact ⟨.phrase hq hb hne, by simp [source]⟩
  · rintro ⟨hc, rfl⟩
    cases hc with
    | @phrase negated q body hq hb hne =>
      have hp : phrase? negated (q :: body ++ q :: after) = some (.phrase negated q body, after) :=
        phrase?_iff.2 ⟨q, body, hq, hb, hne, rfl, rfl⟩
      rw [List.cons_append, ← construct?_phrase hq] at hp
      simpa [source] using hp
    | @override opening body ho hb =>
      have hf := override?_iff.2 ⟨opening, body, ho, hb, rfl, rfl⟩
      have hs : (Token.override opening body).source ++ after = opening ++ body ++ ')' :: after := by
        simp [source]
      rw [hs]
      unfold construct?
      rw [hf]

theorem construct?_eq_none {t : Text} : construct? t = none ↔ ¬ Starts t := by
  constructor
  · rintro h ⟨token, after, hs⟩
    rw [construct?_iff.2 hs] at h
    cases h
  · intro h
    cases hc : construct? t with
    | none => rfl
    | some found => exact absurd ⟨found.1, found.2, construct?_iff.1 hc⟩ h

end KeywordSieve.Query.Token
