import KeywordSieve.Query.Override

/-!
Tokens of a query: quoted phrases, override groups, and the plain text between them. Whichever
construct starts first owns its characters, so a quote that opens in front of `except(` swallows
it, and quoted elements inside a group belong to the group. Nothing is refused: what starts
neither construct is plain text.
-/
namespace KeywordSieve.Query

open Text Term

/-- A token holds all of its source: the quote of a phrase, the opening of a group as written. -/
inductive Token where
  | phrase (negated : Bool) (quote : Char) (body : Text)
  | override (opening body : Text)
  | plain (text : Text)
  deriving DecidableEq, Repr

namespace Token

/-- The part of the query that the token stands for. -/
def source : Token → Text
  | phrase negated quote body => (if negated then ['-'] else []) ++ quote :: body ++ [quote]
  | override opening body => opening ++ body ++ [')']
  | plain text => text

/-- What the token says, without quotes, parentheses and the space inside them. -/
def value : Token → Text
  | phrase _ _ body => body
  | override _ body => trim body
  | plain text => text

def negated : Token → Bool
  | phrase negated _ _ => negated
  | _ => false

def override? (t : Text) : Option (Token × Text) :=
  match Override.opening? t with
  | none => none
  | some inside =>
    (Override.close? none inside).map fun p =>
      (override (t.take (t.length - inside.length)) p.1, p.2)

def phrase? (negated : Bool) : Text → Option (Token × Text)
  | [] => none
  | q :: rest =>
    if isQuote q then
      match rest.takeWhile (· ≠ q), rest.dropWhile (· ≠ q) with
      | c :: body, _ :: after => some (phrase negated q (c :: body), after)
      | _, _ => none
    else none

/-- The group or phrase at the head of a text. -/
def construct? (t : Text) : Option (Token × Text) :=
  match override? t with
  | some found => some found
  | none =>
    match t with
    | '-' :: rest => phrase? true rest
    | _ => phrase? false t

theorem override?_length {t after : Text} {token : Token} (h : override? t = some (token, after)) :
    after.length < t.length := by
  unfold override? at h
  split at h
  · cases h
  · next inside hi =>
    obtain ⟨p, hp, he⟩ := Option.map_eq_some_iff.1 h
    cases he
    have hc := congrArg List.length (Override.close?_eq hp)
    have ho := Override.opening?_length hi
    simp only [List.length_append, List.length_cons] at hc
    omega

theorem phrase?_length {negated : Bool} {t after : Text} {token : Token}
    (h : phrase? negated t = some (token, after)) : after.length < t.length := by
  cases t with
  | nil => simp [phrase?] at h
  | cons q rest =>
    simp only [phrase?] at h
    split at h
    · split at h
      · next hd =>
        cases h
        have := (List.dropWhile_suffix (l := rest) (· ≠ q)).length_le
        rw [hd] at this
        simp only [List.length_cons] at this ⊢
        omega
      · cases h
    · cases h

/-- A construct takes at least one character. -/
theorem construct?_length {t after : Text} {token : Token}
    (h : construct? t = some (token, after)) : after.length < t.length := by
  unfold construct? at h
  split at h
  · next hf =>
    cases h
    exact override?_length hf
  · split at h
    · have := phrase?_length h
      simp only [List.length_cons]
      omega
    · exact phrase?_length h

/-- Puts a plain character in front, joining it to a plain token that follows. -/
def consPlain (c : Char) : List Token → List Token
  | plain text :: rest => plain (c :: text) :: rest
  | tokens => plain [c] :: tokens

def lex : Text → List Token
  | [] => []
  | c :: rest =>
    match _ : construct? (c :: rest) with
    | some (token, after) => token :: lex after
    | none => consPlain c (lex rest)
termination_by t => t.length
decreasing_by
  · exact construct?_length ‹_›
  · simp

def placed (start : Nat) : List Token → List (Nat × Token)
  | [] => []
  | token :: rest => (start, token) :: placed (start + token.source.length) rest

end Token

end KeywordSieve.Query
