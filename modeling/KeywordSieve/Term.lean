import KeywordSieve.Text.Fold

/-!
Terms and the text they are looked for in. A term is a fragment of a query in lower case, without
outer white space and wrapping quotes. Terms and item texts are folded by the same function, and a
term is found wherever it stands in the folded text, also in the middle of a word.
-/
namespace KeywordSieve.Term

open Text

/-- The two characters that may wrap a term. -/
def isQuote (c : Char) : Bool := c == '"' || c == '\''

/-- The term that a fragment denotes, if anything is left of it. -/
def normalize (fragment : Text) : Option Text :=
  match trim (trimBoth isQuote (trim (fold fragment))) with
  | [] => none
  | term => some term

/-- What the terms of a filter are looked for in: the title and the summary, a space between. -/
def searchText (title summary : Option Text) : Text :=
  fold (title.getD [] ++ ' ' :: summary.getD [])

/-- Whether a term is found in a folded text. -/
def foundIn (text term : Text) : Bool := occurs term text

theorem foundIn_iff {text term : Text} : foundIn text term = true ↔ term <:+: text := occurs_iff

end KeywordSieve.Term
