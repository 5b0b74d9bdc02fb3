import KeywordSieve.Query.Token

/-!
Compiled filters. A query is read in three passes over its tokens: phrases give terms to include
or to exclude, groups give override groups, and the plain text, with phrases and groups cut out,
is folded and split at commas into further terms. Fragments without a term are dropped.
-/
namespace KeywordSieve.Query

open Text Term

/-- An empty list of includes keeps every item that is not excluded. -/
structure Filter where
  includes : List Text := []
  excludes : List Text := []
  overrides : List (List Text) := []
  deriving DecidableEq, Repr

namespace Filter

def isEmpty (f : Filter) : Bool := f.includes.isEmpty && f.excludes.isEmpty && f.overrides.isEmpty

/-- A term, marked if it is one to exclude. -/
abbrev Signed := Bool × Text

def phraseTerm? : Token → Option Signed
  | .phrase negated _ body => (normalize body).map (negated, ·)
  | _ => none

def group? : Token → Option (List Text)
  | .override opening body =>
    match Override.terms (Token.override opening body).value with
    | [] => none
    | terms => some terms
  | _ => none

def plainText : Token → Text
  | .plain text => text
  | _ => []

/-- The term of a piece between commas; a leading minus sign marks one to exclude. -/
def pieceTerm? (piece : Text) : Option Signed :=
  match trim piece with
  | '-' :: rest => (normalize rest).map (true, ·)
  | bare => (normalize bare).map (false, ·)

/-- The terms of the plain text, read as one text. -/
def plainTerms (tokens : List Token) : List Signed :=
  (pieces ',' (fold (tokens.flatMap plainText))).filterMap pieceTerm?

def select (mark : Bool) (terms : List Signed) : List Text :=
  (terms.filter (·.1 == mark)).map (·.2)

/-- The filter that a token list denotes. -/
def ofTokens (tokens : List Token) : Filter :=
  let terms := tokens.filterMap phraseTerm? ++ plainTerms tokens
  { includes := select false terms
    excludes := select true terms
    overrides := tokens.filterMap group? }

def compile (query : Text) : Filter := ofTokens (Token.lex query)

/-- A missing query denotes the empty filter. -/
def compile? : Option Text → Filter
  | some query => compile query
  | none => {}

end Filter

end KeywordSieve.Query
