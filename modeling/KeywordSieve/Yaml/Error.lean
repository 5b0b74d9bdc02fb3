import KeywordSieve.Yaml.Cursor
import KeywordSieve.Calendar
import KeywordSieve.Text.Quoted
import KeywordSieve.Text.Utf8

/-!
What can be wrong with a YAML text: a text that is malformed, reported with the places that
matter, or a scalar that denotes no value.
-/
namespace KeywordSieve.Yaml

open Text

inductive Context where
  | nextToken | simpleKey | directive | blockScalar | doubleQuoted | quoted
  | blockNode | flowNode | blockSequence | blockMapping | flowSequence | flowMapping
  | stream | mapping
  deriving DecidableEq, Repr

def Context.message : Context → Text
  | nextToken => "while scanning for the next token"
  | simpleKey => "while scanning a simple key"
  | directive => "while scanning a directive"
  | blockScalar => "while scanning a block scalar"
  | doubleQuoted => "while scanning a double-quoted scalar"
  | quoted => "while scanning a quoted scalar"
  | blockNode => "while parsing a block node"
  | flowNode => "while parsing a flow node"
  | blockSequence => "while parsing a block collection"
  | blockMapping => "while parsing a block mapping"
  | flowSequence => "while parsing a flow sequence"
  | flowMapping => "while parsing a flow mapping"
  | stream => "expected a single document in the stream"
  | mapping => "while constructing a mapping"

/-- A character that was found, or none at the end of the text. -/
abbrev Found := Option Char

def shownFound (found : Found) : Text := quoted [found.getD '\x00']

inductive Problem where
  | cannotStart (found : Found)
  | keyWithoutValue
  | entryNotAllowed
  | keyNotAllowed
  | valueNotAllowed
  | directiveName (found : Found)
  | versionDigit (found : Found)
  | versionPoint (found : Found)
  | versionEnd (found : Found)
  | lineEnd (found : Found)
  | zeroIndent
  | blockIndicator (found : Found)
  | hexDigits (count : Nat) (found : Found)
  | escape (found : Found)
  | endOfText
  | documentMarker
  | noDocumentStart (token : Text)
  | repeatedVersion
  | unknownVersion
  | noContent (token : Text)
  | noBlockEnd (token : Text)
  | noSequenceEnd (token : Text)
  | noMappingEnd (token : Text)
  | secondDocument
  | unhashable
  | mergeOfEntry (kind : Text)
  | mergeOf (kind : Text)
  | unknownTag (tag : Text)
  deriving DecidableEq, Repr

namespace Problem

def message : Problem → Text
  | cannotStart found => "found character " ++ shownFound found ++ " that cannot start any token"
  | keyWithoutValue => "could not find expected ':'"
  | entryNotAllowed => "sequence entries are not allowed here"
  | keyNotAllowed => "mapping keys are not allowed here"
  | valueNotAllowed => "mapping values are not allowed here"
  | directiveName found =>
    "expected alphabetic or numeric character, but found " ++ shownFound found
  | versionDigit found => "expected a digit, but found " ++ shownFound found
  | versionPoint found => "expected a digit or '.', but found " ++ shownFound found
  | versionEnd found => "expected a digit or ' ', but found " ++ shownFound found
  | lineEnd found => "expected a comment or a line break, but found " ++ shownFound found
  | zeroIndent => "expected indentation indicator in the range 1-9, but found 0"
  | blockIndicator found =>
    "expected chomping or indentation indicators, but found " ++ shownFound found
  | hexDigits count found =>
    "expected escape sequence of " ++ ofNat count ++ " hexadecimal numbers, but found " ++
      shownFound found
  | escape found => "found unknown escape character " ++ shownFound found
  | endOfText => "found unexpected end of stream"
  | documentMarker => "found unexpected document separator"
  | noDocumentStart token => "expected '<document start>', but found " ++ quoted token
  | repeatedVersion => "found duplicate YAML directive"
  | unknownVersion => "found incompatible YAML document (version 1.* is required)"
  | noContent token => "expected the node content, but found " ++ quoted token
  | noBlockEnd token => "expected <block end>, but found " ++ quoted token
  | noSequenceEnd token => "expected ',' or ']', but got " ++ quoted token
  | noMappingEnd token => "expected ',' or '\x7d', but got " ++ quoted token
  | secondDocument => "but found another document"
  | unhashable => "found unhashable key"
  | mergeOfEntry kind => "expected a mapping for merging, but found " ++ kind
  | mergeOf kind => "expected a mapping or list of mappings for merging, but found " ++ kind
  | unknownTag tag => "could not determine a constructor for the tag " ++ quoted tag

end Problem

inductive Error where
  | at (context : Option (Context × Option Mark)) (problem : Problem) (mark : Mark)
  | unprintable (c : Char) (index : Nat)
  | other (message : Text)
  deriving DecidableEq, Repr

/-- The error in a text of a given name. A place is not written twice. -/
def Error.message (name : Text) : Error → Text
  | .at context problem mark =>
    let contextLines : List Text := match context with
      | none => []
      | some (context, none) => [context.message]
      | some (context, some start) =>
        if start.line = mark.line ∧ start.column = mark.column then [context.message]
        else [context.message, start.text name]
    joinWith ['\n'] (contextLines ++ [problem.message, mark.text name])
  | .unprintable c index =>
    "unacceptable character #x" ++ Text.hexDigits 4 c.toNat ++
      ": special characters are not allowed\n  in \"" ++ name ++ "\", position " ++ ofNat index
  | .other message => message

inductive ScalarFault where
  | calendar (fault : CalendarFault)
  | noDigits (base : Nat)
  | tooManyDigits (count : Nat)
  | fractionOfTooManyParts
  | codePoint
  | codeWord
  | surrogate
  deriving DecidableEq, Repr

inductive Unread where
  | anchor | reference | tag
  deriving DecidableEq, Repr

def Unread.message : Unread → Text
  | anchor => "anchors are not read"
  | reference => "aliases are not read"
  | tag => "tags are not read"

/-- Why a text has no value. One that is `undecodable` goes on with bytes that are no text. -/
inductive Failure where
  | malformed (e : Error)
  | scalar (f : ScalarFault)
  | unread (part : Unread)
  | tooDeep
  | undecodable (f : Utf8.Fault)
  deriving DecidableEq, Repr

def fail (problem : Problem) (mark : Mark) : Except Failure α :=
  .error (.malformed (.at none problem mark))

/-- Fails with a problem at a place, while something was being read that began at another. -/
def failIn (context : Context) (start : Mark) (problem : Problem) (mark : Mark) :
    Except Failure α :=
  .error (.malformed (.at (some (context, some start)) problem mark))

end KeywordSieve.Yaml
