import KeywordSieve.Text.Pages
import KeywordSieve.Yaml.Node
import KeywordSieve.Yaml.Timestamp

/-!
The value that a YAML text denotes. A plain scalar is null, a truth value, a number, a timestamp or
a text, by its form. If several things are wrong with a tree, the one nearest to the root is
reported, and among those of one depth the first.
-/
namespace KeywordSieve.Yaml

open Text Number

inductive Form where
  | value (v : Value)
  | merge
  | default
  deriving Repr

def bool? (t : Text) : Option Bool :=
  if isOneOf ["yes", "Yes", "YES", "true", "True", "TRUE", "on", "On", "ON"] t then some true
  else if isOneOf ["no", "No", "NO", "false", "False", "FALSE", "off", "Off", "OFF"] t then
    some false
  else none

def Form.ofPlain (t : Text) : Except ScalarFault Form :=
  if isOneOf ["", "~", "null", "Null", "NULL"] t then .ok (.value .null)
  else if isOneOf ["<<"] t then .ok .merge
  else if isOneOf ["="] t then .ok .default
  else match bool? t, float? t, integer? t, Timestamp.value? t with
    | some b, _, _, _ => .ok (.value (.bool b))
    | none, some x, _, _ => .value <$> (.float <$> x)
    | none, none, some n, _ => .value <$> (.int <$> n)
    | none, none, none, some v => .value <$> v
    | none, none, none, none => .ok (.value (.text t))

/-- The text of some code points. Half of a surrogate pair is no character. -/
def textOf (codes : List Nat) : Except ScalarFault Value :=
  if codes.any fun n => 0xd800 ≤ n && n < 0xe000 then .error .surrogate
  else .ok (.text (codes.map Char.ofNat))

def Form.of : Scalar → Except ScalarFault Form
  | .plain t => ofPlain t
  | .verbatim codes => .value <$> textOf codes

namespace Node

def tagNamed (name : String) : Text := "tag:yaml.org,2002:" ++ name.toList

def scalarValue (start : Mark) (s : Scalar) : Except Failure Value :=
  match Form.of s with
  | .error f => .error (.scalar f)
  | .ok (.value v) => .ok v
  | .ok .merge => fail (.unknownTag (tagNamed "merge")) start
  | .ok .default => fail (.unknownTag (tagNamed "value")) start

/-- Whether a node is the key under which other mappings are merged. -/
def isMerge : Node → Bool
  | scalar _ (.plain t) => t == "<<".toList
  | _ => false

mutual

/-- The entries that merging adds to a mapping, and its own entries. -/
def split (start : Mark) :
    List (Node × Node) → Except Failure (List (Node × Node) × List (Node × Node))
  | [] => .ok ([], [])
  | (key, value) :: rest => do
    if key.isMerge then
      let added ← addedBy start value
      let (more, own) ← split start rest
      return (added ++ more, own)
    else
      let (added, own) ← split start rest
      return (added, (key, value) :: own)

/-- The entries that a value adds under the key for merging. -/
def addedBy (start : Mark) : Node → Except Failure (List (Node × Node))
  | mapping inner entries => do
    let (added, own) ← split inner entries
    return added ++ own
  | sequence _ items => addedByAll start items
  | scalar m _ => failIn .mapping start (.mergeOf "scalar") m

/-- Of several mappings to merge, the first comes last and so wins. -/
def addedByAll (start : Mark) : List Node → Except Failure (List (Node × Node))
  | [] => .ok []
  | mapping inner entries :: rest => do
    let (added, own) ← split inner entries
    return (← addedByAll start rest) ++ (added ++ own)
  | n :: _ => failIn .mapping start (.mergeOfEntry n.kindName) n.start

end

def merged (start : Mark) (entries : List (Node × Node)) :
    Except Failure (List (Node × Node)) := do
  let (added, own) ← split start entries
  return added ++ own

/-- The value of a key. A collection cannot be one. -/
def keyValue (start : Mark) : Node → Except Failure Value
  | scalar m s =>
    match Form.of s with
    | .ok .default => .ok (.text "=")
    | _ => scalarValue m s
  | n => failIn .mapping start .unhashable n.start

mutual

/-- How deep the collections of a node are nested. -/
def depth : Node → Nat
  | scalar .. => 1
  | sequence _ items => depthOfAll items + 1
  | mapping _ entries => depthOfEntries entries + 1

def depthOfAll : List Node → Nat
  | [] => 0
  | n :: rest => max (depth n) (depthOfAll rest)

def depthOfEntries : List (Node × Node) → Nat
  | [] => 0
  | (key, value) :: rest => max (max (depth key) (depth value)) (depthOfEntries rest)

end

/-- The collection that a node is, if it is not a scalar that denotes a value. -/
def inner? : Node → Except Failure (Option Node)
  | scalar m s => do
    let _ ← scalarValue m s
    return none
  | n => .ok (some n)

/-- The collections right below a collection, if all scalars there denote values. -/
def children : Node → Except Failure (List Node)
  | scalar .. => .ok []
  | sequence _ items => return (← items.mapM inner?).reduceOption
  | mapping start entries => do
    let inner ← (← merged start entries).mapM fun (key, value) => do
      let _ ← keyValue start key
      inner? value
    return inner.reduceOption

/-- Checks the scalars below some nodes, level by level. -/
def check : Nat → List Node → Except Failure Unit
  | 0, _ => .ok ()
  | fuel + 1, level => do
    let next ← level.mapM children
    if next.flatten.isEmpty then return () else check fuel next.flatten

/-- The value of a node of at most a given depth. -/
def build : Nat → Node → Except Failure Value
  | 0, _ => .ok .null
  | _ + 1, scalar m s => scalarValue m s
  | fuel + 1, sequence _ items => .list <$> items.mapM (build fuel)
  | fuel + 1, mapping start entries => do
    let pairs ← (← merged start entries).mapM fun (key, value) =>
      return (← keyValue start key, ← build fuel value)
    return .mapping (pairs.foldl (fun done (key, value) => Value.insert key value done) [])

def value (n : Node) : Except Failure Value := do
  check n.depth [n]
  build n.depth n

end Node

/-- Whether a character may stand in a text. -/
def isAllowed (c : Char) : Bool :=
  let n := c.toNat
  n == 9 || n == 0xa || n == 0xd || (0x20 ≤ n && n ≤ 0x7e) || n == 0x85 ||
    (0xa0 ≤ n && n ≤ 0xfffd) || 0x10000 ≤ n

/-- What fails in a text that ends at a barrier: something in the text, or else the barrier. -/
def failureBefore (deepest : Nat) (barrier : Failure) (t : Text) : Failure :=
  match Node.ofTokens? deepest (tokensBefore (some barrier) t) with
  | .error f => f
  | .ok _ => barrier

/-- What fails in a text with a character that may not stand in it, if there is one. Only the pages
in front of that character are read. -/
def unprintable? (deepest : Nat) (t : Text) : Option Failure := do
  let c ← t.find? (!isAllowed ·)
  let index := (t.takeWhile isAllowed).length
  let barrier := .malformed (.unprintable c index)
  return failureBefore deepest barrier (t.take (Pages.start index))

def read (deepest : Nat) (t : Text) : Except Failure Value := do
  match unprintable? deepest t with
  | some f => .error f
  | none =>
    match ← Node.ofTokens? deepest (tokens t) with
    | some n => n.value
    | none => return .null

/-- What fails in a text that goes on with bytes that are no text. -/
def failureBeforeFault (deepest : Nat) (fault : Utf8.Fault) (t : Text) : Failure :=
  (unprintable? deepest t).getD (failureBefore deepest (.undecodable fault) t)

end KeywordSieve.Yaml
