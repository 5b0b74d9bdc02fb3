import KeywordSieve.Text.Quoted

/-!
Paths, and what is found at them. A path is kept in a plain form: without empty parts and without
parts that are a single point. What is found is the bytes of a file, or the reason why there are
none to read.
-/
namespace KeywordSieve

open Text

/-- A path from the working directory, or from the root if it begins with slashes. -/
structure Path where
  root : Text
  parts : List Text
  deriving DecidableEq, Repr

namespace Path

/-- Two slashes in front have a meaning of their own; more of them have that of one. -/
def ofText (t : Text) : Path :=
  { root := match (t.takeWhile (· = '/')).length with
      | 0 => []
      | 2 => "//"
      | _ => "/"
    parts := (pieces '/' t).filter fun part => part ≠ [] ∧ part ≠ ['.'] }

def text (p : Path) : Text :=
  match p.root ++ joinWith "/" p.parts with
  | [] => "."
  | t => t

end Path

inductive Refusal where
  | absent | notDirectory | isDirectory | denied | nameTooLong
  | other (code : Nat) (reason : Text)
  deriving DecidableEq, Repr

namespace Refusal

def code : Refusal → Nat
  | absent => 2
  | denied => 13
  | notDirectory => 20
  | isDirectory => 21
  | nameTooLong => 36
  | other n _ => n

def reason : Refusal → Text
  | absent => "No such file or directory"
  | denied => "Permission denied"
  | notDirectory => "Not a directory"
  | isDirectory => "Is a directory"
  | nameTooLong => "File name too long"
  | other _ t => t

def message (path : Path) (r : Refusal) : Text :=
  "[Errno " ++ ofNat r.code ++ "] " ++ r.reason ++ ": " ++ quoted path.text

end Refusal

abbrev Opened := Except Refusal (List UInt8)

/-- `look` finds whether there is anything at a path, and `content` opens it. -/
structure Files where
  look : Path → Except Refusal Unit
  content : Path → Opened

namespace Files

/-- Codes that tell that there is nothing: no such name, nothing that is open, something else than a
directory on the way, links that lead in a circle. -/
def absentCodes : List Nat := [2, 9, 20, 40]

/-- Whether there is something at a path, if only a directory. That cannot be told if looking is
refused. No file has a null character in its name. -/
def find (files : Files) (path : Path) : Except Refusal Bool :=
  if '\x00' ∈ path.text then .ok false
  else match files.look path with
    | .ok () => .ok true
    | .error r => if absentCodes.contains r.code then .ok false else .error r

end Files

end KeywordSieve
