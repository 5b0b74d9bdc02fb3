/-!
Tables of Unicode properties. A property is a list of inclusive ranges of code points; a case
mapping is a list of shifts, each of which moves every `step`-th code point of a range by the
same distance.
-/
namespace KeywordSieve.Unicode

def inRanges (ranges : List (Nat × Nat)) (c : Char) : Bool :=
  ranges.any fun r => r.1 ≤ c.toNat && c.toNat ≤ r.2

theorem inRanges_eq_true {ranges : List (Nat × Nat)} {c : Char} :
    inRanges ranges c = true ↔ ∃ r ∈ ranges, r.1 ≤ c.toNat ∧ c.toNat ≤ r.2 := by
  simp [inRanges]

/-- Sends `first, first + step, …, last` to `target, target + step, …`. -/
structure Shift where
  first : Nat
  last : Nat
  step : Nat
  target : Nat
  deriving DecidableEq, Repr

namespace Shift

def applies (s : Shift) (n : Nat) : Bool :=
  s.first ≤ n && n ≤ s.last && (n - s.first) % s.step == 0

def image (s : Shift) (n : Nat) : Nat := s.target + (n - s.first)

end Shift

/-- The image of a code point under the first shift that applies, or the code point itself. -/
def shiftBy (shifts : List Shift) (n : Nat) : Nat :=
  match shifts.find? (Shift.applies · n) with
  | some s => s.image n
  | none => n

end KeywordSieve.Unicode
