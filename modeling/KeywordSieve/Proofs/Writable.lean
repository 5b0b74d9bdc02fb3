import Mathlib.Algebra.Order.Group.Nat
import KeywordSieve.Json.Basic
import KeywordSieve.Proofs.Success

/-!
What of a value can be written out. An integer of too many digits has no text, wherever it lies, and
collections have one only as far as the stack goes. Both limits are read off the value here, so that
nothing else has to follow the order in which its parts are written.
-/
namespace KeywordSieve.Value

theorem hasMoreDigits_iff (count n : Nat) : hasMoreDigits count n = true ↔ 10 ^ count ≤ n := by
  induction count generalizing n with
  | zero => rw [hasMoreDigits, decide_eq_true_iff, Nat.pow_zero, Nat.succ_le_iff]
  | succ count ih =>
    rw [hasMoreDigits, Bool.and_eq_true, decide_eq_true_iff, ih,
      Nat.le_div_iff_mul_le (by decide), ← Nat.pow_succ, and_iff_right_iff_imp]
    exact Nat.le_trans (Nat.le_self_pow (Nat.succ_ne_zero count) 10)

theorem isTooLong_iff (n : Int) : isTooLong n = true ↔ 10 ^ mostDigits ≤ n.natAbs :=
  hasMoreDigits_iff mostDigits n.natAbs

theorem isTooLong_natCast {n : Nat} (h : n < 10 ^ mostDigits) : isTooLong n = false := by
  rw [← Bool.not_eq_true, isTooLong_iff, Int.natAbs_natCast]
  exact Nat.not_le.2 h

def overlong : Int := (10 ^ mostDigits : Nat)

def nested : Nat → Value
  | 0 => list []
  | depth + 1 => list [nested depth]

variable {v : Value} {vs : List Value} {entries : List (Value × Value)} {room : Nat}
  {why : WriteFault}

mutual

/-- How many values lie inside each other where a value is shown. -/
def levels : Value → Nat
  | dateTime d => zoneLevels d
  | list vs => levelsOfAll vs
  | tuple vs => levelsOfAll vs
  | mapping entries => levelsOfEntries entries
  | _ => 0

def levelsOfAll : List Value → Nat
  | [] => 0
  | v :: rest => max (levels v + 1) (levelsOfAll rest)

def levelsOfEntries : List (Value × Value) → Nat
  | [] => 0
  | (k, v) :: rest => max (max (levels k) (levels v) + 1) (levelsOfEntries rest)

end

mutual

/-- By induction on the value: it is shown if no integer is too long and the levels fit into the
room. -/
theorem refusal?_eq_none (v : Value) (room : Nat) :
    refusal? room v = none ↔ v.isWritable = true ∧ v.levels ≤ room := by
  cases v with
  | int n => simp [refusal?, isWritable, levels]
  | dateTime d => simp [refusal?, isWritable, levels]
  | list vs => exact refusalOfAll_eq_none vs room
  | tuple vs => exact refusalOfAll_eq_none vs room
  | mapping entries => exact refusalOfEntries_eq_none entries room
  | _ => simp [refusal?, isWritable, levels]

theorem refusalOfAll_eq_none (vs : List Value) (room : Nat) :
    refusalOfAll room vs = none ↔ allWritable vs = true ∧ levelsOfAll vs ≤ room := by
  cases vs with
  | nil => simp [refusalOfAll, allWritable, levelsOfAll]
  | cons v rest =>
    cases room with
    | zero => simp [refusalOfAll, levelsOfAll]
    | succ inner =>
      rw [refusalOfAll, Option.or_eq_none_iff, refusal?_eq_none v inner,
        refusalOfAll_eq_none rest (inner + 1), allWritable, levelsOfAll, Bool.and_eq_true,
        max_le_iff, Nat.add_le_add_iff_right]
      exact and_and_and_comm

theorem refusalOfEntries_eq_none (entries : List (Value × Value)) (room : Nat) :
    refusalOfEntries room entries = none ↔
      entriesWritable entries = true ∧ levelsOfEntries entries ≤ room := by
  cases entries with
  | nil => simp [refusalOfEntries, entriesWritable, levelsOfEntries]
  | cons e rest =>
    obtain ⟨k, v⟩ := e
    cases room with
    | zero => simp [refusalOfEntries, levelsOfEntries]
    | succ inner =>
      rw [refusalOfEntries, Option.or_eq_none_iff, Option.or_eq_none_iff,
        refusal?_eq_none k inner, refusal?_eq_none v inner,
        refusalOfEntries_eq_none rest (inner + 1), entriesWritable, levelsOfEntries,
        Bool.and_eq_true, Bool.and_eq_true, max_le_iff, Nat.add_le_add_iff_right, max_le_iff]
      constructor
      · rintro ⟨⟨hk, hkl⟩, ⟨hv, hvl⟩, hr, hrl⟩
        exact ⟨⟨⟨hk, hv⟩, hr⟩, ⟨hkl, hvl⟩, hrl⟩
      · rintro ⟨⟨⟨hk, hv⟩, hr⟩, ⟨hkl, hvl⟩, hrl⟩
        exact ⟨⟨hk, hkl⟩, ⟨hv, hvl⟩, hr, hrl⟩

end

/-- What is too much for a value to be shown. -/
def Exceeds (room : Nat) (v : Value) : WriteFault → Prop
  | .digits => v.isWritable = false
  | .depth => room < v.levels

theorem forall_not_exceeds :
    (∀ why, ¬ v.Exceeds room why) ↔ v.isWritable = true ∧ v.levels ≤ room := by
  constructor
  · intro h
    exact ⟨Bool.of_not_eq_false (h .digits), Nat.not_lt.1 (h .depth)⟩
  · rintro ⟨hw, hl⟩ (_ | _) he
    · exact Bool.eq_false_iff.1 he hw
    · exact Nat.not_lt.2 hl he

theorem exceeds_tuple : (tuple vs).Exceeds room why ↔ (list vs).Exceeds room why := by
  cases why <;> rfl

theorem Exceeds.list_head (h : v.Exceeds room why) : (list (v :: vs)).Exceeds (room + 1) why := by
  cases why with
  | digits => exact Bool.and_eq_false_imp.2 fun hv => absurd hv (Bool.eq_false_iff.1 h)
  | depth => exact lt_max_of_lt_left (Nat.succ_lt_succ h)

theorem Exceeds.list_tail (h : (list vs).Exceeds room why) : (list (v :: vs)).Exceeds room why := by
  cases why with
  | digits => exact Bool.and_eq_false_imp.2 fun _ => h
  | depth => exact lt_max_of_lt_right h

theorem Exceeds.mapping_key {k : Value} (h : k.Exceeds room why) :
    (mapping ((k, v) :: entries)).Exceeds (room + 1) why := by
  cases why with
  | digits =>
    have hk : k.isWritable = false := h
    simp [Exceeds, isWritable, entriesWritable, hk]
  | depth => exact lt_max_of_lt_left (Nat.succ_lt_succ (lt_max_of_lt_left h))

theorem Exceeds.mapping_head {k : Value} (h : v.Exceeds room why) :
    (mapping ((k, v) :: entries)).Exceeds (room + 1) why := by
  cases why with
  | digits =>
    have hv : v.isWritable = false := h
    simp [Exceeds, isWritable, entriesWritable, hv]
  | depth => exact lt_max_of_lt_left (Nat.succ_lt_succ (lt_max_of_lt_right h))

theorem Exceeds.mapping_tail {e : Value × Value} (h : (mapping entries).Exceeds room why) :
    (mapping (e :: entries)).Exceeds room why := by
  cases why with
  | digits => exact Bool.and_eq_false_imp.2 fun _ => h
  | depth => exact lt_max_of_lt_right h

mutual

/-- What keeps a value from being shown lies in it somewhere. -/
theorem exceeds_of_refusal? (v : Value) (room : Nat) (h : refusal? room v = some why) :
    v.Exceeds room why := by
  cases v with
  | int n =>
    rw [refusal?] at h
    split at h
    · next hn =>
      cases h
      exact congrArg not hn
    · cases h
  | dateTime d =>
    rw [refusal?] at h
    split at h
    · next hd =>
      cases h
      exact hd
    · cases h
  | list vs => exact exceeds_of_refusalOfAll vs room h
  | tuple vs => exact exceeds_tuple.2 (exceeds_of_refusalOfAll vs room h)
  | mapping entries => exact exceeds_of_refusalOfEntries entries room h
  | _ => cases h

theorem exceeds_of_refusalOfAll (vs : List Value) (room : Nat)
    (h : refusalOfAll room vs = some why) : (list vs).Exceeds room why := by
  cases vs with
  | nil => cases h
  | cons v rest =>
    cases room with
    | zero =>
      cases h
      exact lt_max_of_lt_left (Nat.succ_pos _)
    | succ inner =>
      obtain h | ⟨-, h⟩ := Option.or_eq_some_iff.1 h
      · exact (exceeds_of_refusal? v inner h).list_head
      · exact (exceeds_of_refusalOfAll rest (inner + 1) h).list_tail

theorem exceeds_of_refusalOfEntries (entries : List (Value × Value)) (room : Nat)
    (h : refusalOfEntries room entries = some why) : (mapping entries).Exceeds room why := by
  cases entries with
  | nil => cases h
  | cons e rest =>
    obtain ⟨k, v⟩ := e
    cases room with
    | zero =>
      cases h
      exact lt_max_of_lt_left (Nat.succ_pos _)
    | succ inner =>
      obtain h | ⟨-, h⟩ := Option.or_eq_some_iff.1 h
      · exact (exceeds_of_refusal? k inner h).mapping_key
      obtain h | ⟨-, h⟩ := Option.or_eq_some_iff.1 h
      · exact (exceeds_of_refusal? v inner h).mapping_head
      · exact (exceeds_of_refusalOfEntries rest (inner + 1) h).mapping_tail

end

/-- Dates and times that stand on their own are written without being shown. -/
def displayLevels : Value → Nat
  | dateTime _ => 0
  | v => v.levels

/-- A value that can be written as text where there is some room. -/
def IsDisplayable (room : Nat) (v : Value) : Prop :=
  v.isWritable = true ∧ v.displayLevels ≤ room

instance (room : Nat) (v : Value) : Decidable (v.IsDisplayable room) :=
  inferInstanceAs (Decidable (_ ∧ _))

theorem displayRefusal?_eq_none (v : Value) (room : Nat) :
    displayRefusal? room v = none ↔ v.IsDisplayable room := by
  cases v with
  | text t => exact iff_of_true rfl ⟨rfl, Nat.zero_le room⟩
  | date d => exact iff_of_true rfl ⟨rfl, Nat.zero_le room⟩
  | dateTime d => exact iff_of_true rfl ⟨rfl, Nat.zero_le room⟩
  | _ => exact refusal?_eq_none _ room

end KeywordSieve.Value
