import Mathlib.Tactic.SplitIfs
import KeywordSieve.Document

/-!
Files that are not UTF-8. Reading makes no more characters than there are bytes, so a file of fewer
bytes than two pages have characters shows nothing to the reader of documents, and what ends there is
the fault of its bytes.
-/
namespace KeywordSieve

open Text

namespace Utf8

variable {t : Text} {held : List UInt8}

theorem begin?_bytes {b : UInt8} {p : Pending} (h : begin? b = some p) : p.bytes = [b] := by
  unfold begin? at h
  dsimp only at h
  split_ifs at h <;> cases h <;> rfl

/-- A character in front of what is decoded is taken off again. -/
theorem decodeFrom_cons {c : Char} {r : Except Fault (Text × List UInt8)}
    (h : (fun (t, held) => (c :: t, held)) <$> r = .ok (t, held)) :
    ∃ rest, t = c :: rest ∧ r = .ok (rest, held) := by
  cases r with
  | error fault => cases h
  | ok read =>
    cases h
    exact ⟨_, rfl, rfl⟩

/-- Every character of a text, and every byte held back, has a byte of its own. -/
theorem decodeFrom_length {position : Nat} {p : Option Pending} {bytes : List UInt8}
    (h : decodeFrom position p bytes = .ok (t, held)) :
    t.length + held.length ≤ (p.elim 0 fun p => p.bytes.length) + bytes.length := by
  fun_induction decodeFrom position p bytes generalizing t held with
  | case1 =>
    cases h
    simp
  | case2 p =>
    cases h
    simp
  | case3 position b rest hb ih =>
    obtain ⟨t, rfl, hd⟩ := decodeFrom_cons h
    have hi := ih hd
    simp at hi ⊢
    omega
  | case4 position b rest hb p hp ih =>
    have hi := ih h
    simp only [Option.elim, begin?_bytes hp, List.length_cons, List.length_nil] at hi ⊢
    omega
  | case5 => cases h
  | case6 position p b rest hr hs =>
    cases h
    simp
  | case7 => cases h
  | case8 position p b rest hr hm ih =>
    obtain ⟨t, rfl, hd⟩ := decodeFrom_cons h
    have hi := ih hd
    simp at hi ⊢
    omega
  | case9 position p b rest hr hm ih =>
    have hi := ih h
    simp [Pending.extend] at hi ⊢
    omega

end Utf8

theorem Text.length_unifyLines_le (t : Text) : (unifyLines t).length ≤ t.length := by
  fun_induction unifyLines t with
  | case1 rest ih =>
    simp only [List.length_cons]
    omega
  | case4 => simp
  | _ =>
    simp only [List.length_cons]
    omega

namespace Pages

variable {s : Source}

/-- What a piece makes of a text, and of a carriage return that waits, is no longer than they are. -/
theorem length_lines_le (carriage : Bool) (t : Text) :
    let whole := if carriage && !t.isEmpty then '\r' :: t else t
    let ends := whole.getLast? == some '\r'
    (unifyLines (if ends then whole.dropLast else whole)).length +
      (ends || (carriage && t.isEmpty)).toNat ≤ t.length + carriage.toNat := by
  intro whole ends
  have hw : whole.length + (carriage && t.isEmpty).toNat = t.length + carriage.toNat := by
    cases carriage <;> cases t <;> simp [whole]
  have hl := length_unifyLines_le (if ends then whole.dropLast else whole)
  cases he : ends with
  | false =>
    rw [he, if_neg (by decide)] at hl
    simp only [Bool.false_or, Bool.false_eq_true, if_false]
    omega
  | true =>
    have hne : whole ≠ [] := by
      intro hn
      simp [ends, hn] at he
    have hpos := List.length_pos_iff.2 hne
    rw [he, if_pos rfl, List.length_dropLast] at hl
    simp only [if_true, Bool.true_or, Bool.toNat_true]
    omega

theorem Source.length_behind {t : Text} {held : List UInt8} (h : s.piece = .ok (t, held)) :
    (s.behind t held).ready.length + (s.behind t held).carriage.toNat +
        (s.behind t held).held.length + (s.behind t held).bytes.length ≤
      s.ready.length + s.carriage.toNat + s.held.length + s.bytes.length := by
  have hd := Utf8.decodeFrom_length h
  have hl := length_lines_le s.carriage t
  have hb : (s.bytes.take s.pieceSize).length + (s.bytes.drop s.pieceSize).length =
      s.bytes.length := by
    rw [← List.length_append, List.take_append_drop]
  simp only [Option.elim, List.length_append] at hd
  simp only [behind, List.length_append]
  omega

/-- All pages together have no more characters than there are bytes. -/
theorem Source.length_pages_le (s : Source) :
    s.pages.1.length * pageLength ≤
      s.ready.length + s.carriage.toNat + s.held.length + s.bytes.length := by
  fun_induction Source.pages s with
  | case1 s hp others fault he ih =>
    rw [he] at ih
    simp only [List.length_cons, List.length_drop, Nat.add_mul] at ih ⊢
    omega
  | case2 => simp
  | case3 => simp
  | case4 s hp hb t held he ih => exact Nat.le_trans ih (length_behind he)

/-- Of a file of so few bytes no page is shown. -/
theorem readable_of_short {bytes : List UInt8} (h : bytes.length < 2 * pageLength) :
    (readable bytes).1 = [] := by
  have hl := Source.length_pages_le { bytes }
  simp only [List.length_nil, Bool.toNat_false, pageLength] at hl h
  rw [readable]
  dsimp only
  rw [if_pos (by omega)]

end Pages

/-- Bytes that are not UTF-8 end the program, if they are too few to be read in part. -/
theorem Document.ofBytes_of_short {deepest : Nat} (hp : 0 < deepest) {bytes : List UInt8}
    (hd : Utf8.decode? bytes = none) (h : bytes.length < 2 * Pages.pageLength) :
    ofBytes deepest bytes = .error (.fatal (.undecodable (Pages.readable bytes).2)) := by
  rw [ofBytes, hd]
  dsimp only
  rw [Pages.readable_of_short h]
  match deepest, hp with
  | 1, _ => rfl
  | inner + 2, _ => rfl

end KeywordSieve
