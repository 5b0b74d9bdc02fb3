import KeywordSieve.Proofs.Constructs

/-!
The one way to read a group. The body of a group is made of parts: quoted runs, quotes without a
partner in the rest of the query, and other characters. What stands at a place decides which part
can be taken there, and a closing parenthesis belongs to a part only within a run. So of all ways to
read a group at a place of a query there is one at most. It is the one that is found by taking parts
for as long as there are any, and it ends at the first closing parenthesis outside of runs.
-/
namespace KeywordSieve.Query.Override

open Text Term Unicode

variable {t after : Text}

inductive Part where
  | run (quote : Char) (inner : Text)
  | lone (quote : Char)
  | other (c : Char)
  deriving DecidableEq, Repr

namespace Part

variable {part : Part}

def source : Part → Text
  | run q inner => q :: inner ++ [q]
  | lone q => [q]
  | other c => [c]

/-- The part can be taken where `after` is the rest of the query behind it. -/
def Fits (after : Text) : Part → Prop
  | run q inner => isQuote q = true ∧ q ∉ inner
  | lone q => isQuote q = true ∧ q ∉ after
  | other c => isQuote c = false ∧ c ≠ ')'

/-- The part at the head of a text, and what follows it: a quote takes all up to its partner if it
has one. -/
def next? : Text → Option (Part × Text)
  | [] => none
  | c :: rest =>
    if isQuote c then
      if c ∈ rest then some (run c (rest.takeWhile (· ≠ c)), (rest.dropWhile (· ≠ c)).drop 1)
      else some (lone c, rest)
    else if c = ')' then none
    else some (other c, rest)

/-- A part that is read can be taken there. -/
theorem next?_sound (h : next? t = some (part, after)) :
    part.Fits after ∧ t = part.source ++ after := by
  cases t with
  | nil => cases h
  | cons c rest =>
    simp only [next?] at h
    split at h
    · next hq =>
      by_cases hm : c ∈ rest
      · obtain ⟨inner, more, rfl, hi⟩ := List.eq_append_cons_of_mem hm
        rw [if_pos hm, takeWhile_ne_append hi, dropWhile_ne_append hi] at h
        cases h
        exact ⟨⟨hq, hi⟩, by simp [source]⟩
      · rw [if_neg hm] at h
        cases h
        exact ⟨⟨hq, hm⟩, rfl⟩
    · next hq =>
      split at h
      · cases h
      · next hc =>
        cases h
        exact ⟨⟨Bool.eq_false_iff.2 hq, hc⟩, rfl⟩

/-- Where a part can be taken, no other one is read. -/
theorem next?_complete (h : part.Fits after) : next? (part.source ++ after) = some (part, after) := by
  cases part with
  | run q inner =>
    obtain ⟨hq, hi⟩ := h
    have hs : (run q inner).source ++ after = q :: (inner ++ q :: after) := by simp [source]
    rw [hs, next?, if_pos hq, if_pos (by simp), takeWhile_ne_append hi, dropWhile_ne_append hi]
    rfl
  | lone q => simp [source, next?, h.1, h.2]
  | other c => simp [source, next?, h.1, h.2]

/-- No two parts can be taken at one place. -/
theorem next?_iff : next? t = some (part, after) ↔ part.Fits after ∧ t = part.source ++ after := by
  constructor
  · exact next?_sound
  · rintro ⟨h, rfl⟩
    exact next?_complete h

theorem source_ne_nil (part : Part) : part.source ≠ [] := by
  cases part <;> simp [source]

theorem next?_length (h : next? t = some (part, after)) : after.length < t.length := by
  obtain ⟨-, rfl⟩ := next?_iff.1 h
  have hpos := List.length_pos_iff.2 part.source_ne_nil
  rw [List.length_append]
  omega

/-- There is no part only at the end of the query and at a closing parenthesis. -/
theorem next?_eq_none : next? t = none ↔ t = [] ∨ ∃ after, t = ')' :: after := by
  cases t with
  | nil => simp [next?]
  | cons c rest =>
    by_cases hq : isQuote c = true
    · have hc := ne_close_of_isQuote hq
      by_cases hm : c ∈ rest <;> simp [next?, hq, hm, hc]
    · simp [next?, hq]

end Part

open Override.Part

def sources (parts : List Part) : Text := parts.flatMap source

/-- The parts can be taken one after the other, with `after` behind the last one. -/
def FitAll (after : Text) : List Part → Prop
  | [] => True
  | part :: rest => part.Fits (sources rest ++ after) ∧ FitAll after rest

/-- The parts that are taken off a text for as long as there is one, and what is left. -/
def scan (t : Text) : List Part × Text :=
  match _ : next? t with
  | some (part, after) => (part :: (scan after).1, (scan after).2)
  | none => ([], t)
termination_by t.length
decreasing_by all_goals exact next?_length ‹_›

theorem scan_of_none (h : next? t = none) : scan t = ([], t) := by
  rw [scan]
  split
  · next hs =>
    rw [h] at hs
    cases hs
  · rfl

theorem scan_of_some {part : Part} (h : next? t = some (part, after)) :
    scan t = (part :: (scan after).1, (scan after).2) := by
  rw [scan]
  split
  · next hs =>
    rw [h] at hs
    cases hs
    rfl
  · next hs =>
    rw [h] at hs
    cases hs

/-- A scan takes all parts that fit in front of a closing parenthesis, and stops there. -/
theorem scan_complete {parts : List Part} (h : FitAll (')' :: after) parts) :
    scan (sources parts ++ ')' :: after) = (parts, ')' :: after) := by
  induction parts with
  | nil => exact scan_of_none (next?_eq_none.2 (Or.inr ⟨after, rfl⟩))
  | cons part rest ih =>
    have hs : sources (part :: rest) ++ ')' :: after =
        part.source ++ (sources rest ++ ')' :: after) := by simp [sources]
    rw [hs, scan_of_some (next?_iff.2 ⟨h.1, rfl⟩), ih h.2]

/-- What a scan takes fits, and nothing is lost. -/
theorem scan_sound (t : Text) : FitAll (scan t).2 (scan t).1 ∧ t = sources (scan t).1 ++ (scan t).2 := by
  induction hn : t.length using Nat.strongRecOn generalizing t with
  | ind n ih =>
    cases hp : next? t with
    | none =>
      rw [scan_of_none hp]
      exact ⟨trivial, rfl⟩
    | some found =>
      obtain ⟨part, after⟩ := found
      obtain ⟨hfit, rfl⟩ := next?_iff.1 hp
      obtain ⟨hall, hs⟩ := ih after.length (hn ▸ next?_length hp) after rfl
      rw [scan_of_some hp]
      refine ⟨⟨hs ▸ hfit, hall⟩, ?_⟩
      rw [sources, List.flatMap_cons, ← sources, List.append_assoc, ← hs]

/-- A body is what can be taken part by part. -/
theorem isBody_iff {body : Text} :
    IsBody after body ↔ ∃ parts, FitAll after parts ∧ body = sources parts := by
  constructor
  · intro h
    induction h with
    | nil => exact ⟨[], trivial, rfl⟩
    | @run q inner rest hq hi _ ih =>
      obtain ⟨parts, hp, rfl⟩ := ih
      exact ⟨.run q inner :: parts, ⟨⟨hq, hi⟩, hp⟩, by simp [sources, source]⟩
    | @lone q rest hq hn _ ih =>
      obtain ⟨parts, hp, rfl⟩ := ih
      exact ⟨.lone q :: parts, ⟨⟨hq, hn⟩, hp⟩, by simp [sources, source]⟩
    | @other c rest hq hc _ ih =>
      obtain ⟨parts, hp, rfl⟩ := ih
      exact ⟨.other c :: parts, ⟨⟨hq, hc⟩, hp⟩, by simp [sources, source]⟩
  · rintro ⟨parts, hp, rfl⟩
    induction parts with
    | nil => exact .nil
    | cons part rest ih =>
      have hr := ih hp.2
      have hfit := hp.1
      cases part with
      | run q inner => simpa [sources, source] using IsBody.run hfit.1 hfit.2 hr
      | lone q => exact .lone hfit.1 hfit.2 hr
      | other c => exact .other hfit.1 hfit.2 hr

/-- How a group can be read: its opening, the parts of its body, and what follows it. -/
structure Way where
  spelled : Text
  blanks : Text
  parts : List Part
  after : Text
  deriving DecidableEq, Repr

namespace Way

def opening (w : Way) : Text := w.spelled ++ w.blanks ++ ['(']

def body (w : Way) : Text := sources w.parts

end Way

structure IsWay (t : Text) (w : Way) : Prop where
  spelled : Spells w.spelled word
  blanks : ∀ c ∈ w.blanks, isBlank c = true
  parts : FitAll (')' :: w.after) w.parts
  source : t = w.opening ++ (w.body ++ ')' :: w.after)

/-- The way that takes every part it meets; it ends well only at a closing parenthesis. -/
def greedy? (t : Text) : Option Way :=
  match opening? t with
  | none => none
  | some inside =>
    match scan inside with
    | (parts, ')' :: after) =>
      some {
        spelled := t.take word.length
        blanks := (t.drop word.length).takeWhile isBlank
        parts
        after }
    | _ => none

variable {w : Way}

theorem IsWay.opening (h : IsWay t w) : IsOpening w.opening :=
  ⟨w.spelled, w.blanks, h.spelled, h.blanks, rfl⟩

theorem IsWay.greedy (h : IsWay t w) : greedy? t = some w := by
  have hlen : w.spelled.length = word.length := h.spelled.length_eq
  have ht : t = w.spelled ++ (w.blanks ++ '(' :: (w.body ++ ')' :: w.after)) := by
    rw [h.source, Way.opening, List.append_assoc, List.append_assoc, List.singleton_append]
  have htake : t.take word.length = w.spelled := by rw [ht, List.take_left' hlen]
  have hdrop : (t.drop word.length).takeWhile isBlank = w.blanks := by
    rw [ht, List.drop_left' hlen, List.takeWhile_append_of_pos h.blanks]
    simp [show isBlank '(' = false by decide]
  rw [greedy?, opening?_iff.2 ⟨w.opening, h.opening, h.source⟩]
  simp only [Way.body, scan_complete h.parts, htake, hdrop]

theorem isWay_of_greedy (h : greedy? t = some w) : IsWay t w := by
  unfold greedy? at h
  split at h
  · cases h
  · next inside hi =>
    split at h
    · next parts after hs =>
      cases h
      obtain ⟨opening, ⟨spelled, blanks, hsp, hb, rfl⟩, rfl⟩ := opening?_iff.1 hi
      obtain ⟨hfit, hin⟩ := scan_sound inside
      rw [hs] at hfit hin
      -- the word and the white space of the opening are what is cut off in front
      have hway : IsWay (spelled ++ blanks ++ ['('] ++ inside) ⟨spelled, blanks, parts, after⟩ :=
        ⟨hsp, hb, hfit, by rw [hin]; rfl⟩
      have hg := hway.greedy
      rw [greedy?, hi] at hg
      simp only [hs] at hg
      rwa [Option.some.inj hg]
    · cases h

def runAt (run : Option Char) : Text → Nat → Option Char
  | c :: rest, i + 1 => runAt (runAfter run c rest) rest i
  | _, _ => run

/-- A closing parenthesis outside of quoted runs stands at the place, and none in front of it. -/
structure ClosesAt (run : Option Char) (t : Text) (i : Nat) : Prop where
  paren : t[i]? = some ')'
  outside : runAt run t i = none
  first : ∀ j < i, t[j]? = some ')' → runAt run t j ≠ none

/-- The body of a group ends at the first closing parenthesis outside of runs. -/
theorem closesAt_of_close? {run : Option Char} {body : Text}
    (h : close? run t = some (body, after)) :
    ClosesAt run t body.length := by
  induction t generalizing run body with
  | nil => cases h
  | cons c rest ih =>
    rw [close?] at h
    split at h
    · next hc =>
      cases h
      exact ⟨by simp [hc.2], hc.1, by simp⟩
    · next hc =>
      obtain ⟨⟨b, a⟩, hb, he⟩ := Option.map_eq_some_iff.1 h
      cases he
      have hr := ih hb
      refine ⟨hr.paren, hr.outside, ?_⟩
      intro j hj hp hn
      cases j with
      | zero => exact hc ⟨hn, by simpa using hp⟩
      | succ j => exact hr.first j (Nat.lt_of_succ_lt_succ hj) hp hn

/-- A group is made a token exactly if there is a way to read it. -/
theorem override?_iff_isWay {token : Token} : Token.override? t = some (token, after) ↔
    ∃ w, IsWay t w ∧ token = .override w.opening w.body ∧ after = w.after := by
  rw [Token.override?_iff]
  constructor
  · rintro ⟨opening, body, ⟨spelled, blanks, hs, hb, rfl⟩, hbody, rfl, rfl⟩
    obtain ⟨parts, hp, rfl⟩ := isBody_iff.1 hbody
    exact ⟨⟨spelled, blanks, parts, after⟩, ⟨hs, hb, hp, List.append_assoc _ _ _⟩, rfl, rfl⟩
  · rintro ⟨w, hw, rfl, rfl⟩
    refine ⟨w.opening, w.body, hw.opening, isBody_iff.2 ⟨w.parts, hw.parts, rfl⟩, rfl, ?_⟩
    rw [hw.source, List.append_assoc]

theorem override?_eq_map (t : Text) : Token.override? t =
    (greedy? t).map fun w => (.override w.opening w.body, w.after) := by
  refine Option.ext fun ⟨token, after⟩ => ?_
  rw [override?_iff_isWay, Option.map_eq_some_iff]
  constructor
  · rintro ⟨w, hw, rfl, rfl⟩
    exact ⟨w, hw.greedy, rfl⟩
  · rintro ⟨w, hg, he⟩
    cases he
    exact ⟨w, isWay_of_greedy hg, rfl, rfl⟩

/-- At a place of a query, a group can be read in the way that takes every part it meets, and in no
other. That way makes the token, and what it leaves begins behind the first closing parenthesis
outside of quoted runs. -/
theorem isWay_iff_greedy (raw : Text) (p : Nat) :
    (∀ w, IsWay (raw.drop p) w ↔ greedy? (raw.drop p) = some w) ∧
      Token.override? (raw.drop p) =
        ((greedy? (raw.drop p)).map fun w => (.override w.opening w.body, w.after)) ∧
      ∀ w, IsWay (raw.drop p) w → ClosesAt none (w.body ++ ')' :: w.after) w.body.length := by
  refine ⟨fun w => ⟨IsWay.greedy, isWay_of_greedy⟩, override?_eq_map _, ?_⟩
  intro w hw
  exact closesAt_of_close? (close?_complete (isBody_iff.2 ⟨w.parts, hw.parts, rfl⟩))

/-- A phrase, and a group with a parenthesis in a run and an apostrophe. -/
def apostrophe : Text := "-'x',EXCEPT (\"a)\",it's) c\""

/-- The only way to read its group leaves the last quote alone. -/
theorem isWay_apostrophe :
    IsWay (apostrophe.drop 5)
        { spelled := "EXCEPT"
          blanks := " "
          parts := [.run '"' "a)", .other ',', .other 'i', .other 't', .lone '\'', .other 's']
          after := " c\"" } ∧
      ClosesAt none "\"a)\",it's) c\"" 9 := by
  obtain ⟨hway, -, hcloses⟩ := isWay_iff_greedy apostrophe 5
  have hw := (hway _).2 (show greedy? (apostrophe.drop 5) = some
    { spelled := "EXCEPT"
      blanks := " "
      parts := [.run '"' "a)", .other ',', .other 'i', .other 't', .lone '\'', .other 's']
      after := " c\"" } by decide +kernel)
  exact ⟨hw, hcloses _ hw⟩

end KeywordSieve.Query.Override
