import KeywordSieve.Log.Session

/-!
What the steps of a session do with its context. A push and an entered scope each hold a token,
and no two of them hold the same one.
-/
namespace KeywordSieve.Log

open Text

namespace Context

variable {c : Context} {cell : Cell} {token : Token} {fields : Fields}

/-- Making a cell leaves the others as they are. -/
theorem content_make_of_lt (fs : Fields) (h : cell < c.cells.length) :
    (c.make fs).content cell = c.content cell := by
  rw [content, content, make, List.getD_eq_getElem?_getD, List.getElem?_append_left h,
    ← List.getD_eq_getElem?_getD]

theorem content_make_new (c : Context) (fs : Fields) :
    (c.make fs).content c.cells.length = fs := by
  rw [content, make, List.getD_eq_getElem?_getD, List.getElem?_concat_length, Option.getD_some]

/-- Changing a cell leaves the others as they are. -/
theorem content_change_of_ne (added : Fields) (c : Context) {other : Cell} (h : other ≠ cell) :
    (c.change other added).content cell = c.content cell := by
  show (c.cells.modify other (·.setAll added)).getD cell [] = c.cells.getD cell []
  rw [List.getD_eq_getElem?_getD, List.getElem?_modify_ne _ _ h, ← List.getD_eq_getElem?_getD]

/-- What a context has to bring back depends on the cells of its marks only. -/
theorem map_content_congr {c' : Context}
    (h : ∀ cell < c.cells.length, c'.content cell = c.content cell) :
    c.marks.map (Option.map c'.content) = c.saved := by
  apply List.map_congr_left
  intro mark hm
  cases mark with
  | none => rfl
  | some cell => exact congrArg some (h cell (c.marks_lt cell hm))

@[simp] theorem saved_make (c : Context) (fs : Fields) : (c.make fs).saved = c.saved :=
  map_content_congr fun _ h => content_make_of_lt fs h

@[simp] theorem saved_enforce (c : Context) (fs : Fields) : (c.enforce fs).saved = c.saved :=
  c.saved_make fs

@[simp] theorem push_token (c : Context) (added : Fields) :
    (c.push added).1 = c.saved.length := by
  rw [push, saved, List.length_map]

@[simp] theorem fields_push (c : Context) (added : Fields) :
    (c.push added).2.fields = c.fields.setAll added := content_make_new c _

@[simp] theorem saved_push (c : Context) (added : Fields) :
    (c.push added).2.saved = c.saved ++ [some c.fields] := by
  have hold : c.marks.map (Option.map (c.push added).2.content) = c.saved :=
    map_content_congr fun _ h => content_make_of_lt _ h
  have hcurrent : (c.push added).2.content c.current = c.fields :=
    content_make_of_lt _ c.current_lt
  refine List.map_append.trans ?_
  rw [hold, List.map_singleton, Option.map_some, hcurrent]

/-- The cell that is given out is none of those that the context needs. -/
theorem content_scramble (added : Fields) (h : cell < c.cells.length) :
    (c.scramble added).content cell = c.content cell := by
  rw [scramble, content_change_of_ne added _ (Nat.ne_of_gt h), content_make_of_lt _ h]

@[simp] theorem fields_scramble (c : Context) (added : Fields) :
    (c.scramble added).fields = c.fields := content_scramble added c.current_lt

@[simp] theorem saved_scramble (c : Context) (added : Fields) :
    (c.scramble added).saved = c.saved := map_content_congr fun _ h => content_scramble added h

/-- A token that has fields to bring back brings them back. -/
theorem pop?_of_saved (h : c.saved[token]? = some (some fields)) :
    ∃ c', c.pop? token = some c' ∧ c'.fields = fields ∧ c'.saved = c.saved.set token none := by
  rw [saved, List.getElem?_map, Option.map_eq_some_iff] at h
  obtain ⟨mark, hm, hs⟩ := h
  obtain ⟨cell, rfl, rfl⟩ := Option.map_eq_some_iff.1 hs
  rw [pop?]
  split
  · next other ho =>
    obtain rfl : other = cell := by simpa [hm] using ho.symm
    exact ⟨_, rfl, rfl, List.map_set⟩
  · next hn => exact absurd hm (hn cell)

theorem pop?_eq_none (h : ∀ fields, c.saved[token]? ≠ some (some fields)) :
    c.pop? token = none := by
  rw [pop?]
  split
  · next cell hc =>
    refine absurd ?_ (h (c.content cell))
    rw [saved, List.getElem?_map, hc]
    rfl
  · rfl

/-- Whether or not a token can still be used, it is used afterwards. -/
theorem saved_pop (token : Token) (c : Context) :
    ((c.pop? token).getD c).saved = c.saved.set token none := by
  cases hs : c.saved[token]? with
  | none =>
    rw [pop?_eq_none (by simp [hs]), Option.getD_none,
      List.set_eq_of_length_le (List.getElem?_eq_none_iff.1 hs)]
  | some saved =>
    cases saved with
    | some fields =>
      obtain ⟨c', hp, -, hc⟩ := pop?_of_saved hs
      rw [hp, Option.getD_some, hc]
    | none =>
      obtain ⟨hlt, he⟩ := List.getElem?_eq_some_iff.1 hs
      rw [pop?_eq_none (by simp [hs]), Option.getD_none, ← he, List.set_getElem_self]

end Context

/-- What can bring the context back: a push or a scope, by its number in the session. -/
inductive Point where
  | push (number : Nat)
  | scope (number : Nat)
  deriving DecidableEq

namespace Step

/-- The point whose token a step uses. -/
def used? : Step → Option Point
  | .pop number => some (.push number)
  | .leave number => some (.scope number)
  | _ => none

/-- The point that holds no token behind a step. -/
def freed? : Step → Option Point
  | .leave number => some (.scope number)
  | _ => none

def isPush : Step → Bool
  | .push _ => true
  | _ => false

/-- Whether a step is about something else than the context. -/
def isApart : Step → Bool
  | .configure _ | .scope _ | .scramble _ | .log _ | .evaluate _ _ => true
  | _ => false

theorem used?_of_freed? {step : Step} {p : Point} (h : step.freed? = some p) :
    step.used? = some p := by
  cases step with
  | leave number => exact h
  | _ => cases h

end Step

namespace Session

variable {m : Moment} {s s' : Session} {step : Step} {p q : Point} {t : Token} {fields : Fields}

/-- The session after some steps. -/
def after (m : Moment) (s : Session) (steps : List Step) : Session :=
  steps.foldl (fun s step => (s.step m step).1) s

theorem after_append (m : Moment) (s : Session) (steps more : List Step) :
    after m s (steps ++ more) = after m (after m s steps) more :=
  List.foldl_append

/-- What every step keeps holds after all of them. -/
theorem after_induct {P : Session → Prop} {steps : List Step} (h : P s)
    (hstep : ∀ s, P s → ∀ step ∈ steps, P (s.step m step).1) : P (after m s steps) :=
  List.foldlRecOn steps _ h hstep

/-- The point that a step makes. -/
def made? (s : Session) : Step → Option Point
  | .push _ => some (.push s.tokens.length)
  | .enter number => if number < s.scopes.length then some (.scope number) else none
  | _ => none

theorem made?_eq_some (h : s.made? step = some p) :
    (∃ added, step = .push added ∧ p = .push s.tokens.length) ∨
      ∃ k < s.scopes.length, step = .enter k ∧ p = .scope k := by
  cases step with
  | push added =>
    cases h
    exact Or.inl ⟨added, rfl, rfl⟩
  | enter k =>
    rw [made?] at h
    split at h
    · next hk =>
      cases h
      exact Or.inr ⟨k, hk, rfl, rfl⟩
    · cases h
  | _ => cases h

/-- The token that a point holds. A scope holds one while it is entered. -/
def token? (s : Session) : Point → Option Token
  | .push number => s.tokens[number]?
  | .scope number => (s.scopes[number]?).bind (·.token)

theorem getElem?_concat {α : Type} (as : List α) (a : α) (k : Nat) :
    (as ++ [a])[k]? = if k = as.length then some a else as[k]? := by
  rcases Nat.lt_trichotomy k as.length with hlt | rfl | hgt
  · rw [List.getElem?_append_left hlt, if_neg (Nat.ne_of_lt hlt)]
  · rw [List.getElem?_concat_length, if_pos rfl]
  · rw [if_neg (Nat.ne_of_gt hgt), List.getElem?_eq_none (Nat.le_of_lt hgt),
      List.getElem?_eq_none (by rw [List.length_append]; exact hgt)]

/-- A scope that is replaced changes the token of its own point only. -/
theorem token?_set {k : Nat} (hk : k < s.scopes.length) (scope : Scope) (context : Context)
    (p : Point) :
    token? { s with context, scopes := s.scopes.set k scope } p =
      if p = .scope k then scope.token else s.token? p := by
  cases p with
  | push number => rfl
  | scope number =>
    show ((s.scopes.set k scope)[number]?).bind _ = _
    by_cases hn : k = number
    · subst hn
      rw [List.getElem?_set_self hk, if_pos rfl]
      rfl
    · rw [List.getElem?_set_ne hn, if_neg (by simpa using Ne.symm hn)]
      rfl

/-- Entering and leaving replace a scope by one that adds the same. -/
theorem added_set {scopes : List Scope} {k number : Nat} {scope other new : Scope}
    (hk : scopes[k]? = some scope) (hn : scopes[number]? = some other)
    (hadded : new.added = other.added) :
    ∃ scope', (scopes.set number new)[k]? = some scope' ∧ scope'.added = scope.added := by
  by_cases h : number = k
  · subst h
    obtain ⟨hlt, -⟩ := List.getElem?_eq_some_iff.1 hk
    cases hk.symm.trans hn
    exact ⟨new, List.getElem?_set_self hlt, hadded⟩
  · exact ⟨scope, by rw [List.getElem?_set_ne h, hk], rfl⟩

/-- What a step can do with the context, the tokens and the scopes of a session. -/
inductive Move (s : Session) : Step → Session → Prop where
  | idle {step : Step} (makes : s.made? step = none) (uses : step.used?.bind s.token? = none) :
      Move s step s
  | configure (c : Configuration) (journal : Journal) : Move s (.configure c) { s with journal }
  | scope (added : Fields) : Move s (.scope added) { s with scopes := s.scopes ++ [{ added }] }
  | clear : Move s .clear { s with context := s.context.clear }
  | scramble (added : Fields) :
      Move s (.scramble added) { s with context := s.context.scramble added }
  | push (added : Fields) : Move s (.push added)
      { s with
        context := (s.context.push added).2
        tokens := s.tokens ++ [(s.context.push added).1] }
  | pop {number : Nat} {t : Token} (holds : s.tokens[number]? = some t) : Move s (.pop number)
      { s with context := (s.context.pop? t).getD s.context }
  | enter {number : Nat} {scope : Scope} (has : s.scopes[number]? = some scope) :
      Move s (.enter number)
        { s with
          context := (s.context.push scope.added).2
          scopes := s.scopes.set number
            { scope with token := some (s.context.push scope.added).1 } }
  | leave {number : Nat} {scope : Scope} {t : Token} (has : s.scopes[number]? = some scope)
      (holds : scope.token = some t) : Move s (.leave number)
        { s with
          context := (s.context.pop? t).getD s.context
          scopes := s.scopes.set number { scope with token := none } }

/-- The step function makes no other moves than those. -/
theorem move_step (m : Moment) (s : Session) (step : Step) :
    Move s step (s.step m step).1 := by
  cases step with
  | configure c =>
    rw [Session.step]
    split
    · next journal _ => exact .configure c journal
    · next journal _ => exact .configure c journal
  | push added => exact .push added
  | pop number =>
    cases hn : s.tokens[number]? with
    | none =>
      simp only [Session.step, hn]
      exact .idle rfl hn
    | some t =>
      have hm : Move s (.pop number) { s with context := (s.context.pop? t).getD s.context } :=
        .pop hn
      cases hp : s.context.pop? t with
      | none =>
        rw [hp, Option.getD_none] at hm
        simpa only [Session.step, hn, hp] using hm
      | some context =>
        rw [hp, Option.getD_some] at hm
        simpa only [Session.step, hn, hp] using hm
  | clear => exact .clear
  | scope added =>
    rw [Session.step, Scope.make]
    split
    · next hs =>
      split at hs
      · cases hs
      · cases hs
        exact .scope added
    · exact .idle rfl rfl
  | enter number =>
    cases hk : s.scopes[number]? with
    | none =>
      simp only [Session.step, hk]
      have hlen : ¬ number < s.scopes.length := Nat.not_lt.2 (List.getElem?_eq_none_iff.1 hk)
      exact .idle (if_neg hlen) rfl
    | some scope =>
      simp only [Session.step, hk]
      exact .enter hk
  | leave number =>
    cases hk : s.scopes[number]? with
    | none =>
      simp only [Session.step, hk]
      exact .idle rfl (by simp [Step.used?, token?, hk])
    | some scope =>
      simp only [Session.step, hk, Scope.leave]
      cases ht : scope.token with
      | some t => exact .leave hk ht
      | none =>
        obtain ⟨hlt, he⟩ := List.getElem?_eq_some_iff.1 hk
        have hs : s.scopes.set number scope = s.scopes := by rw [← he, List.set_getElem_self]
        simp only [hs]
        exact .idle rfl (by simp [Step.used?, token?, hk, ht])
  | scramble added => exact .scramble added
  | log c => exact .idle rfl rfl
  | evaluate query subject => exact .idle rfl rfl

namespace Move

/-- A step that makes a point saves the fields; one that uses a token drops those behind it. -/
theorem saved (h : Move s step s') :
    s'.context.saved =
      (match step.used?.bind s.token? with
        | some t => s.context.saved.set t none
        | none => s.context.saved) ++
      if (s.made? step).isSome then [some s.context.fields] else [] := by
  cases h with
  | idle makes uses => simp [makes, uses]
  | configure c journal => simp [Step.used?, made?]
  | scope added => simp [Step.used?, made?]
  | clear => simp [Step.used?, made?, Context.clear]
  | scramble added => simp [Step.used?, made?]
  | push added => simp [Step.used?, made?]
  | pop holds => simp [Step.used?, made?, token?, holds, Context.saved_pop]
  | enter has =>
    obtain ⟨hlt, -⟩ := List.getElem?_eq_some_iff.1 has
    simp [Step.used?, made?, hlt]
  | leave has holds => simp [Step.used?, made?, token?, has, holds, Context.saved_pop]

theorem token? (h : Move s step s') (p : Point) :
    s'.token? p =
      if s.made? step = some p then some s.context.saved.length
      else if step.freed? = some p then none
      else s.token? p := by
  cases h with
  | idle makes uses =>
    rw [makes, if_neg (by simp)]
    split
    · next hf => rwa [Step.used?_of_freed? hf] at uses
    · rfl
  | configure c journal => rfl
  | scope added =>
    cases p with
    | push number => rfl
    | scope number =>
      -- a new scope holds no token, as one that is not there
      show ((s.scopes ++ [_])[number]?).bind _ = (s.scopes[number]?).bind _
      rw [getElem?_concat]
      split
      · next he => rw [he, List.getElem?_eq_none (Nat.le_refl _)]; rfl
      · rfl
  | clear => rfl
  | scramble added => rfl
  | push added =>
    cases p with
    | push number =>
      show (s.tokens ++ [_])[number]? = _
      rw [getElem?_concat, Context.push_token]
      simp [made?, Step.freed?, Session.token?, eq_comm]
    | scope number => rfl
  | pop holds => rfl
  | @enter k scope has =>
    obtain ⟨hlt, -⟩ := List.getElem?_eq_some_iff.1 has
    rw [token?_set hlt, made?, if_pos hlt, Context.push_token]
    simp [Step.freed?, eq_comm]
  | @leave k scope t has holds =>
    obtain ⟨hlt, -⟩ := List.getElem?_eq_some_iff.1 has
    rw [token?_set hlt]
    simp [made?, Step.freed?, eq_comm]

theorem token?_eq_some (h : Move s step s') (hp : s'.token? p = some t) :
    s.made? step = some p ∧ t = s.context.saved.length ∨ s.token? p = some t := by
  rw [h.token?] at hp
  split at hp
  · next hm =>
    cases hp
    exact Or.inl ⟨hm, rfl⟩
  · split at hp
    · cases hp
    · exact Or.inr hp

theorem length_saved (h : Move s step s') :
    s'.context.saved.length =
      s.context.saved.length + if (s.made? step).isSome then 1 else 0 := by
  rw [h.saved, List.length_append]
  cases step.used?.bind s.token? <;> cases (s.made? step).isSome <;> simp

theorem length_tokens (h : Move s step s') :
    s'.tokens.length = s.tokens.length + if step.isPush then 1 else 0 := by
  cases h with
  | idle makes uses =>
    cases step with
    | push added => cases makes
    | _ => rfl
  | push added => simp [Step.isPush]
  | _ => rfl

theorem journal (h : Move s step s') (hc : ∀ c, step ≠ .configure c) : s'.journal = s.journal := by
  cases h with
  | configure c journal => exact absurd rfl (hc c)
  | _ => rfl

/-- A scope keeps the fields that it was made with. -/
theorem added_scope (h : Move s step s') {k : Nat} {scope : Scope}
    (hk : s.scopes[k]? = some scope) :
    ∃ scope', s'.scopes[k]? = some scope' ∧ scope'.added = scope.added := by
  obtain ⟨hlt, -⟩ := List.getElem?_eq_some_iff.1 hk
  cases h with
  | scope added => exact ⟨scope, by rw [List.getElem?_append_left hlt, hk], rfl⟩
  | enter has => exact added_set hk has rfl
  | leave has holds => exact added_set hk has rfl
  | _ => exact ⟨scope, hk, rfl⟩

end Move

/-- Each point that holds a token has one of its own. -/
structure Apart (s : Session) : Prop where
  bound : ∀ {p t}, s.token? p = some t → t < s.context.saved.length
  own : ∀ {p q t}, s.token? p = some t → s.token? q = some t → p = q

theorem apart_empty : Apart {} := by
  have h : ∀ p, token? {} p = none := by
    intro p
    cases p <;> rfl
  exact ⟨fun hp => absurd hp (by simp [h]), fun hp => absurd hp (by simp [h])⟩

/-- Each move keeps the points apart, since a new token is one that no point has held. -/
theorem Apart.move (ha : Apart s) (h : Move s step s') : Apart s' := by
  constructor
  · intro p t hp
    rw [h.length_saved]
    rcases h.token?_eq_some hp with ⟨hm, rfl⟩ | hp
    · simp [hm]
    · exact Nat.lt_add_right _ (ha.bound hp)
  · intro p q t hp hq
    -- a new token is beyond all that are held
    rcases h.token?_eq_some hp with ⟨hm, rfl⟩ | hp
    · rcases h.token?_eq_some hq with ⟨hn, -⟩ | hq
      · exact Option.some.inj (hm.symm.trans hn)
      · exact absurd (ha.bound hq) (Nat.lt_irrefl _)
    · rcases h.token?_eq_some hq with ⟨-, rfl⟩ | hq
      · exact absurd (ha.bound hp) (Nat.lt_irrefl _)
      · exact ha.own hp hq

theorem Apart.after (ha : Apart s) (steps : List Step) : Apart (after m s steps) := by
  apply after_induct ha
  intro s ha step _
  exact ha.move (move_step m s step)

end Session

end KeywordSieve.Log
