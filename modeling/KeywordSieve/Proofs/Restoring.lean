import Mathlib.Data.List.Induction
import KeywordSieve.Proofs.Fields
import KeywordSieve.Proofs.Moves

/-!
What brings the context back in a session. The fields behind the token of a push, or of a scope that
is entered, stay until the token is used: so it does not matter what happens in between, nor in
which order tokens are used.
-/
namespace KeywordSieve.Log

open Text

namespace Session

variable {m : Moment} {s s' : Session} {step : Step} {p : Point} {t : Token} {fields : Fields}

/-- A point has fields to bring back. -/
def Keeps (s : Session) (p : Point) (fields : Fields) : Prop :=
  ∃ t, s.token? p = some t ∧ s.context.saved[t]? = some (some fields)

theorem Move.keeps_made (h : Move s step s') (hm : s.made? step = some p) :
    s'.Keeps p s.context.fields := by
  refine ⟨s.context.saved.length, by rw [h.token?, if_pos hm], ?_⟩
  rw [h.saved, hm, Option.isSome_some, if_pos rfl]
  split
  · next t _ =>
    have hl : (s.context.saved.set t none).length = s.context.saved.length := List.length_set
    rw [← hl]
    exact List.getElem?_concat_length
  · exact List.getElem?_concat_length

/-- What a point keeps stays as it is until its own token is used. -/
theorem Keeps.move (hk : s.Keeps p fields) (ha : Apart s) (h : Move s step s')
    (hu : step.used? ≠ some p) (hm : s.made? step ≠ some p) : s'.Keeps p fields := by
  obtain ⟨t, hp, hs⟩ := hk
  refine ⟨t, ?_, ?_⟩
  · rw [h.token?, if_neg hm, if_neg fun hf => hu (Step.used?_of_freed? hf), hp]
  · rw [h.saved]
    split
    · next u hb =>
      obtain ⟨q, hq, hqu⟩ := Option.bind_eq_some_iff.1 hb
      have hne : u ≠ t := by
        rintro rfl
        exact hu (ha.own hqu hp ▸ hq)
      rw [List.getElem?_append_left (by simpa using ha.bound hp), List.getElem?_set_ne hne, hs]
    · rw [List.getElem?_append_left (ha.bound hp), hs]

/-- Using the token of a point brings back what it keeps. -/
theorem Keeps.use (hk : s.Keeps p fields) (m : Moment) (hu : step.used? = some p) :
    (s.step m step).2 = {} ∧ (s.step m step).1.context.fields = fields := by
  obtain ⟨t, hp, hs⟩ := hk
  obtain ⟨c, hpop, hfields, -⟩ := Context.pop?_of_saved hs
  cases step with
  | pop number =>
    cases hu
    have ht : s.tokens[number]? = some t := hp
    simp only [Session.step, ht, hpop, hfields, and_self]
  | leave number =>
    cases hu
    obtain ⟨scope, hk, ht⟩ := Option.bind_eq_some_iff.1 hp
    simp only [Session.step, hk, Scope.leave, ht, hpop, Option.getD_some, hfields, and_self]
  | _ => cases hu

/-- A push whose token has been used. -/
def Spent (s : Session) (number : Nat) : Prop :=
  ∃ t, s.tokens[number]? = some t ∧ s.context.saved[t]? = some none

theorem Spent.pop {number : Nat} (h : s.Spent number) (m : Moment) :
    s.step m (.pop number) = (s, { fault := some .usedToken }) := by
  obtain ⟨t, ht, hs⟩ := h
  have hpop : s.context.pop? t = none := Context.pop?_eq_none (by simp [hs])
  simp only [Session.step, ht, hpop]

/-- The tokens of pushes stay in the session. -/
theorem Move.token?_push (h : Move s step s') {number : Nat} (hn : number < s.tokens.length) :
    s'.token? (.push number) = s.token? (.push number) := by
  have hm : s.made? step ≠ some (.push number) := by
    intro he
    rcases made?_eq_some he with ⟨added, -, hp⟩ | ⟨k, -, -, hp⟩
    · cases hp
      exact Nat.lt_irrefl _ hn
    · cases hp
  have hf : step.freed? ≠ some (.push number) := by cases step <;> simp [Step.freed?]
  rw [h.token?, if_neg hm, if_neg hf]

/-- A token that has been used never serves again. -/
theorem Spent.move {number : Nat} (hk : s.Spent number) (h : Move s step s') : s'.Spent number := by
  obtain ⟨t, ht, hs⟩ := hk
  obtain ⟨hn, -⟩ := List.getElem?_eq_some_iff.1 ht
  obtain ⟨hlt, -⟩ := List.getElem?_eq_some_iff.1 hs
  refine ⟨t, (h.token?_push hn).trans ht, ?_⟩
  rw [h.saved]
  split
  · next u _ =>
    rw [List.getElem?_append_left (by simpa using hlt), List.getElem?_set]
    split
    · rw [if_pos (by omega)]
    · exact hs
  · rw [List.getElem?_append_left hlt, hs]

theorem Spent.after {number : Nat} (hk : s.Spent number) (steps : List Step) :
    (after m s steps).Spent number := by
  apply after_induct (P := fun s => s.Spent number) hk
  intro s hk step _
  exact hk.move (move_step m s step)

theorem spent_pop {number : Nat} (ha : Apart s) (hn : number < s.tokens.length) :
    (s.step m (.pop number)).1.Spent number := by
  have h := move_step m s (.pop number)
  have ht : s.tokens[number]? = some s.tokens[number] := List.getElem?_eq_getElem hn
  have hlt : s.tokens[number] < s.context.saved.length := ha.bound (p := .push number) ht
  refine ⟨s.tokens[number], (h.token?_push hn).trans ht, ?_⟩
  have hu : (Step.pop number).used?.bind s.token? = some s.tokens[number] := ht
  rw [h.saved, hu]
  simp [made?, hlt]

/-- The steps that concern a push or a scope. -/
def Touches (p : Point) (step : Step) : Prop :=
  match p with
  | .push number => step = .pop number
  | .scope number => step = .enter number ∨ step = .leave number

/-- By induction on the steps, none of which concerns the point. -/
theorem Keeps.after (hk : s.Keeps p fields) (ha : Apart s) (m : Moment) {steps : List Step}
    (h : ∀ step ∈ steps, ¬ Touches p step) : (after m s steps).Keeps p fields := by
  have hboth : Apart (Session.after m s steps) ∧
      (Session.after m s steps).Keeps p fields := by
    apply after_induct (P := fun s => Apart s ∧ s.Keeps p fields) ⟨ha, hk⟩
    rintro s ⟨ha, hk⟩ step hm
    have hmove := move_step m s step
    refine ⟨ha.move hmove, hk.move ha hmove ?_ ?_⟩
    · intro hu
      cases step with
      | pop number => cases hu; exact h _ hm rfl
      | leave number => cases hu; exact h _ hm (Or.inr rfl)
      | _ => cases hu
    · intro he
      rcases made?_eq_some he with ⟨added, -, rfl⟩ | ⟨k, -, rfl, rfl⟩
      · obtain ⟨t, ht, -⟩ := hk
        obtain ⟨hlt, -⟩ := List.getElem?_eq_some_iff.1 ht
        exact Nat.lt_irrefl _ hlt
      · exact h _ hm (Or.inl rfl)
  exact hboth.2

theorem length_tokens_after (s : Session) (steps : List Step) :
    (after m s steps).tokens.length = s.tokens.length + steps.countP Step.isPush := by
  induction steps generalizing s with
  | nil => rfl
  | cons step steps ih =>
    show (after m (s.step m step).1 steps).tokens.length = _
    rw [ih, (move_step m s step).length_tokens, List.countP_cons]
    omega

theorem scopes_step_scope {added : Fields} (h : added.get? Scope.ownName = none) :
    (s.step m (.scope added)).1.scopes = s.scopes ++ [{ added := added }] := by
  simp only [Session.step, Scope.make, h, Option.isSome_none, Bool.false_eq_true, ↓reduceIte]

theorem added_scope_after {k : Nat} {scope : Scope} (hk : s.scopes[k]? = some scope)
    (steps : List Step) :
    ∃ scope', (after m s steps).scopes[k]? = some scope' ∧
      scope'.added = scope.added := by
  apply after_induct (P := fun s => ∃ scope', s.scopes[k]? = some scope' ∧
    scope'.added = scope.added) ⟨scope, hk, rfl⟩
  rintro s ⟨other, hk, ha⟩ step -
  obtain ⟨other', hk', ha'⟩ := (move_step m s step).added_scope hk
  exact ⟨other', hk', ha'.trans ha⟩

/-- A scope has been entered, and not left since. -/
def Entered (m : Moment) (steps : List Step) (k : Nat) : Prop :=
  ∃ before behind, steps = before ++ .enter k :: behind ∧
    k < (after m {} before).scopes.length ∧ .leave k ∉ behind

theorem token?_leave {k : Nat} : (s.step m (.leave k)).1.token? (.scope k) = none := by
  have hm : s.made? (.leave k) ≠ some (.scope k) := by simp [made?]
  have hf : (Step.leave k).freed? = some (.scope k) := rfl
  rw [(move_step m s (.leave k)).token?, if_neg hm, if_pos hf]

theorem entered_of_token? {steps : List Step} {k : Nat}
    (h : (after m {} steps).token? (.scope k) = some t) : Entered m steps k := by
  induction steps using List.reverseRecOn with
  | nil => cases h
  | append_singleton steps step ih =>
    rw [after_append] at h
    rcases (move_step m _ step).token?_eq_some h with ⟨hm, -⟩ | hp
    · rcases made?_eq_some hm with ⟨added, -, hp⟩ | ⟨number, hlt, rfl, hp⟩
      · cases hp
      · cases hp
        exact ⟨steps, [], rfl, hlt, List.not_mem_nil⟩
    · obtain ⟨before, behind, rfl, hlt, hl⟩ := ih hp
      refine ⟨before, behind ++ [step], by simp, hlt, ?_⟩
      rw [List.mem_append, List.mem_singleton, not_or]
      refine ⟨hl, ?_⟩
      -- a scope that has just been left holds no token
      rintro rfl
      exact absurd (token?_leave.symm.trans h) (by simp)

/-- Leaving a scope that is not entered does nothing. -/
theorem step_leave {k : Nat} (hk : k < s.scopes.length) (h : s.token? (.scope k) = none) :
    s.step m (.leave k) = (s, {}) := by
  have hg : s.scopes[k]? = some s.scopes[k] := List.getElem?_eq_getElem hk
  have ht : s.scopes[k].token = none := by simpa [token?, hg] using h
  simp only [Session.step, hg, Scope.leave, ht, List.set_getElem_self]

/-- Steps that are about something else change neither the fields in force nor those that tokens can
bring back. -/
theorem context_step (m : Moment) (s : Session) (h : step.isApart = true) :
    (s.step m step).1.context.fields = s.context.fields ∧
      (s.step m step).1.context.saved = s.context.saved := by
  cases step with
  | configure c => rw [Session.step]; split <;> exact ⟨rfl, rfl⟩
  | scope added => rw [Session.step]; split <;> exact ⟨rfl, rfl⟩
  | log c => exact ⟨rfl, rfl⟩
  | scramble added => exact ⟨Context.fields_scramble _ added, Context.saved_scramble _ added⟩
  | evaluate query subject => exact ⟨rfl, rfl⟩
  | _ => cases h

/-- The first pop of a push brings back the fields before the push, and no other pop of it does
anything, whatever happens in between. -/
theorem pop_after_push (ha : Apart s) (added : Fields) (between later : List Step) :
    let pop := Step.pop s.tokens.length
    let pushed := after m s (.push added :: between)
    let popped := pushed.step m pop
    let last := after m popped.1 later
    (pop ∉ between → popped.2 = {} ∧ popped.1.context.fields = s.context.fields) ∧
      last.step m pop = (last, { fault := some .usedToken }) := by
  intro pop pushed popped last
  have hm := move_step m s (.push added)
  constructor
  · intro hb
    have hk : pushed.Keeps (.push s.tokens.length) s.context.fields := by
      refine (hm.keeps_made rfl).after (ha.move hm) m ?_
      rintro _ hs rfl
      exact hb hs
    exact hk.use m rfl
  · have hn : s.tokens.length < pushed.tokens.length := by
      have hp : (Step.push added).isPush = true := rfl
      show _ < (after m s (.push added :: between)).tokens.length
      rw [length_tokens_after, List.countP_cons, if_pos hp]
      omega
    exact ((spent_pop (ha.after _) hn).after later).pop m

/-- Leaving a scope brings back the fields before it was entered. -/
theorem leave_after_enter (ha : Apart s) {k : Nat} (hk : k < s.scopes.length) {between : List Step}
    (he : .enter k ∉ between) (hl : .leave k ∉ between) :
    let left := (after m s (.enter k :: between)).step m (.leave k)
    left.2 = {} ∧ left.1.context.fields = s.context.fields := by
  intro left
  have hm := move_step m s (.enter k)
  have hs : (after m s (.enter k :: between)).Keeps (.scope k) s.context.fields := by
    refine (hm.keeps_made (if_pos hk)).after (ha.move hm) m ?_
    rintro step hs (rfl | rfl)
    · exact he hs
    · exact hl hs
  exact hs.use m rfl

/-- Entering a scope sets the fields that the scope was made with. -/
theorem get?_enter {k : Nat} {scope : Scope} (hk : s.scopes[k]? = some scope) (key : Text) :
    (s.step m (.enter k)).1.context.fields.get? key =
      (Fields.get? key scope.added.reverse).or (s.context.fields.get? key) := by
  simp only [Session.step, hk, Scope.enter, Context.fields_push]
  exact Fields.get?_setAll

/-- What brings the context back after any steps. A push is popped by its number among the pushes,
and a scope is entered and left by its number among the scopes that could be made. -/
theorem restores (m : Moment) (before between later : List Step) :
    let s := after m {} before
    (∀ added,
      let pop := Step.pop (before.countP Step.isPush)
      let popped := (after m s (.push added :: between)).step m pop
      let last := after m popped.1 later
      (pop ∉ between → popped.2 = {} ∧ popped.1.context.fields = s.context.fields) ∧
        last.step m pop = (last, { fault := some .usedToken })) ∧
    (∀ k < s.scopes.length,
      let left := (after m s (.enter k :: between)).step m (.leave k)
      (.enter k ∉ between → .leave k ∉ between →
        left.2 = {} ∧ left.1.context.fields = s.context.fields) ∧
      (¬ Entered m before k → s.step m (.leave k) = (s, {}))) ∧
    (∀ added key, (s.step m (.push added)).1.context.fields.get? key =
      (Fields.get? key added.reverse).or (s.context.fields.get? key)) ∧
    (∀ added first rest, before = first ++ .scope added :: rest →
      added.get? Scope.ownName = none →
      ∀ key, (s.step m (.enter (after m {} first).scopes.length)).1.context.fields.get?
          key = (Fields.get? key added.reverse).or (s.context.fields.get? key)) ∧
    ∀ step : Step, step.isApart = true → (s.step m step).1.context.fields = s.context.fields ∧
      (s.step m step).1.context.saved = s.context.saved := by
  intro s
  have ha : Apart s := apart_empty.after before
  refine ⟨?_, ?_, ?_, ?_, fun step => context_step m s⟩
  · intro added
    have hn : s.tokens.length = before.countP Step.isPush := by
      rw [length_tokens_after]
      exact Nat.zero_add _
    rw [← hn]
    exact pop_after_push ha added between later
  · intro k hk
    refine ⟨leave_after_enter ha hk, fun he => step_leave hk ?_⟩
    rw [Option.eq_none_iff_forall_ne_some]
    intro t ht
    exact he (entered_of_token? ht)
  · intro added key
    simp only [Session.step, Context.fields_push]
    exact Fields.get?_setAll
  · rintro added first rest rfl hself key
    have hnew : ((after m {} first).step m (.scope added)).1.scopes[
        (after m {} first).scopes.length]? = some { added := added } := by
      rw [scopes_step_scope hself]
      exact List.getElem?_concat_length
    obtain ⟨scope, hk, hadded⟩ := added_scope_after hnew rest
    have hs : s = after m ((after m {} first).step m (.scope added)).1 rest :=
      after_append m {} first (.scope added :: rest)
    rw [hs, get?_enter hk, hadded]

/-- A push is popped when the push before it has been popped, a scope has been entered in between,
and the context has been cleared. -/
theorem restores_tangled :
    let page (n : Int) : Fields := [("page", .int n)]
    let before := [.scope [("run_id", .text "7")], .push (page 1)]
    let between := [.enter 0, .pop 0, .clear]
    let m : Moment := { time := 0 }
    let popped := (after m (after m {} before) (.push (page 2) :: between)).step m (.pop 1)
    Step.pop 1 ∉ between ∧ popped.2 = {} ∧ popped.1.context.fields = page 1 ∧
      popped.1.step m (.pop 1) = (popped.1, { fault := some .usedToken }) := by
  intro page before between m popped
  have hb : Step.pop 1 ∉ between := by simp [between]
  obtain ⟨h, -⟩ := restores m before between []
  obtain ⟨hpop, hagain⟩ := h (page 2)
  exact ⟨hb, (hpop hb).1, (hpop hb).2, hagain⟩

end Session

end KeywordSieve.Log
