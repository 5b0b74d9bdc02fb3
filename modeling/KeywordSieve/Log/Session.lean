import KeywordSieve.Log.Context
import KeywordSieve.Log.Event

/-!
Sessions: sequences of steps that configure a journal, change its context, and log.
-/
namespace KeywordSieve.Log

open Text

/-- `pop` names a push, and `enter` and `leave` name a scope, by its number in the session.
`scramble` asks for the context and changes what it is given. -/
inductive Step where
  | configure (c : Configuration)
  | push (added : Fields)
  | pop (number : Nat)
  | clear
  | scope (added : Fields)
  | enter (number : Nat)
  | leave (number : Nat)
  | scramble (added : Fields)
  | log (c : Call)
  | evaluate (query : Option Text) (subject : Subject)
  deriving Repr

inductive StepFault where
  | configure (f : ConfigureFault)
  | log (f : Fault)
  | usedToken
  | noEntry
  deriving DecidableEq, Repr

def StepFault.message : StepFault → Text
  | configure f => f.message
  | log f => f.message
  | usedToken => []
  | noEntry => "list index out of range"

structure Effect where
  entries : List Entry := []
  fault : Option StepFault := none
  deriving DecidableEq, Repr

def Effect.ofCalls (j : Journal) (context : Fields) (m : Moment) (cs : List Call) : Effect :=
  let (entries, fault) := j.logAll context m cs
  { entries, fault := fault.map .log }

/-- `tokens` are those of the pushes of the session, which the scopes have no part in. -/
structure Session where
  journal : Journal := {}
  context : Context := .empty
  tokens : List Token := []
  scopes : List Scope := []
  deriving Repr

namespace Session

/-- The session after a step, and what the step does. -/
def step (m : Moment) (s : Session) : Step → Session × Effect
  | .configure c =>
    match (Journal.reconfigure c).run s.journal with
    | .error f journal => ({ s with journal }, { fault := some (.configure f) })
    | .ok _ journal =>
      ({ s with journal }, .ofCalls journal s.context.fields m [Journal.configuredCall c])
  | .push added =>
    let (token, context) := s.context.push added
    ({ s with context, tokens := s.tokens ++ [token] }, {})
  | .pop number =>
    match s.tokens[number]? with
    | none => (s, { fault := some .noEntry })
    | some token =>
      match s.context.pop? token with
      | some context => ({ s with context }, {})
      | none => (s, { fault := some .usedToken })
  | .clear => ({ s with context := s.context.clear }, {})
  | .scope added =>
    match Scope.make added with
    | .ok scope => ({ s with scopes := s.scopes ++ [scope] }, {})
    | .error f => (s, { fault := some (.log f) })
  | .enter number =>
    match s.scopes[number]? with
    | none => (s, { fault := some .noEntry })
    | some scope =>
      let (scope, context) := scope.enter s.context
      ({ s with context, scopes := s.scopes.set number scope }, {})
  | .leave number =>
    match s.scopes[number]? with
    | none => (s, { fault := some .noEntry })
    | some scope =>
      let (scope, context) := scope.leave s.context
      ({ s with context, scopes := s.scopes.set number scope }, {})
  | .scramble added => ({ s with context := s.context.scramble added }, {})
  | .log c => (s, .ofCalls s.journal s.context.fields m [c])
  | .evaluate query subject =>
    let f := Query.Filter.compile? query
    let calls := [Event.compiled f, Event.evaluated subject.title (f.evaluate subject)]
    (s, .ofCalls s.journal s.context.fields m calls)

structure Trace where
  context : Fields
  effect : Effect
  deriving Repr

/-- Goes on after faults. -/
def run (m : Moment) (s : Session) : List Step → List Trace
  | [] => []
  | step :: rest =>
    let after := s.step m step
    ⟨after.1.context.fields, after.2⟩ :: run m after.1 rest

end Session

end KeywordSieve.Log
