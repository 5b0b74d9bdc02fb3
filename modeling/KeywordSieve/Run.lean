import KeywordSieve.Feed.Item
import KeywordSieve.Log.Context
import KeywordSieve.Log.Event

/-!
Runs: a filter evaluates a batch of items, perhaps with several workers. Whatever the order in
which the evaluations end, each result goes to the place of its item. The records of a run carry
its identifier.
-/
namespace KeywordSieve

open Text Query

/-- The outcome of a run; times are in microseconds from the beginning of 1970. A duration that is
not given, or given as zero, is the difference of the times. -/
structure Run where
  id : Text
  started : Int
  finished : Int
  evaluations : List (Feed.Item × Verdict) := []
  duration : Double := .zero false
  deriving Repr

namespace Run

/-- The identifier that sixteen random bytes give: their hexadecimal digits, apart from six bits
that say which kind of identifier it is. -/
def idOf (bytes : List UInt8) : Text :=
  bytes.zipIdx.flatMap fun (b, i) =>
    let b := if i = 6 then b &&& 0x0f ||| 0x40 else if i = 8 then b &&& 0x3f ||| 0x80 else b
    hexDigits 2 b.toNat

def verdicts (r : Run) : List Verdict := r.evaluations.map (·.2)

def total (r : Run) : Nat := r.evaluations.length

def kept (r : Run) : Nat := r.verdicts.countP (·.isMatch)

def excluded (r : Run) : Nat := r.verdicts.countP (·.decision == .excluded)

def overridden (r : Run) : Nat := r.verdicts.countP fun v => v.isMatch && v.wasOverridden

def unmatched (r : Run) : Nat := r.verdicts.countP (·.decision == .noIncludeMatch)

def dropped (r : Run) : Int := r.total - r.kept

/-- The items that were kept, in order. -/
def keptItems (r : Run) : List Feed.Item := (r.evaluations.filter (·.2.isMatch)).map (·.1)

def seconds (r : Run) : Double :=
  if r.duration.isZero then
    let us := r.finished - r.started
    .ofRatio (us < 0) us.natAbs 1000000
  else r.duration

end Run

namespace Pool

/-- Puts the results of tasks into their places, in the order in which the tasks end. -/
def fill (f : α → β) (tasks : List α) (places : List (Option β)) : List Nat → List (Option β)
  | [] => places
  | i :: rest =>
    match tasks[i]? with
    | some a => fill f tasks (places.set i (some (f a))) rest
    | none => fill f tasks places rest

/-- The results of tasks that end in a given order, in the order of the tasks. -/
def results (f : α → β) (tasks : List α) (order : List Nat) : List β :=
  (fill f tasks (tasks.map fun _ => none) order).reduceOption

end Pool

structure Pipeline where
  filter : Filter
  workers : Nat
  deriving DecidableEq, Repr

structure NoWorkers where
  count : Int
  deriving DecidableEq, Repr

def NoWorkers.message (n : NoWorkers) : Text :=
  "max_workers must be at least 1, got " ++ ofInt n.count

namespace Pipeline

def make (filter : Filter) (workers : Int) : Except NoWorkers Pipeline :=
  if workers < 1 then .error ⟨workers⟩ else .ok ⟨filter, workers.toNat⟩

/-- The verdicts on items. One worker takes them in order; several end in a given order. -/
def verdicts (p : Pipeline) (order : List Nat) (items : List Feed.Item) : List Verdict :=
  let evaluate (item : Feed.Item) : Verdict := p.filter.evaluate item.subject
  if p.workers = 1 ∨ items.length < 2 then items.map evaluate
  else Pool.results evaluate items order

/-- The circumstances of a run: its identifier, when it starts and ends, the order in which the
evaluations end if there are several workers, and the room for its records. -/
structure Circumstances where
  id : Text
  started : Int
  finished : Int
  order : List Nat
  room : Log.Room := {}
  deriving Repr

def run (p : Pipeline) (c : Circumstances) (items : List Feed.Item) : Run :=
  { id := c.id
    started := c.started
    finished := c.finished
    evaluations := items.zip (p.verdicts c.order items) }

def logger : Text := "feedfilter.pipeline.runner"

def component : Text := "pipeline"

def startedCall (p : Pipeline) (items : List Feed.Item) : Log.Call :=
  { logger
    component := some component
    message := "Pipeline run started"
    extra := .fields
      [("event", .text "pipeline.run.started"), ("item_count", .int items.length),
        ("max_workers", .int p.workers)] }

def evaluatedCall (e : Feed.Item × Verdict) : Log.Call := Log.Event.evaluated e.1.title e.2

def completedCall (r : Run) : Log.Call :=
  { logger
    component := some component
    message := "Pipeline run completed: " ++ ofNat r.kept ++ " of " ++ ofNat r.total ++
      " items kept"
    extra := .fields
      [("event", .text "pipeline.run.completed"),
        ("duration_seconds", .float (r.seconds.roundPlaces 3)), ("total_items", .int r.total),
        ("kept_count", .int r.kept), ("excluded_count", .int r.excluded),
        ("overridden_count", .int r.overridden), ("unmatched_count", .int r.unmatched)] }

def calls (p : Pipeline) (items : List Feed.Item) (r : Run) : List Log.Call :=
  p.startedCall items :: r.evaluations.map evaluatedCall ++ [completedCall r]

/-- Runs the pipeline, logging in a context that has the identifier of the run in it. A call that
fails ends the run, but not without the context being brought back. -/
def perform (p : Pipeline) (j : Log.Journal) (context : Log.Context) (c : Circumstances)
    (items : List Feed.Item) : Except Log.Fault Run × List Log.Entry × Log.Context :=
  let scope : Log.Scope := { added := [("run_id", .text c.id)] }
  let (scope, inside) := scope.enter context
  let r := p.run c items
  let (entries, fault) := j.logAll inside.fields ⟨c.started, c.room⟩ (p.calls items r)
  (fault.elim (.ok r) .error, entries, (scope.leave inside).2)

end Pipeline

end KeywordSieve
