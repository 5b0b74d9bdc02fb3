import KeywordSieve.Run.Results

/-!
Runs with several workers. Each evaluation goes to the place of its item whenever it ends, so that
a run pairs the items in order with what the filter says of them, as one worker does.
-/
namespace KeywordSieve

open Text Query

namespace Pool

variable {α β : Type} {f : α → β} {tasks : List α} {places : List (Option β)} {order : List Nat}

/-- Each of so many tasks is among those that end. -/
def Complete (count : Nat) (order : List Nat) : Prop := ∀ i < count, i ∈ order

theorem complete_range (count : Nat) : Complete count (List.range count) := by
  intro i hi
  exact List.mem_range.2 hi

/-- The orders in which tasks that wait and tasks that run may end. Workers who are free take the
waiting tasks one after the other, and any task that runs may be the next to end. -/
inductive Ends (workers : Nat) : List Nat → List Nat → List Nat → Prop where
  | idle : Ends workers [] [] []
  | start {i : Nat} {waiting running order : List Nat} (free : running.length < workers)
      (rest : Ends workers waiting (i :: running) order) : Ends workers (i :: waiting) running order
  | finish {i : Nat} {waiting running order : List Nat} (runs : i ∈ running)
      (rest : Ends workers waiting (running.erase i) order) :
      Ends workers waiting running (i :: order)

/-- Every task ends once. -/
theorem Ends.perm {workers : Nat} {waiting running : List Nat}
    (h : Ends workers waiting running order) : order.Perm (waiting ++ running) := by
  induction h with
  | idle => exact .refl _
  | start _ _ ih => exact ih.trans List.perm_middle
  | finish runs _ ih =>
    have hback := (List.perm_cons_erase runs).symm
    exact ((ih.cons _).trans List.perm_middle.symm).trans (hback.append_left _)

/-- However the workers take turns, every task ends. -/
theorem Ends.complete {workers count : Nat} (h : Ends workers (List.range count) [] order) :
    Complete count order := by
  intro i hi
  exact h.perm.mem_iff.2 (by simpa using hi)

/-- The place of a task that ends has its result; the other places stay as they are. -/
theorem fill_getElem? (hl : places.length = tasks.length) (i : Nat) :
    (fill f tasks places order)[i]? =
      if i ∈ order then tasks[i]?.map fun a => some (f a) else places[i]? := by
  induction order generalizing places with
  | nil => simp [fill]
  | cons k order ih =>
    by_cases hk : k < tasks.length
    · rw [fill, List.getElem?_eq_getElem hk]
      show (fill f tasks (places.set k _) order)[i]? = _
      rw [ih (by rw [List.length_set, hl])]
      by_cases hi : i = k
      · subst hi
        simp [hl, hk]
      · simp [hi, List.getElem?_set_ne (Ne.symm hi)]
    · rw [fill, List.getElem?_eq_none (show tasks.length ≤ k by omega)]
      show (fill f tasks places order)[i]? = _
      rw [ih hl]
      by_cases hi : i = k
      · subst hi
        simp [hl, Nat.not_lt.1 hk]
      · simp [hi]

/-- When every task ends, the order in which they end does not matter. -/
theorem results_eq_map (h : Complete tasks.length order) : results f tasks order = tasks.map f := by
  have hfill : fill f tasks (tasks.map fun _ => none) order = tasks.map fun a => some (f a) := by
    apply List.ext_getElem?
    intro i
    rw [fill_getElem? (by simp), List.getElem?_map, List.getElem?_map]
    split
    · rfl
    · next hi =>
      rw [List.getElem?_eq_none (Nat.not_lt.1 fun hlt => hi (h i hlt))]
      rfl
  rw [results, hfill]
  show (tasks.map fun a => some (f a)).filterMap id = _
  rw [List.filterMap_map]
  exact congrFun List.filterMap_eq_map _

end Pool

namespace Pipeline

variable {items : List Feed.Item} {order : List Nat} {c : Circumstances}

theorem verdicts_eq (p : Pipeline) (h : Pool.Complete items.length order) :
    p.verdicts order items = items.map fun item => p.filter.evaluate item.subject := by
  rw [verdicts]
  split
  · rfl
  · exact Pool.results_eq_map h

/-- A run says of every item what the filter says of it, in the order of the items. -/
theorem evaluations_run (p : Pipeline) (h : Pool.Complete items.length c.order) :
    (p.run c items).evaluations = items.map fun item => (item, p.filter.evaluate item.subject) := by
  show items.zip (p.verdicts c.order items) = _
  rw [verdicts_eq p h, List.zip_eq_zipWith, List.zipWith_map_right, List.zipWith_self]

/-- One worker takes the items in order, whatever is said of the end of evaluations. -/
theorem evaluations_single (f : Filter) (c : Circumstances) (items : List Feed.Item) :
    (run ⟨f, 1⟩ c items).evaluations = items.map fun item => (item, f.evaluate item.subject) := by
  show items.zip (verdicts ⟨f, 1⟩ c.order items) = _
  rw [verdicts, if_pos (Or.inl rfl), List.zip_eq_zipWith, List.zipWith_map_right, List.zipWith_self]

/-- Neither the workers nor the order in which they end has a say in what is kept. -/
theorem keptItems_run (p : Pipeline) (h : Pool.Complete items.length c.order) :
    (p.run c items).keptItems = items.filter fun item => p.filter.keeps item.subject := by
  rw [Run.keptItems, evaluations_run p h, List.filter_map, List.map_map]
  exact List.map_id _

/-- The lines of a run depend on its items and its filter only. -/
theorem lines_run (p : Pipeline) (h : Pool.Complete items.length c.order) (explain : Bool) :
    (p.run c items).lines explain =
      if explain then items.map fun item =>
        (Run.explanation (item, p.filter.evaluate item.subject)).render
      else (items.filter fun item => p.filter.keeps item.subject).map (·.json.render) := by
  rw [Run.lines, evaluations_run p h, keptItems_run p h, List.map_map]
  rfl

end Pipeline

end KeywordSieve
