import KeywordSieve.Cli.Command
import KeywordSieve.Proofs.Output
import KeywordSieve.Proofs.Resolving
import KeywordSieve.Proofs.Unfailing

/-!
What the command does. It ends in one of five ways: something about a file ends the program, the
settings are refused, the items are refused, the output cannot show what is written, or the items are
filtered and written. Only the query, the items and whether reasons are asked for make a difference
to what is written then. None of this depends on how documents are read.
-/
namespace KeywordSieve.Cli

open Text Query

variable {w : World} {a : Arguments} {o : Outcome} {lines messages : List Text}

namespace World

def settings (w : World) (a : Arguments) : Except Settings.Failure (Settings × Environment) :=
  (Settings.resolve w.files w.read a.config w.vars
    { query := a.query, level := a.level.map (·.name) }).result

def items (w : World) (a : Arguments) : Except Feed.Failure (List Feed.Item) :=
  Feed.ofDocument (w.read a.items)

/-- The calls of a command outside of its run give scalars under free names. -/
theorem isPlain_noted (c : Log.Configuration) (notices : List Notice) (config : Option Path)
    (s : Settings) (f : Filter) (path : Path) (n : Nat) (report : Report) (message : Text) :
    ∀ call ∈ Log.Journal.configuredCall c :: notices.map noticeCall ++ [loadedCall config s,
        Log.Event.compiled f, itemsLoadedCall path n, settingsErrorCall report,
        itemsErrorCall message],
      Value.isTooLong call.level = false ∧ call.IsPlain := by
  intro call hm
  simp only [List.cons_append, List.mem_cons, List.mem_append, List.mem_map, List.not_mem_nil,
    or_false] at hm
  rcases hm with rfl | ⟨notice, -, rfl⟩ | rfl | rfl | rfl | rfl | rfl
  · exact ⟨(by decide : Value.isTooLong 10 = false), .of_fields rfl (List.all_eq_true.1 rfl)
      (by decide : ∀ k ∈ ["event".toList, "component", "log_level", "log_format"], _)⟩
  · exact ⟨(by decide : Value.isTooLong 30 = false), .of_fields rfl (List.all_eq_true.1 rfl)
      (by decide : ∀ k ∈ ["event".toList], _)⟩
  · refine ⟨(by decide : Value.isTooLong 20 = false), .of_fields rfl ?_
      (by decide : ∀ k ∈ ["event".toList, "config_path", "has_keywords", "max_workers"], _)⟩
    cases config <;> exact List.all_eq_true.1 rfl
  · exact ⟨(by decide : Value.isTooLong 20 = false), .of_fields rfl (List.all_eq_true.1 rfl)
      (by decide : ∀ k ∈ ["event".toList, "include_count", "exclude_count",
        "override_group_count"], _)⟩
  · exact ⟨(by decide : Value.isTooLong 10 = false), .of_fields rfl (List.all_eq_true.1 rfl)
      (by decide : ∀ k ∈ ["event".toList, "item_count", "path"], _)⟩
  · exact ⟨(by decide : Value.isTooLong 40 = false), .of_fields rfl (List.all_eq_true.1 rfl)
      (by decide : ∀ k ∈ ["event".toList, "error_type"], _)⟩
  · exact ⟨(by decide : Value.isTooLong 40 = false), .of_fields rfl (List.all_eq_true.1 rfl)
      (by decide : ∀ k ∈ ["event".toList, "error_type"], _)⟩

/-- So none of them fails, and `note` loses nothing. -/
theorem logAll_noted (w : World) (j : Log.Journal) (c : Log.Configuration) (notices : List Notice)
    (config : Option Path) (s : Settings) (f : Filter) (path : Path) (n : Nat) (report : Report)
    (message : Text) {cs : List Log.Call}
    (h : cs ⊆ Log.Journal.configuredCall c :: notices.map noticeCall ++ [loadedCall config s,
      Log.Event.compiled f, itemsLoadedCall path n, settingsErrorCall report,
      itemsErrorCall message]) : (j.logAll [] w.now cs).2 = none :=
  Log.Journal.logAll_snd
    (fun call hm => isPlain_noted c notices config s f path n report message call (h hm))
    (List.forall_mem_nil _)

/-- Whether the output can show all characters of some lines. -/
def Shows (w : World) (lines : List Text) : Prop := ∀ c ∈ lines.flatten, w.encodes c = true

theorem deliver_of_shows (h : w.Shows lines) (messages : List Text) :
    w.deliver lines messages = .done { exit := 0, output := lines, messages } := by
  have hnone : lines.flatten.find? (!w.encodes ·) = none := by
    rw [List.find?_eq_none]
    intro c hc
    rw [h c hc]
    decide
  rw [deliver, hnone]

theorem deliver_of_not_shows {before after : Text} {c : Char}
    (hl : lines.flatten = before ++ c :: after) (hb : ∀ d ∈ before, w.encodes d = true)
    (hc : w.encodes c = false) (messages : List Text) :
    ∃ output, w.deliver lines messages = .crashed (.unencodable c) output messages := by
  have hfirst : lines.flatten.find? (!w.encodes ·) = some c := by
    rw [List.find?_eq_some_iff_append]
    exact ⟨by rw [hc]; rfl, before, after, hl, fun d hd => by rw [hb d hd]; rfl⟩
  rw [deliver, hfirst]
  exact ⟨_, rfl⟩

/-- Of lines that cannot all be shown there is a first character that cannot. -/
theorem shows_or_exists (w : World) (lines : List Text) : w.Shows lines ∨
    ∃ before c after, lines.flatten = before ++ c :: after ∧ (∀ d ∈ before, w.encodes d = true) ∧
      w.encodes c = false := by
  cases hf : lines.flatten.find? (!w.encodes ·) with
  | none =>
    refine Or.inl fun c hc => ?_
    simpa using List.find?_eq_none.1 hf c hc
  | some c =>
    obtain ⟨hc, before, after, hl, hb⟩ := List.find?_eq_some_iff_append.1 hf
    exact Or.inr ⟨before, c, after, hl, by simpa using hb, by simpa using hc⟩

end World

def answer (explain : Bool) (query : Option Text) (items : List Feed.Item) : List Text :=
  let f := Filter.compile? query
  if explain then
    items.map fun item => (Run.explanation (item, f.evaluate item.subject)).render
  else (items.filter fun item => f.keeps item.subject).map (·.json.render)

/-- How a command ends, given the messages that it writes. -/
def ending (w : World) (a : Arguments) (messages : List Text) : Ending :=
  match w.settings a, w.items a with
  | .error (.fatal f), _ => .crashed (.fatal f) [] messages
  | .error (.reported _), _ => .done { exit := 1, messages }
  | .ok _, .error (.fatal f) => .crashed (.fatal f) [] messages
  | .ok _, .error (.reported _) => .done { exit := 1, messages }
  | .ok (s, _), .ok items => w.deliver (answer a.explain s.keywords items) messages

/-- A run answers the same with any number of workers, whenever its evaluations end. -/
theorem lines_eq_answer (query : Option Text) (n : Nat) {c : Pipeline.Circumstances}
    {items : List Feed.Item} (h : Pool.Complete items.length c.order) (explain : Bool) :
    (Pipeline.run ⟨Filter.compile? query, n⟩ c items).lines explain = answer explain query items :=
  Pipeline.lines_run _ h explain

theorem filterItems_eq_ending {s : Settings} {environment : Environment}
    (h : w.settings a = .ok (s, environment)) (j : Log.Journal) (before : List Text) :
    ∃ messages, w.filterItems a s j before = ending w a messages := by
  unfold ending
  rw [World.filterItems, h, World.items]
  cases Feed.ofDocument (w.read a.items) with
  | error failure => cases failure <;> exact ⟨_, rfl⟩
  | ok items =>
    dsimp only
    -- the context of the command is empty, so that no call of the run fails
    rw [Pipeline.perform_ok _ j .empty _ items (List.forall_mem_nil _)]
    let c : Pipeline.Circumstances :=
      ⟨w.runId, w.now.time, w.now.time, List.range items.length, w.now.room⟩
    have hlines := lines_eq_answer s.keywords s.workers (c := c)
      (Pool.complete_range items.length) a.explain
    rw [← hlines]
    exact ⟨_, rfl⟩

/-- How a command ends is decided by its settings, its items and its output, whatever it logs. -/
theorem run_eq_ending (w : World) (a : Arguments) :
    ∃ messages, w.run a = ending w a messages := by
  rw [World.run]
  cases hr : w.settings a with
  | error failure =>
    unfold ending
    rw [hr]
    rw [World.settings] at hr
    rw [hr]
    cases failure <;> exact ⟨_, rfl⟩
  | ok r =>
    obtain ⟨s, environment⟩ := r
    have hresolved := hr
    rw [World.settings] at hresolved
    rw [hresolved]
    obtain ⟨file, found, -, he, ho⟩ := Settings.resolve_eq_ok.1 hresolved
    -- the level has been checked, so the journal is configured
    obtain ⟨level, hlevel⟩ : ∃ level : LogLevel, environment.level = some level.name := by
      have hlevel := Settings.level_override a.query a.level file he
      rwa [ho] at hlevel
    obtain ⟨j, hc⟩ := Log.Journal.exists_configure level s.format (some environment.label)
    dsimp only
    rw [hlevel, Option.getD_some, hc]
    exact filterItems_eq_ending hr j _

/-- A command that is not ended from outside refuses its files or answers. -/
theorem done_cases (h : w.run a = .done o) :
    o.exit = 1 ∧ o.output = [] ∨
      o.exit = 0 ∧ ∃ s items,
        (Settings.fromFile w.files w.read a.config).result = .ok s ∧
        Feed.ofDocument (w.read a.items) = .ok items ∧
        o.output = answer a.explain (Settings.firstQuery a.query w.vars s) items := by
  obtain ⟨messages, he⟩ := run_eq_ending w a
  rw [h, ending] at he
  split at he
  · cases he
  · cases he
    exact Or.inl ⟨rfl, rfl⟩
  · cases he
  · cases he
    exact Or.inl ⟨rfl, rfl⟩
  · next s environment items hs hl =>
    obtain hshows | ⟨before, c, after, hc, hb, hn⟩ :=
      w.shows_or_exists (answer a.explain s.keywords items)
    · rw [World.deliver_of_shows hshows] at he
      cases he
      obtain ⟨file, found, hf, hv, ho⟩ := Settings.resolve_eq_ok.1 hs
      have hk := Settings.keywords_override
        { query := a.query, level := a.level.map (·.name) } file hv
      rw [ho] at hk
      exact Or.inr ⟨rfl, file, items, hf, hl, by rw [hk]⟩
    · obtain ⟨output, hd⟩ := World.deliver_of_not_shows hc hb hn messages
      rw [hd] at he
      cases he

/-- Settings and items that are in order, and an output that shows the answer, are all that a command
needs. -/
theorem exists_done {s : Settings} {environment : Environment} {items : List Feed.Item}
    (hs : w.settings a = .ok (s, environment)) (hl : w.items a = .ok items)
    (hshows : w.Shows (answer a.explain s.keywords items)) :
    ∃ o, w.run a = .done o ∧ o.exit = 0 := by
  obtain ⟨messages, he⟩ := run_eq_ending w a
  rw [ending, hs, hl] at he
  exact ⟨_, he.trans (World.deliver_of_shows hshows messages), rfl⟩

theorem exists_ok {ε α : Type} {x : Except ε α} (h : x.toOption.isSome = true) :
    ∃ y, x = .ok y := by
  cases x with
  | error e => cases h
  | ok y => exact ⟨y, rfl⟩

end KeywordSieve.Cli
