import KeywordSieve.Log.Journal
import KeywordSieve.Settings.Load

/-!
Settings that have been resolved. They come from a file and an environment that are both in order.
The query is the first one that is given, and the level to log at is always the name of a level, so
that a journal can be configured with them.
-/
namespace KeywordSieve

open Text

theorem LogLevel.name_of_ofName? {t : Text} {level : LogLevel} (h : LogLevel.ofName? t = some level) :
    level.name = t := by
  simpa using List.find?_some h

namespace Environment

variable {vars : Variables} {environment : Environment}

theorem nonEmpty_some {t : Text} (h : t ≠ []) : nonEmpty (some t) = some t := by
  simp [nonEmpty, Option.filter, h]

theorem nonEmpty_level (level : LogLevel) : nonEmpty (some level.name) = some level.name := by
  apply nonEmpty_some
  cases level <;> decide

theorem nonEmpty_nonEmpty (setting : Option Text) :
    nonEmpty (nonEmpty setting) = nonEmpty setting := by
  simp [nonEmpty, Option.filter_filter]

theorem keywords_ofVariables (h : ofVariables vars = .ok environment) :
    environment.keywords = nonEmpty vars.keywords := by
  rw [ofVariables] at h
  split at h
  · cases h
    rfl
  · cases h

theorem level_ofVariables (h : ofVariables vars = .ok environment) :
    readLevel vars.level = .ok environment.level := by
  rw [ofVariables] at h
  split at h
  · next hl =>
    cases h
    exact hl
  · cases h

/-- A level that is set is the name of one. -/
theorem nonEmpty_readLevel {setting read : Option Text} (h : readLevel setting = .ok read) :
    nonEmpty read = none ∨ ∃ level : LogLevel, nonEmpty read = some level.name := by
  rw [readLevel] at h
  cases hn : nonEmpty setting with
  | none =>
    rw [hn] at h
    cases h
    exact Or.inl hn
  | some t =>
    rw [hn] at h
    dsimp only at h
    split at h
    · next hs =>
      obtain ⟨level, hl⟩ := Option.isSome_iff_exists.1 hs
      cases h
      rw [← LogLevel.name_of_ofName? hl]
      exact Or.inr ⟨level, nonEmpty_level level⟩
    · cases h

end Environment

namespace Settings

variable {files : Files} {read : Path → Except Document.Fault Value} {asked : Option Path}
  {vars : Variables} {overrides : Overrides} {s : Settings} {environment : Environment}

/-- What the search finds is the first path of which it is not told that there is nothing. -/
inductive Searches (files : Files) : List Path → Except Failure (Option Path) → Prop
  | nothing {paths : List Path} : (∀ p ∈ paths, files.find p = .ok false) →
    Searches files paths (.ok none)
  | found {before : List Path} {path : Path} {after : List Path} :
    (∀ p ∈ before, files.find p = .ok false) → files.find path = .ok true →
    Searches files (before ++ path :: after) (.ok (some path))
  | refused {before : List Path} {path : Path} {after : List Path} {r : Refusal} :
    (∀ p ∈ before, files.find p = .ok false) → files.find path = .error r →
    Searches files (before ++ path :: after) (.error (.fatal (.refused r path)))

theorem Searches.cons {p : Path} {paths : List Path} {found : Except Failure (Option Path)}
    (hp : files.find p = .ok false) (h : Searches files paths found) :
    Searches files (p :: paths) found := by
  cases h with
  | nothing hall => exact .nothing (List.forall_mem_cons.2 ⟨hp, hall⟩)
  | found hb hf =>
    rw [← List.cons_append]
    exact .found (List.forall_mem_cons.2 ⟨hp, hb⟩) hf
  | refused hb hf =>
    rw [← List.cons_append]
    exact .refused (List.forall_mem_cons.2 ⟨hp, hb⟩) hf

theorem firstFound_append {before paths : List Path} (h : ∀ p ∈ before, files.find p = .ok false) :
    firstFound files (before ++ paths) = firstFound files paths := by
  induction before with
  | nil => rfl
  | cons p before ih =>
    rw [List.forall_mem_cons] at h
    rw [List.cons_append, firstFound, h.1]
    exact ih h.2

/-- The search is over at the first path that is there, or of which that cannot be told. -/
theorem firstFound_eq_iff {paths : List Path} {found : Except Failure (Option Path)} :
    firstFound files paths = found ↔ Searches files paths found := by
  constructor
  · rintro rfl
    induction paths with
    | nil => exact .nothing (List.forall_mem_nil _)
    | cons path paths ih =>
      rw [firstFound]
      cases hf : files.find path with
      | error r =>
        rw [← List.nil_append (path :: paths)]
        exact .refused (List.forall_mem_nil _) hf
      | ok there =>
        cases there with
        | true =>
          rw [← List.nil_append (path :: paths)]
          exact .found (List.forall_mem_nil _) hf
        | false => exact ih.cons hf
  · intro h
    cases h with
    | nothing hall =>
      rw [← List.append_nil paths, firstFound_append hall]
      rfl
    | found hb hf => rw [firstFound_append hb, firstFound, hf]
    | refused hb hf => rw [firstFound_append hb, firstFound, hf]

/-- The query of the command line, even an empty one, else that of the environment unless it is
empty, else that of the file. -/
def firstQuery (given : Option Text) (vars : Variables) (s : Settings) : Option Text :=
  match given with
  | some query => some query
  | none =>
    match Environment.nonEmpty vars.keywords with
    | some query => some query
    | none => s.keywords

theorem result_resolve : (resolve files read asked vars overrides).result =
    match (fromFile files read asked).result, Environment.ofVariables vars with
    | .error f, _ => .error f
    | .ok _, .error faults => .error (.reported (.environment faults))
    | .ok s, .ok environment => .ok (override overrides s environment) := by
  rw [resolve, load]
  cases (fromFile files read asked).result with
  | error f => rfl
  | ok s => cases Environment.ofVariables vars <;> rfl

/-- There are settings to run with if both the file and the environment are in order. -/
theorem resolve_eq_ok {resolved : Settings × Environment} :
    (resolve files read asked vars overrides).result = .ok resolved ↔
      ∃ s environment, (fromFile files read asked).result = .ok s ∧
        Environment.ofVariables vars = .ok environment ∧
        override overrides s environment = resolved := by
  rw [result_resolve]
  cases (fromFile files read asked).result with
  | error f => simp
  | ok s => cases Environment.ofVariables vars <;> simp

/-- Only the file can end the program, for the environment is but reported. -/
theorem resolve_eq_fatal {f : Fatal} :
    (resolve files read asked vars overrides).result = .error (.fatal f) ↔
      (fromFile files read asked).result = .error (.fatal f) := by
  rw [result_resolve]
  cases (fromFile files read asked).result with
  | error f => simp
  | ok s => cases Environment.ofVariables vars <;> simp

theorem keywords_override (overrides : Overrides) (s : Settings)
    (h : Environment.ofVariables vars = .ok environment) :
    (override overrides s environment).1.keywords = firstQuery overrides.query vars s := by
  have hk : (override overrides s environment).1.keywords =
      (overrides.query.orElse fun _ => Environment.nonEmpty vars.keywords).orElse
        fun _ => s.keywords := by
    rw [override, overridingQuery, Environment.keywords_ofVariables h,
      Environment.nonEmpty_nonEmpty]
  rw [hk]
  cases overrides.query with
  | some query => rfl
  | none =>
    rw [firstQuery]
    cases Environment.nonEmpty vars.keywords <;> rfl

/-- The level to log at is that of the command line, of the environment or of the file. -/
theorem level_override (query : Option Text) (level : Option LogLevel) (s : Settings)
    (h : Environment.ofVariables vars = .ok environment) :
    ∃ chosen : LogLevel,
      (override { query, level := level.map (·.name) } s environment).2.level =
        some chosen.name := by
  rw [override]
  cases level with
  | some level =>
    refine ⟨level, ?_⟩
    rw [Option.map_some, Environment.nonEmpty_level]
    rfl
  | none =>
    rcases Environment.nonEmpty_readLevel (Environment.level_ofVariables h) with hn | ⟨level, hn⟩
    · refine ⟨s.level, ?_⟩
      rw [hn]
      rfl
    · refine ⟨level, ?_⟩
      rw [hn]
      rfl

end Settings

namespace Log.Journal

/-- A journal can be configured with the names of a level and of a format. -/
theorem exists_configure (level : LogLevel) (format : LogFormat) (environment : Option Text) :
    ∃ j, configure { level := level.name, format := format.name, environment } = .ok j := by
  have hl : (levelNumber? (raise level.name)).isSome = true := by
    cases level <;> decide +kernel
  have hf : LogFormat.ofName? format.name = some format := by
    cases format <;> decide
  obtain ⟨threshold, hl⟩ := Option.isSome_iff_exists.1 hl
  rw [configure, reconfigure, hl]
  simp only [hf]
  exact ⟨_, rfl⟩

end Log.Journal

end KeywordSieve
