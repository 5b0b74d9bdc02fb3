import KeywordSieve.Proofs.Bounds
import KeywordSieve.Proofs.Noticing

/-!
Which source settles which setting. The query is that of the command line, even an empty one, else
that of the environment, else that of the file; the level to log at is chosen in the same order, but
an empty one never counts; the number of workers is that of the environment, else that of the file.
Nothing else differs from what file and environment gave. The notices are those about the file, also
about a query in it that is not used, and behind them those about the query that takes its place.
-/
namespace KeywordSieve

open Text

namespace Environment

variable {vars : Variables} {environment : Environment} {setting read : Option Text}
  {workers : Option Nat}

/-- A number of workers that is set is the integer that is written. -/
theorem readWorkers_eq_ok (h : readWorkers setting = .ok workers) :
    match nonEmpty setting with
    | none => workers = none
    | some t => ∃ n, workers = some n ∧ Integer.ofText? t = some (n : Int) := by
  rw [readWorkers] at h
  cases hs : nonEmpty setting with
  | none =>
    rw [hs] at h
    cases h
    rfl
  | some t =>
    rw [hs] at h
    dsimp only at h ⊢
    cases hi : Integer.ofText? t with
    | none =>
      rw [hi] at h
      cases h
    | some i =>
      rw [hi] at h
      dsimp only at h
      split at h
      · cases h
      · cases h
        exact ⟨i.toNat, rfl, congrArg some (by omega)⟩

/-- A level that is set is the one that is written, in capital letters. -/
theorem nonEmpty_of_readLevel (h : readLevel setting = .ok read) :
    nonEmpty read = (nonEmpty setting).map raise := by
  rw [readLevel] at h
  cases hs : nonEmpty setting with
  | none =>
    rw [hs] at h
    cases h
    exact hs
  | some t =>
    rw [hs] at h
    dsimp only at h
    split at h
    · next hl =>
      cases h
      obtain ⟨level, hl⟩ := Option.isSome_iff_exists.1 hl
      rw [Option.map_some, ← LogLevel.name_of_ofName? hl, nonEmpty_level]
    · cases h

end Environment

namespace Settings

open Value

variable {files : Files} {read : Path → Except Document.Fault Value} {asked : Option Path}
  {vars : Variables} {overrides : Overrides} {base s : Settings} {given environment : Environment}
  {loaded ns : List Notice}

inductive Located (files : Files) : Option Path → Path → Prop
  | asked {path : Path} : files.find path = .ok true → Located files (some path) path
  | default {path : Path} {before after : List Path} : candidates = before ++ path :: after →
    (∀ p ∈ before, files.find p = .ok false) → files.find path = .ok true → Located files none path

/-- What a file gives, with the notices about it. Without a file there are the defaults. -/
inductive Provides (files : Files) (read : Path → Except Document.Fault Value) :
    Option Path → Settings → List Notice → Prop
  | defaults : (∀ p ∈ candidates, files.find p = .ok false) → Provides files read none {} []
  | file {asked : Option Path} {path : Path} {document : List (Value × Value)} {s : Settings} :
    Located files asked path → read path = .ok (.mapping document) → document ≠ [] →
    ofEntries document = .ok s → Provides files read asked s (notices document)

/-- The query that takes the place of that of the file, if one does. -/
def replacingQuery (overrides : Overrides) (vars : Variables) : Option Text :=
  match overrides.query with
  | some query => some query
  | none => Environment.nonEmpty vars.keywords

/-- The level of the command line, else that of the environment, else that of the file. -/
def firstLevel (overrides : Overrides) (vars : Variables) (s : Settings) : Text :=
  match Environment.nonEmpty overrides.level with
  | some level => level
  | none =>
    match Environment.nonEmpty vars.level with
    | some level => raise level
    | none => s.level.name

structure Prevails (overrides : Overrides) (vars : Variables) (base : Settings)
    (given : Environment) (s : Settings) (environment : Environment) : Prop where
  keywords : s.keywords = firstQuery overrides.query vars base
  workers : match Environment.nonEmpty vars.workers with
    | some t => Integer.ofText? t = some (s.workers : Int)
    | none => s.workers = base.workers
  logging : s.level = base.level ∧ s.format = base.format
  level : environment.level = some (firstLevel overrides vars base)
  label : environment.label = given.label
  asked : environment.keywords = given.keywords ∧ environment.workers = given.workers

theorem locate_eq_some {path : Path} :
    locate files asked = .ok (some path) ↔ Located files asked path := by
  constructor
  · intro h
    cases asked with
    | some p =>
      rw [locate] at h
      split at h <;> cases h
      next hf => exact .asked hf
    | none =>
      generalize hc : candidates = paths at h
      rw [locate, hc, firstFound_eq_iff] at h
      cases h with
      | found hb hf => exact .default hc hb hf
  · intro h
    cases h with
    | asked hf => rw [locate, hf]
    | default hc hb hf =>
      rw [locate, hc, firstFound_eq_iff]
      exact .found hb hf

theorem locate_eq_none :
    locate files asked = .ok none ↔ asked = none ∧ ∀ p ∈ candidates, files.find p = .ok false := by
  cases asked with
  | some p =>
    rw [locate]
    split <;> simp
  | none =>
    rw [locate, firstFound_eq_iff, and_iff_right rfl]
    generalize candidates = paths
    constructor
    · intro h
      cases h with
      | nothing hall => exact hall
    · exact .nothing

theorem ofValue_of_valid {document : List (Value × Value)} (hne : document ≠ [])
    (h : ofEntries document = .ok s) : ofValue (.mapping document) = ⟨notices document, .ok s⟩ := by
  rw [ofValue, if_neg (by simpa [isTruthy] using hne)]
  rw [noticesWritable_of_valid h, if_pos rfl, h]
  rfl

/-- The settings of a document are those that a mapping which is not empty gives. -/
theorem ofValue_eq_ok {v : Value} : ofValue v = ⟨ns, .ok s⟩ ↔ ∃ document, v = .mapping document ∧
    document ≠ [] ∧ ofEntries document = .ok s ∧ ns = notices document := by
  constructor
  · intro h
    obtain ⟨document, rfl, hd⟩ := exists_mapping (congrArg Outcome.result h)
    have hne : document ≠ [] := by
      rintro rfl
      cases h
    rw [ofValue_of_valid hne hd, Outcome.mk.injEq] at h
    exact ⟨document, rfl, hne, hd, h.1.symm⟩
  · rintro ⟨document, rfl, hne, hd, rfl⟩
    exact ofValue_of_valid hne hd

/-- The settings of a file are what it provides, and nothing else is. -/
theorem fromFile_eq_ok : fromFile files read asked = ⟨loaded, .ok base⟩ ↔
    Provides files read asked base loaded := by
  constructor
  · intro h
    cases hl : locate files asked with
    | error f =>
      rw [fromFile, hl] at h
      cases h
    | ok found =>
      cases found with
      | none =>
        obtain ⟨rfl, hnone⟩ := locate_eq_none.1 hl
        rw [fromFile, hl] at h
        cases h
        exact .defaults hnone
      | some path =>
        rw [fromFile, hl] at h
        dsimp only at h
        cases hr : read path with
        | error fault =>
          rw [hr] at h
          cases h
        | ok v =>
          rw [hr] at h
          obtain ⟨document, rfl, hne, hd, rfl⟩ := ofValue_eq_ok.1 h
          exact .file (locate_eq_some.1 hl) hr hne hd
  · intro h
    cases h with
    | defaults hnone => rw [fromFile, locate_eq_none.2 ⟨rfl, hnone⟩]
    | file hl hr hne hd =>
      rw [fromFile, locate_eq_some.2 hl]
      dsimp only
      rw [hr]
      exact ofValue_of_valid hne hd

theorem load_eq_ok : load files read asked vars = ⟨loaded, .ok (base, given)⟩ ↔
    Provides files read asked base loaded ∧ Environment.ofVariables vars = .ok given := by
  rw [← fromFile_eq_ok, load]
  simp only [Outcome.mk.injEq, bind_eq_ok, mapError_eq_ok, pure_eq_ok, Prod.mk.injEq]
  constructor
  · rintro ⟨rfl, s, hs, environment, he, rfl, rfl⟩
    exact ⟨by rw [← hs], he⟩
  · rintro ⟨hf, he⟩
    rw [hf]
    exact ⟨rfl, base, rfl, given, he, rfl, rfl⟩

theorem prevails_override (overrides : Overrides) (base : Settings)
    (h : Environment.ofVariables vars = .ok given) :
    Prevails overrides vars base given (override overrides base given).1
      (override overrides base given).2 where
  keywords := keywords_override overrides base h
  workers := by
    have hw := Environment.readWorkers_eq_ok (Environment.workers_ofVariables h)
    show match Environment.nonEmpty vars.workers with
      | some t => Integer.ofText? t = some (given.workers.getD base.workers : Int)
      | none => given.workers.getD base.workers = base.workers
    cases hs : Environment.nonEmpty vars.workers with
    | none =>
      rw [hs] at hw
      rw [show given.workers = none from hw]
      rfl
    | some t =>
      rw [hs] at hw
      obtain ⟨n, hn, ht⟩ := hw
      rw [hn]
      exact ht
  logging := ⟨rfl, rfl⟩
  level := by
    have hl := Environment.nonEmpty_of_readLevel (Environment.level_ofVariables h)
    rw [firstLevel, override, hl]
    cases Environment.nonEmpty overrides.level with
    | some level => rfl
    | none => cases Environment.nonEmpty vars.level <;> rfl
  label := rfl
  asked := ⟨rfl, rfl⟩

/-- The sources leave no choice. -/
theorem Prevails.unique {s' : Settings} {environment' : Environment}
    (h : Prevails overrides vars base given s environment)
    (h' : Prevails overrides vars base given s' environment') :
    s = s' ∧ environment = environment' := by
  have hworkers : s.workers = s'.workers := by
    have hw := h.workers
    have hw' := h'.workers
    cases hs : Environment.nonEmpty vars.workers with
    | none =>
      rw [hs] at hw hw'
      exact hw.trans hw'.symm
    | some t =>
      rw [hs] at hw hw'
      exact Int.ofNat.inj (Option.some.inj (hw.symm.trans hw'))
  constructor
  · cases s
    cases s'
    rw [mk.injEq]
    exact ⟨h.keywords.trans h'.keywords.symm, hworkers, h.logging.1.trans h'.logging.1.symm,
      h.logging.2.trans h'.logging.2.symm⟩
  · cases environment
    cases environment'
    rw [Environment.mk.injEq]
    exact ⟨h.asked.1.trans h'.asked.1.symm, h.asked.2.trans h'.asked.2.symm,
      h.level.trans h'.level.symm, h.label.trans h'.label.symm⟩

/-- The settings to run with are those that prevail. -/
theorem override_eq_iff (h : Environment.ofVariables vars = .ok given) :
    override overrides base given = (s, environment) ↔
      Prevails overrides vars base given s environment := by
  constructor
  · intro he
    have hp := prevails_override overrides base h
    rwa [he] at hp
  · intro hp
    obtain ⟨hs, he⟩ := (prevails_override overrides base h).unique hp
    exact Prod.ext hs he

theorem overridingQuery_eq (h : Environment.ofVariables vars = .ok given) :
    overridingQuery overrides given = replacingQuery overrides vars := by
  rw [overridingQuery, Environment.keywords_ofVariables h, Environment.nonEmpty_nonEmpty,
    replacingQuery]
  cases overrides.query <;> rfl

/-- The settings to run with are those that prevail over what file and environment give, and the
notices about the file come before those about the query that takes the place of its query. -/
theorem resolve_iff_prevails : resolve files read asked vars overrides = ⟨ns, .ok (s, environment)⟩ ↔
    ∃ base given loaded, load files read asked vars = ⟨loaded, .ok (base, given)⟩ ∧
      Provides files read asked base loaded ∧
      Prevails overrides vars base given s environment ∧
      ns = loaded ++ queryNotices (replacingQuery overrides vars) := by
  constructor
  · intro h
    rw [resolve] at h
    dsimp only at h
    cases hl : load files read asked vars with
    | mk loaded result =>
      rw [hl] at h
      cases result with
      | error f => cases h
      | ok both =>
        obtain ⟨base, given⟩ := both
        obtain ⟨hp, he⟩ := load_eq_ok.1 hl
        dsimp only at h
        rw [Outcome.mk.injEq, Except.ok.injEq, overridingQuery_eq he] at h
        exact ⟨base, given, loaded, rfl, hp, (override_eq_iff he).1 h.2, h.1.symm⟩
  · rintro ⟨base, given, loaded, hl, -, hp, rfl⟩
    have he := (load_eq_ok.1 hl).2
    rw [resolve, hl]
    dsimp only
    rw [overridingQuery_eq he, (override_eq_iff he).2 hp]
    rfl

/-- The query of the environment replaces that of the file, and both draw a notice. The level of the
environment is the one to log at, while that of the file stays among the settings. -/
example :
    let document : Value := .mapping
      [(.text "filter", .mapping [(.text "keywords", .text "flood,\"jam")]),
        (.text "logging", .mapping [(.text "level", .text "DEBUG")])]
    let vars : Variables :=
      { keywords := some "storm,\"".toList, workers := some "08".toList,
        level := some "warning".toList }
    let files : Files := { look := fun _ => .ok (), content := fun _ => .ok [] }
    let outcome := resolve files (fun _ => .ok document) none vars { level := some [] }
    outcome.notices = [.oddQuote, .oddQuote] ∧ outcome.result = .ok
      ({ keywords := some "storm,\"".toList, workers := 8, level := .debug },
        { keywords := some "storm,\"".toList, workers := some 8, level := some "WARNING".toList,
          label := "local" }) :=
  ⟨by decide +kernel, by rfl⟩

end Settings

end KeywordSieve
