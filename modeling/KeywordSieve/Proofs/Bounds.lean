import KeywordSieve.Proofs.Resolving
import KeywordSieve.Proofs.Sections

/-!
The bounds of settings. Settings written back as a mapping are read again as they are, as long as
their number of workers is within the bounds of a settings file. That holds of the settings of every
file and of the defaults. Only an environment can ask for more workers, for it knows a least number
of them and no greatest one, so that the settings to run with may be none that a file could give.
-/
namespace KeywordSieve

open Text

namespace Environment

variable {vars : Variables} {environment : Environment} {setting : Option Text} {n : Nat}

theorem workers_ofVariables (h : ofVariables vars = .ok environment) :
    readWorkers vars.workers = .ok environment.workers := by
  rw [ofVariables] at h
  split at h
  · next hw _ =>
    cases h
    exact hw
  · cases h

/-- An environment asks for one worker at least. -/
theorem fewestWorkers_le (h : readWorkers setting = .ok (some n)) : Settings.fewestWorkers ≤ n := by
  rw [readWorkers] at h
  split at h
  · cases h
  · split at h
    · cases h
    · next i _ =>
      split at h
      · cases h
      · obtain rfl : i.toNat = n := by simpa using h
        rw [Settings.fewestWorkers]
        omega

end Environment

namespace Settings

open Value

variable {files : Files} {read : Path → Except Document.Fault Value} {asked : Option Path}
  {vars : Variables} {overrides : Overrides} {s : Settings} {environment : Environment}
  {document : List (Value × Value)}

def entries (s : Settings) : List (Value × Value) :=
  [(.text "filter", .mapping [(.text "keywords", (s.keywords.map .text).getD .null)]),
    (.text "pipeline", .mapping [(.text "max_workers", .int s.workers)]),
    (.text "logging", .mapping [(.text "level", .text s.level.name),
      (.text "format", .text s.format.name)])]

/-- Whether a number of workers is within the bounds of a settings file. -/
def IsBounded (n : Nat) : Prop := fewestWorkers ≤ n ∧ n ≤ mostWorkers

instance (n : Nat) : Decidable (IsBounded n) := inferInstanceAs (Decidable (_ ∧ _))

/-- Settings of a file that is valid are within the bounds. -/
theorem isBounded_of_valid (h : ofEntries document = .ok s) : IsBounded s.workers := by
  obtain ⟨-, -, hw, -, -⟩ := ofEntries_eq_ok.1 h
  cases hv : written? .workers document with
  | none =>
    rw [hw.of_missing hv]
    decide
  | some v => exact (readWorkers_eq_ok.1 (hw.of_written hv)).2

/-- Settings are read again as they are if their number of workers is within its bounds. -/
theorem ofEntries_entries : ofEntries s.entries = .ok s ↔ IsBounded s.workers := by
  refine ⟨isBounded_of_valid, fun h => ofEntries_eq_ok.2 ⟨?_, ?_, ?_, ?_, ?_⟩⟩
  · intro part
    cases part <;> exact ⟨_, rfl⟩
  · show readKeywords ((s.keywords.map .text).getD .null) = .ok s.keywords
    cases s.keywords <;> rfl
  · exact readWorkers_eq_ok.2 ⟨rfl, h⟩
  · show readName LogLevel.ofName? .notLevel (.text s.level.name) = .ok s.level
    cases s.level <;> rfl
  · show readName LogFormat.ofName? .notFormat (.text s.format.name) = .ok s.format
    cases s.format <;> rfl

theorem exists_mapping {v : Value} (h : (ofValue v).result = .ok s) :
    ∃ document, v = .mapping document ∧ ofEntries document = .ok s := by
  cases v with
  | mapping document =>
    unfold ofValue at h
    split at h
    · cases h
    · dsimp only at h
      split at h
      · exact ⟨document, rfl, mapError_eq_ok.1 h⟩
      · cases h
  | _ =>
    unfold ofValue at h
    split at h <;> cases h

/-- The settings of a file are those that some mapping gives; the defaults are those of an empty
one. -/
theorem exists_document (h : (fromFile files read asked).result = .ok s) :
    ∃ document, ofEntries document = .ok s := by
  rw [fromFile] at h
  split at h
  · cases h
  · cases h
    exact ⟨[], rfl⟩
  · split at h
    · cases h
    · obtain ⟨document, -, hd⟩ := exists_mapping h
      exact ⟨document, hd⟩

/-- The settings to run with have a worker at least, and not more than a file may ask for unless
the environment asks for exactly that many. Their level and format have names that a file may hold,
so they are settings that a file can give if they have not too many workers. -/
theorem bounds_of_resolve
    (h : (resolve files read asked vars overrides).result = .ok (s, environment)) :
    fewestWorkers ≤ s.workers ∧
      (Environment.readWorkers vars.workers = .ok none ∧ s.workers ≤ mostWorkers ∨
        Environment.readWorkers vars.workers = .ok (some s.workers)) ∧
      s.level.name ∈ ["DEBUG".toList, "INFO".toList, "WARNING".toList, "ERROR".toList,
        "CRITICAL".toList] ∧
      s.format.name ∈ ["json".toList, "key-value".toList] ∧
      (ofEntries s.entries = .ok s ↔ s.workers ≤ mostWorkers) := by
  obtain ⟨base, env, hfile, hvars, hs⟩ := resolve_eq_ok.1 h
  obtain ⟨document, hd⟩ := exists_document hfile
  obtain ⟨hl, hu⟩ := isBounded_of_valid hd
  have hread := Environment.workers_ofVariables hvars
  have hworkers : s.workers = env.workers.getD base.workers := by
    rw [override, Prod.mk.injEq] at hs
    rw [← hs.1]
  have hfewest : fewestWorkers ≤ s.workers := by
    cases hn : env.workers with
    | none => simpa [hworkers, hn] using hl
    | some n =>
      rw [hn] at hread
      simpa [hworkers, hn] using Environment.fewestWorkers_le hread
  refine ⟨hfewest, ?_, ?_, ?_, ?_⟩
  · cases hn : env.workers with
    | none =>
      rw [hn] at hread hworkers
      exact Or.inl ⟨hread, hworkers ▸ hu⟩
    | some n =>
      rw [hn] at hread hworkers
      exact Or.inr (hworkers ▸ hread)
  · cases s.level <;> decide
  · cases s.format <;> decide
  · rw [ofEntries_entries, IsBounded]
    exact and_iff_right hfewest

/-- The environment asks for other workers than the file, and the command line for another level. -/
theorem bounds_of_resolve_file :
    let files : Files := { look := fun _ => .ok (), content := fun _ => .ok [] }
    let read : Path → Except Document.Fault Value := fun _ => .ok (.mapping
      [(.text "pipeline", .mapping [(.text "max_workers", .int 16)]),
        (.text "logging", .mapping [(.text "level", .text "DEBUG")])])
    let vars : Variables := { workers := some "8".toList }
    let overrides : Overrides := { query := some "flood".toList, level := some "ERROR".toList }
    ∃ s environment, (resolve files read none vars overrides).result = .ok (s, environment) ∧
      s = { keywords := some "flood".toList, workers := 8, level := .debug } ∧
      environment.level = some "ERROR".toList ∧
      Environment.readWorkers vars.workers = .ok (some s.workers) ∧
      ofEntries s.entries = .ok s := by
  intro files read vars overrides
  obtain ⟨s, environment, h, rfl, hl⟩ : ∃ s environment,
      (resolve files read none vars overrides).result = .ok (s, environment) ∧
        s = { keywords := some "flood".toList, workers := 8, level := .debug } ∧
        environment.level = some "ERROR".toList := ⟨_, _, rfl, rfl, rfl⟩
  obtain ⟨-, hworkers, -, -, hiff⟩ := bounds_of_resolve h
  have hset : Environment.readWorkers vars.workers ≠ .ok none := nofun
  exact ⟨_, environment, h, rfl, hl, hworkers.resolve_left fun hn => hset hn.1,
    hiff.2 (by decide)⟩

/-- An environment may ask for more workers than any file. -/
theorem workers_unbounded :
    let files : Files :=
      { look := fun _ => .error .absent, content := fun _ => .error .absent }
    let read : Path → Except Document.Fault Value := fun _ => .error (.refused .absent)
    ∃ s environment,
      (resolve files read none { workers := some "100".toList } {}).result = .ok (s, environment) ∧
        s.workers = 100 ∧ mostWorkers < s.workers ∧ ofEntries s.entries ≠ .ok s := by
  intro files read
  refine ⟨_, _, rfl, rfl, by decide, ?_⟩
  rw [Ne, ofEntries_entries]
  decide

end Settings

end KeywordSieve
