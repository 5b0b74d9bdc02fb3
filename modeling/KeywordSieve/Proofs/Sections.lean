import KeywordSieve.Proofs.Success
import KeywordSieve.Settings.Reading

/-!
The settings that a mapping gives. Each of them stands under its name in its section, or has its
default, and a mapping gives settings exactly if all of its sections are mappings and all values
that are written in them can be read.
-/
namespace KeywordSieve.Settings

open Text Value

variable {α β : Type} {document : List (Value × Value)} {e : Entry} {default a : α} {b : β}
  {read : Value → Except Cause α} {v : Value} {n : Nat} {s : Settings}

theorem both_eq_ok {x : Checked α} {y : Checked β} :
    both x y = .ok (a, b) ↔ x = .ok a ∧ y = .ok b := by
  cases x <;> cases y <;> simp [both]

/-- A section that is missing, or a mapping. -/
def HasSection (document : List (Value × Value)) (part : Section) : Prop :=
  ∃ entries, sectionOf part document = .ok entries

/-- What a setting is, if its value can be read. -/
def Gives (e : Entry) (default : α) (read : Value → Except Cause α)
    (document : List (Value × Value)) (a : α) : Prop :=
  match written? e document with
  | none => a = default
  | some v => read v = .ok a

theorem Gives.of_written (h : Gives e default read document a) (hw : written? e document = some v) :
    read v = .ok a := by
  simpa [Gives, hw] using h

theorem Gives.of_missing (h : Gives e default read document a) (hw : written? e document = none) :
    a = default := by
  simpa [Gives, hw] using h

theorem entryOf_eq_ok (e : Entry) {entries : List (Value × Value)}
    (h : sectionOf e.home document = .ok entries) :
    entryOf e default read entries = .ok a ↔ Gives e default read document a := by
  have hw : written? e document = Value.lookup e.name entries := by
    rw [sectionOf] at h
    rw [written?]
    cases hl : Value.lookup e.home.name document with
    | none =>
      rw [hl] at h
      cases h
      rfl
    | some v =>
      rw [hl] at h
      cases v <;> simp_all
  rw [Gives, hw, entryOf]
  cases Value.lookup e.name entries with
  | none => simp [eq_comm]
  | some v => simp

/-- A mapping gives settings if its sections are in order, and each setting is what it gives. -/
theorem ofEntries_eq_ok : ofEntries document = .ok s ↔
    (∀ part, HasSection document part) ∧ Gives .keywords none readKeywords document s.keywords ∧
      Gives .workers 1 readWorkers document s.workers ∧
      Gives .level .info (readName LogLevel.ofName? .notLevel) document s.level ∧
      Gives .format .keyValue (readName LogFormat.ofName? .notFormat) document s.format := by
  simp only [ofEntries, bind_eq_ok, both_eq_ok, Prod.exists, pure_eq_ok]
  constructor
  · rintro ⟨keywords, workers, level, format, ⟨⟨filter, hfilter, hk⟩, ⟨pipeline, hpipeline, hw⟩,
      logging, hlogging, hl, hf⟩, rfl⟩
    refine ⟨?_, (entryOf_eq_ok .keywords hfilter).1 hk, (entryOf_eq_ok .workers hpipeline).1 hw,
      (entryOf_eq_ok .level hlogging).1 hl, (entryOf_eq_ok .format hlogging).1 hf⟩
    intro part
    cases part with
    | filter => exact ⟨filter, hfilter⟩
    | pipeline => exact ⟨pipeline, hpipeline⟩
    | logging => exact ⟨logging, hlogging⟩
  · rintro ⟨hs, hk, hw, hl, hf⟩
    obtain ⟨filter, hfilter⟩ := hs .filter
    obtain ⟨pipeline, hpipeline⟩ := hs .pipeline
    obtain ⟨logging, hlogging⟩ := hs .logging
    exact ⟨s.keywords, s.workers, s.level, s.format,
      ⟨⟨filter, hfilter, (entryOf_eq_ok .keywords hfilter).2 hk⟩,
        ⟨pipeline, hpipeline, (entryOf_eq_ok .workers hpipeline).2 hw⟩,
        logging, hlogging, (entryOf_eq_ok .level hlogging).2 hl,
        (entryOf_eq_ok .format hlogging).2 hf⟩, rfl⟩

/-- A number of workers that can be read is within its bounds. -/
theorem readWorkers_eq_ok :
    readWorkers v = .ok n ↔ readInteger v = .ok (n : Int) ∧ fewestWorkers ≤ n ∧ n ≤ mostWorkers := by
  rw [readWorkers]
  simp only [bind_eq_ok]
  constructor
  · rintro ⟨i, hi, h⟩
    split at h
    · cases h
    · split at h
      · cases h
      · obtain rfl : i.toNat = n := pure_eq_ok.1 h
        rw [hi]
        exact ⟨congrArg Except.ok (by omega), by omega, by omega⟩
  · rintro ⟨hi, hl, hu⟩
    refine ⟨n, hi, ?_⟩
    rw [if_neg (by omega), if_neg (by omega)]
    rfl

end KeywordSieve.Settings
