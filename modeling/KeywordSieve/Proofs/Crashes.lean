import KeywordSieve.Proofs.Command
import KeywordSieve.Proofs.Undecodable

/-!
What ends the command instead of being reported. Files that cannot be opened, documents that are
malformed and values that are not valid are reported with exit code one. Not so what no settings file
can be looked for through, what the reader of documents fails at otherwise, numbers too long to be
written in a message, and characters that the output cannot show. Whoever opens and decodes the files
before they are parsed fails at a null character in a path and at bytes that are not UTF-8.
-/
namespace KeywordSieve

open Text

variable {files : Files} {path : Path} {bytes : List UInt8} {f : Fatal} {deepest : Nat}

namespace Document

theorem read_of_null (deepest : Nat) (files : Files) (h : '\x00' ∈ path.text) :
    read deepest files path = .error (.fatal .nullCharacter) := by
  rw [read, openAt, if_pos h]
  rfl

theorem ofBytes_of_text {t : Text} (h : Utf8.decode? bytes = some t) :
    ofBytes deepest bytes = (Yaml.read deepest (unifyLines t)).mapError .ofFailure := by
  rw [ofBytes, h]

/-- Bytes that are not UTF-8 end the program, if they are few. -/
theorem read_of_short (hp : 0 < deepest) (hn : '\x00' ∉ path.text)
    (hf : files.content path = .ok bytes) (hd : Utf8.decode? bytes = none)
    (hl : bytes.length < 2 * Pages.pageLength) :
    read deepest files path = .error (.fatal (.undecodable (Pages.readable bytes).2)) := by
  rw [read, openAt, if_neg hn, hf]
  exact ofBytes_of_short hp hd hl

end Document

namespace Settings

/-- What of the values in a settings file ends the program: numbers in them that a notice or a
fault would show. -/
inductive Unwritable (entries : List (Value × Value)) : Prop
  | notices : noticesWritable entries = false → Unwritable entries
  | faults {faults : List Fault} : noticesWritable entries = true →
    ofEntries entries = .error faults → faults.all Fault.isWritable = false → Unwritable entries

inductive Breaks (files : Files) (read : Path → Except Document.Fault Value)
    (asked : Option Path) : Fatal → Prop
  | asked {path : Path} {r : Refusal} : asked = some path → files.find path = .error r →
    Breaks files read asked (.refused r path)
  | default {path : Path} {before after : List Path} {r : Refusal} : asked = none →
    candidates = before ++ path :: after → (∀ p ∈ before, files.find p = .ok false) →
    files.find path = .error r → Breaks files read asked (.refused r path)
  | document {path : Path} {f : Fatal} : locate files asked = .ok (some path) →
    read path = .error (.fatal f) → Breaks files read asked f
  | values {path : Path} {entries : List (Value × Value)} :
    locate files asked = .ok (some path) → read path = .ok (.mapping entries) →
    entries ≠ [] → Unwritable entries → Breaks files read asked .unwritable

theorem ofValue_mapping {entries : List (Value × Value)} (h : entries ≠ []) :
    ofValue (.mapping entries) =
      if noticesWritable entries then ⟨notices entries, (ofEntries entries).mapError .ofFaults⟩
      else ⟨[], .error (.fatal .unwritable)⟩ := by
  rw [ofValue, if_neg (by simpa [Value.isTruthy] using h)]

theorem ofFaults_eq_fatal {faults : List Fault} :
    Failure.ofFaults faults = .fatal f ↔ faults.all Fault.isWritable = false ∧ f = .unwritable := by
  rw [Failure.ofFaults]
  cases faults.all Fault.isWritable <;> simp [eq_comm]

theorem mapping_eq_fatal {entries : List (Value × Value)} (h : entries ≠ []) :
    (ofValue (.mapping entries)).result = .error (.fatal f) ↔
      f = .unwritable ∧ Unwritable entries := by
  rw [ofValue_mapping h]
  constructor
  · intro hr
    split at hr
    · next hn =>
      cases he : ofEntries entries with
      | ok s =>
        rw [he] at hr
        cases hr
      | error faults =>
        rw [he] at hr
        obtain ⟨hu, hf⟩ := ofFaults_eq_fatal.1 (Except.error.inj hr)
        exact ⟨hf, .faults hn he hu⟩
    · next hn =>
      cases hr
      exact ⟨rfl, .notices (Bool.eq_false_iff.2 hn)⟩
  · rintro ⟨rfl, hu⟩
    cases hu with
    | notices hn => rw [hn]; rfl
    | faults hn he hu =>
      rw [if_pos hn, he]
      exact congrArg Except.error (ofFaults_eq_fatal.2 ⟨hu, rfl⟩)

theorem ofValue_eq_fatal {v : Value} : (ofValue v).result = .error (.fatal f) ↔
    f = .unwritable ∧ ∃ entries, v = .mapping entries ∧ entries ≠ [] ∧ Unwritable entries := by
  constructor
  · intro h
    cases v with
    | mapping entries =>
      by_cases hne : entries = []
      · subst hne
        cases h
      · obtain ⟨hf, hu⟩ := (mapping_eq_fatal hne).1 h
        exact ⟨hf, entries, rfl, hne, hu⟩
    | _ =>
      unfold ofValue at h
      split at h <;> cases h
  · rintro ⟨hf, entries, rfl, hne, hu⟩
    exact (mapping_eq_fatal hne).2 ⟨hf, hu⟩

theorem ofDocument_eq_fatal {fault : Document.Fault} :
    Failure.ofDocument path fault = .fatal f ↔ fault = .fatal f := by
  cases fault with
  | refused r => cases r <;> simp [Failure.ofDocument]
  | _ => simp [Failure.ofDocument]

section

variable {asked : Option Path} {read : Path → Except Document.Fault Value}

/-- The search for a settings file ends the program if looking is refused. -/
theorem Breaks.of_locate (h : locate files asked = .error (.fatal f)) : Breaks files read asked f := by
  cases asked with
  | some path =>
    rw [locate] at h
    split at h <;> cases h
    next r hr => exact .asked rfl hr
  | none =>
    generalize hc : candidates = paths at h
    rw [locate, hc, firstFound_eq_iff] at h
    cases h with
    | refused hb hr => exact .default rfl hc hb hr

theorem fromFile_of_fault {fault : Document.Fault} (hl : locate files asked = .ok (some path))
    (hd : read path = .error fault) :
    (fromFile files read asked).result = .error (.ofDocument path fault) := by
  rw [fromFile, hl]
  dsimp only
  rw [hd]

theorem fromFile_of_value {v : Value} (hl : locate files asked = .ok (some path))
    (hd : read path = .ok v) : (fromFile files read asked).result = (ofValue v).result := by
  rw [fromFile, hl]
  dsimp only
  rw [hd]

/-- The settings file ends the program just when something about it breaks. -/
theorem fromFile_eq_fatal :
    (fromFile files read asked).result = .error (.fatal f) ↔ Breaks files read asked f := by
  constructor
  · intro h
    cases hl : locate files asked with
    | error failure =>
      rw [fromFile, hl] at h
      obtain rfl : failure = .fatal f := Except.error.inj h
      exact .of_locate hl
    | ok found =>
      cases found with
      | none =>
        rw [fromFile, hl] at h
        cases h
      | some path =>
        cases hd : read path with
        | error fault =>
          rw [fromFile_of_fault hl hd, Except.error.injEq, ofDocument_eq_fatal] at h
          exact .document hl (hd.trans (congrArg _ h))
        | ok v =>
          rw [fromFile_of_value hl hd] at h
          obtain ⟨rfl, entries, rfl, hne, hu⟩ := ofValue_eq_fatal.1 h
          exact .values hl hd hne hu
  · intro h
    cases h with
    | asked ha hr => rw [fromFile, ha, locate, hr]
    | @default path before after r ha hc hb hr =>
      have hs : firstFound files candidates = .error (.fatal (.refused r path)) := by
        rw [hc, firstFound_eq_iff]
        exact .refused hb hr
      rw [fromFile, ha, locate, hs]
    | document hl hd => rw [fromFile_of_fault hl hd, ofDocument_eq_fatal.2 rfl]
    | values hl hd hne hu =>
      rw [fromFile_of_value hl hd]
      exact ofValue_eq_fatal.2 ⟨rfl, _, rfl, hne, hu⟩

end

end Settings

namespace Feed

theorem ofDocument_fault_eq_fatal {fault : Document.Fault} :
    Failure.ofDocument fault = .fatal f ↔ fault = .fatal f := by
  cases fault with
  | refused r => cases r <;> simp [Failure.ofDocument]
  | _ => simp [Failure.ofDocument]

/-- Only the document can end the program, for its items are but reported. -/
theorem ofDocument_eq_fatal {document : Except Document.Fault Value} :
    ofDocument document = .error (.fatal f) ↔ document = .error (.fatal f) := by
  cases document with
  | error fault =>
    show Except.error (Failure.ofDocument fault) = _ ↔ _
    rw [Except.error.injEq, Except.error.injEq, ofDocument_fault_eq_fatal]
  | ok v =>
    show (ofValue v).mapError Failure.reported = _ ↔ _
    cases ofValue v <;> simp [Except.mapError]

end Feed

namespace Cli

variable {w : World} {a : Arguments} {c : Crash}

/-- What ends a command. The items are looked at only if the settings are in order, and the output is
written only if both are. -/
inductive Breaks (w : World) (a : Arguments) : Crash → Prop
  | settings {f : Fatal} : Settings.Breaks w.files w.read a.config f → Breaks w a (.fatal f)
  | items {r : Settings × Environment} {f : Fatal} : w.settings a = .ok r →
    w.read a.items = .error (.fatal f) → Breaks w a (.fatal f)
  | output {s : Settings} {environment : Environment} {items : List Feed.Item}
    {before after : Text} {c : Char} : w.settings a = .ok (s, environment) → w.items a = .ok items →
    (answer a.explain s.keywords items).flatten = before ++ c :: after →
    (∀ d ∈ before, w.encodes d = true) → w.encodes c = false → Breaks w a (.unencodable c)

inductive Reports (w : World) (a : Arguments) : Prop
  | settings {e : Settings.Error} : w.settings a = .error (.reported e) → Reports w a
  | items {r : Settings × Environment} {fault : Feed.Fault} : w.settings a = .ok r →
    w.items a = .error (.reported fault) → Reports w a

inductive Answers (w : World) (a : Arguments) : Prop
  | intro {s : Settings} {environment : Environment} {items : List Feed.Item} :
    w.settings a = .ok (s, environment) → w.items a = .ok items →
    w.Shows (answer a.explain s.keywords items) → Answers w a

/-- Nothing is written when a file ends a command. -/
theorem Breaks.crashed_fatal (h : Breaks w a (.fatal f)) :
    ∃ messages, w.run a = .crashed (.fatal f) [] messages := by
  obtain ⟨messages, he⟩ := run_eq_ending w a
  rw [ending] at he
  cases h with
  | settings hb =>
    have hs : w.settings a = .error (.fatal f) :=
      Settings.resolve_eq_fatal.2 (Settings.fromFile_eq_fatal.2 hb)
    rw [hs] at he
    exact ⟨_, he⟩
  | items hs hr =>
    have hl : w.items a = .error (.fatal f) := Feed.ofDocument_eq_fatal.2 hr
    rw [hs, hl] at he
    exact ⟨_, he⟩

/-- Whatever breaks a command ends it. -/
theorem Breaks.crashed (h : Breaks w a c) :
    ∃ output messages, w.run a = .crashed c output messages := by
  cases h with
  | settings hb => exact ⟨[], Breaks.crashed_fatal (.settings hb)⟩
  | items hs hr => exact ⟨[], Breaks.crashed_fatal (.items hs hr)⟩
  | output hs hl hc hb hn =>
    obtain ⟨messages, he⟩ := run_eq_ending w a
    obtain ⟨output, hd⟩ := World.deliver_of_not_shows hc hb hn messages
    rw [ending, hs, hl] at he
    exact ⟨_, _, he.trans hd⟩

theorem Reports.done (h : Reports w a) : ∃ o, w.run a = .done o ∧ o.exit = 1 := by
  obtain ⟨messages, he⟩ := run_eq_ending w a
  cases h with
  | settings hs =>
    rw [ending, hs] at he
    exact ⟨_, he, rfl⟩
  | items hs hl =>
    rw [ending, hs, hl] at he
    exact ⟨_, he, rfl⟩

theorem Answers.done (h : Answers w a) : ∃ o, w.run a = .done o ∧ o.exit = 0 := by
  cases h with
  | intro hs hl hshows => exact exists_done hs hl hshows

/-- Something breaks a command, or it reports something, or it answers. -/
theorem breaks_or_reports (w : World) (a : Arguments) :
    (∃ c, Breaks w a c) ∨ Reports w a ∨ Answers w a := by
  cases hs : w.settings a with
  | error failure =>
    cases failure with
    | fatal f =>
      have hb := Settings.fromFile_eq_fatal.1 (Settings.resolve_eq_fatal.1 hs)
      exact Or.inl ⟨_, .settings hb⟩
    | reported e => exact Or.inr (Or.inl (.settings hs))
  | ok r =>
    obtain ⟨s, environment⟩ := r
    cases hl : w.items a with
    | error failure =>
      cases failure with
      | fatal f => exact Or.inl ⟨_, .items hs (Feed.ofDocument_eq_fatal.1 hl)⟩
      | reported fault => exact Or.inr (Or.inl (.items hs hl))
    | ok items =>
      obtain hshows | ⟨before, c, after, hc, hb, hn⟩ :=
        w.shows_or_exists (answer a.explain s.keywords items)
      · exact Or.inr (Or.inr (.intro hs hl hshows))
      · exact Or.inl ⟨_, .output hs hl hc hb hn⟩

/-- A command ends with an exit code unless something breaks it, and with exit code one just when it
reports something. Where files are opened and decoded before they are parsed, a null character in the
path of the items breaks it, and so do bytes that are not UTF-8 if they are few. -/
theorem run_done_iff (w : World) (a : Arguments) :
    ((∃ o, w.run a = .done o) ↔ ∀ c, ¬ Breaks w a c) ∧
      (∀ c, (∃ output messages, w.run a = .crashed c output messages) ↔ Breaks w a c) ∧
      (∀ o, w.run a = .done o → o.exit = 0 ∨ o.exit = 1) ∧
      ((∃ o, w.run a = .done o ∧ o.exit = 1) ↔ Reports w a) ∧
      ∀ deepest, 0 < deepest → w.read = Document.read deepest w.files →
        ('\x00' ∈ a.items.text → (∃ r, w.settings a = .ok r) →
          ∃ messages, w.run a = .crashed (.fatal .nullCharacter) [] messages) ∧
        ∀ path bytes, Settings.locate w.files a.config = .ok (some path) ∨
            path = a.items ∧ (∃ r, w.settings a = .ok r) →
          w.files.content path = .ok bytes → '\x00' ∉ path.text → Utf8.decode? bytes = none →
            bytes.length < 2 * Pages.pageLength → ∃ messages, w.run a =
              .crashed (.fatal (.undecodable (Pages.readable bytes).2)) [] messages := by
  have hdone : ∀ {o}, w.run a = .done o → ∀ c, ¬ Breaks w a c := by
    intro o ho c hb
    obtain ⟨output, messages, hc⟩ := hb.crashed
    rw [ho] at hc
    cases hc
  refine ⟨⟨fun ⟨o, ho⟩ => hdone ho, ?_⟩, fun c => ⟨?_, Breaks.crashed⟩, ?_, ⟨?_, Reports.done⟩, ?_⟩
  · intro hn
    rcases breaks_or_reports w a with ⟨c, hb⟩ | hr | ha
    · exact absurd hb (hn c)
    · obtain ⟨o, ho, -⟩ := hr.done
      exact ⟨o, ho⟩
    · obtain ⟨o, ho, -⟩ := ha.done
      exact ⟨o, ho⟩
  · rintro ⟨output, messages, hc⟩
    rcases breaks_or_reports w a with ⟨c', hb⟩ | hr | ha
    · obtain ⟨output', messages', hc'⟩ := hb.crashed
      rw [hc] at hc'
      cases hc'
      exact hb
    · obtain ⟨o, ho, -⟩ := hr.done
      rw [hc] at ho
      cases ho
    · obtain ⟨o, ho, -⟩ := ha.done
      rw [hc] at ho
      cases ho
  · intro o ho
    rcases done_cases ho with ⟨he, -⟩ | ⟨he, -⟩
    · exact Or.inr he
    · exact Or.inl he
  · rintro ⟨o, ho, he⟩
    rcases breaks_or_reports w a with ⟨c, hb⟩ | hr | ha
    · exact absurd hb (hdone ho c)
    · exact hr
    · obtain ⟨o', ho', he'⟩ := ha.done
      rw [ho] at ho'
      cases ho'
      rw [he] at he'
      cases he'
  · intro deepest hp hread
    constructor
    · rintro hn ⟨r, hs⟩
      refine Breaks.crashed_fatal (.items hs ?_)
      rw [hread]
      exact Document.read_of_null deepest w.files hn
    · intro path bytes hpath hf hn hd hl
      have hb : w.read path = .error (.fatal (.undecodable (Pages.readable bytes).2)) := by
        rw [hread]
        exact Document.read_of_short hp hn hf hd hl
      rcases hpath with hpath | ⟨rfl, r, hs⟩
      · exact Breaks.crashed_fatal (.settings (.document hpath hb))
      · exact Breaks.crashed_fatal (.items hs hb)

/-- A world in which nothing is set and the items file is one byte that begins no character. -/
def garbled : World :=
  let content (path : Path) : Opened :=
    if path = .ofText "items.yaml" then .ok [0xff] else .error .absent
  let files : Files := { look := fun path => (fun _ => ()) <$> content path, content }
  { files
    read := Document.read 400 files
    encodes := fun _ => true
    vars := {}
    now := { time := 0 }
    runId := [] }

def garbledArguments : Arguments := { items := .ofText "items.yaml" }

theorem settings_garbled : ∃ r, garbled.settings garbledArguments = .ok r :=
  exists_ok (by decide +kernel)

theorem run_done_iff_garbled :
    (∃ r, garbled.settings garbledArguments = .ok r) ∧ Utf8.decode? [0xff] = none ∧
      ∃ messages, garbled.run garbledArguments =
        .crashed (.fatal (.undecodable (Pages.readable [0xff]).2)) [] messages := by
  obtain ⟨-, -, -, -, hread⟩ := run_done_iff garbled garbledArguments
  obtain ⟨-, hshort⟩ := hread 400 (by decide) rfl
  have hd : Utf8.decode? [0xff] = none := by decide
  refine ⟨settings_garbled, hd, ?_⟩
  exact hshort _ [0xff] (Or.inr ⟨rfl, settings_garbled⟩) rfl (by decide) hd (by decide)

/-- The byte is neither read nor reported. -/
theorem garbled_not_done : ¬ ∃ o, garbled.run garbledArguments = .done o := by
  rintro ⟨o, ho⟩
  obtain ⟨r, hs⟩ := settings_garbled
  have hb : garbled.read garbledArguments.items = .error (.fatal _) :=
    Document.read_of_short (by decide) (by decide) rfl (by decide) (by decide)
  obtain ⟨output, messages, hc⟩ := (Breaks.items hs hb).crashed
  rw [ho] at hc
  cases hc

end Cli

end KeywordSieve
