import KeywordSieve.Proofs.Entries
import KeywordSieve.Proofs.Moves

/-!
Configurations of a session. One that is not valid changes nothing, and of the valid ones the last
alone decides who writes: a single writer, which writes one line for each call that is logged and
can be written out.
-/
namespace KeywordSieve.Log

open Text

def standardLevels : List Text :=
  ["CRITICAL", "FATAL", "ERROR", "WARNING", "WARN", "INFO", "DEBUG", "NOTSET"]

namespace Configuration

/-- A configuration that can be followed. The name of its level may be in letters of any case. -/
def IsValid (c : Configuration) : Prop :=
  raise c.level ∈ standardLevels ∧ (c.format = "json".toList ∨ c.format = "key-value".toList)

instance (c : Configuration) : Decidable c.IsValid := inferInstanceAs (Decidable (_ ∧ _))

end Configuration

theorem levelNumber?_eq_none {name : Text} : levelNumber? name = none ↔ name ∉ standardLevels := by
  have hl : standardLevels = levelNumbers.map Prod.fst := rfl
  rw [levelNumber?, List.lookup_eq_none_iff, hl, List.mem_map]
  constructor
  · rintro h ⟨p, hp, rfl⟩
    exact absurd (h p hp) (by simp)
  · intro h p hp
    rw [bne_iff_ne]
    rintro rfl
    exact h ⟨p, hp, rfl⟩

theorem ofName?_eq_none {t : Text} : LogFormat.ofName? t = none ↔
    ¬ (t = "json".toList ∨ t = "key-value".toList) := by
  rw [LogFormat.ofName?, List.find?_eq_none, LogFormat.all, List.forall_mem_cons,
    List.forall_mem_singleton, beq_iff_eq, beq_iff_eq, ← not_or]
  exact not_congr (or_congr eq_comm eq_comm)

namespace Journal

/-- A journal as a configuration wants it, whatever it was before. -/
def Follows (j : Journal) (c : Configuration) : Prop :=
  ∃ threshold format, levelNumber? (raise c.level) = some threshold ∧
    LogFormat.ofName? c.format = some format ∧
    j = { threshold, writers := [{ format, labels := { environment := c.environment } }] }

variable {c : Configuration}

/-- A configuration that cannot be followed leaves the journal as it is. -/
theorem reconfigure_of_not_isValid (j : Journal) (h : ¬ c.IsValid) :
    ∃ f, (reconfigure c).run j = .error f j := by
  rw [reconfigure]
  cases hl : levelNumber? (raise c.level) with
  | none => exact ⟨_, rfl⟩
  | some threshold =>
    cases hf : LogFormat.ofName? c.format with
    | none => exact ⟨_, rfl⟩
    | some format =>
      have hlevel : raise c.level ∈ standardLevels := by
        by_contra hn
        rw [levelNumber?_eq_none.2 hn] at hl
        cases hl
      have hformat : c.format = "json".toList ∨ c.format = "key-value".toList := by
        by_contra hn
        rw [ofName?_eq_none.2 hn] at hf
        cases hf
      exact absurd ⟨hlevel, hformat⟩ h

/-- One that can be followed is, whatever the journal was before. -/
theorem reconfigure_of_isValid (j : Journal) (h : c.IsValid) :
    ∃ j', (reconfigure c).run j = .ok () j' ∧ j'.Follows c := by
  rw [reconfigure]
  cases hl : levelNumber? (raise c.level) with
  | none => exact absurd h.1 (levelNumber?_eq_none.1 hl)
  | some threshold =>
    cases hf : LogFormat.ofName? c.format with
    | none => exact absurd h.2 (ofName?_eq_none.1 hf)
    | some format => exact ⟨_, rfl, threshold, format, hl, hf, rfl⟩

end Journal

namespace Session

variable {m : Moment} {s : Session} {c : Configuration}

theorem step_configure_of_not_isValid (m : Moment) (s : Session) (h : ¬ c.IsValid) :
    ∃ f, s.step m (.configure c) = (s, { fault := some (.configure f) }) := by
  obtain ⟨f, hf⟩ := Journal.reconfigure_of_not_isValid s.journal h
  refine ⟨f, ?_⟩
  simp only [Session.step, hf]

theorem step_configure_of_isValid (m : Moment) (s : Session) (h : c.IsValid) :
    ∃ j, s.step m (.configure c) = ({ s with journal := j },
        .ofCalls j s.context.fields m [Journal.configuredCall c]) ∧ j.Follows c := by
  obtain ⟨j, hf, hj⟩ := Journal.reconfigure_of_isValid s.journal h
  refine ⟨j, ?_, hj⟩
  simp only [Session.step, hf]

/-- Without a valid configuration the journal stays as it is. -/
theorem journal_after {steps : List Step} (h : ∀ c, .configure c ∈ steps → ¬ c.IsValid) :
    (after m s steps).journal = s.journal := by
  apply after_induct (P := fun s' => s'.journal = s.journal) rfl
  intro s' hs step hm
  rw [← hs]
  cases step with
  | configure c =>
    obtain ⟨f, hf⟩ := step_configure_of_not_isValid m s' (h c hm)
    rw [hf]
  | _ => exact (move_step m s' _).journal (by simp)

/-- The last valid configuration decides. -/
theorem follows_after {rest : List Step} (h : c.IsValid)
    (hr : ∀ c', .configure c' ∈ rest → ¬ c'.IsValid) :
    (after m s (.configure c :: rest)).journal.Follows c := by
  obtain ⟨j, hs, hj⟩ := step_configure_of_isValid m s h
  show (after m (s.step m (.configure c)).1 rest).journal.Follows c
  rw [journal_after hr, hs]
  exact hj

/-- A plain call that can be written out writes one line through a JSON writer, if its level is
logged. -/
theorem step_log {call : Call} {labels : Labels} (hw : s.journal.writers = [⟨.json, labels⟩])
    (hc : s.context.fields.AreScalar) (hcw : s.context.fields.AreWritable) (hl : 0 < call.level)
    (h : call.IsPlain) (hcall : call.IsWritable) (ht : Time.HasStamp m.time) :
    ∃ t, '\n' ∉ t ∧ s.step m (.log call) =
      (s, { entries := if s.journal.threshold ≤ call.level then [.line t] else [] }) := by
  obtain ⟨stamp, hs⟩ := Time.exists_stamp ht
  obtain ⟨fs, hf, hfree⟩ := h.exists_fields
  refine ⟨_, Json.lineFeed_not_mem_ofFields
    (call.lineFields m stamp fs labels s.context.fields), ?_⟩
  have hline := Journal.written_dressed (c := call) labels hfree (hcall.fields hf) hc
    hcw hs
  have hlog := Journal.log_json (m := m) hw hcall.level h hc
  rw [Journal.emitted_json hw hcall.level hf hfree, Journal.isEnabled, decide_eq_true hl,
    Bool.true_and] at hlog
  rw [Session.step, Effect.ofCalls, Journal.logAll, hlog]
  by_cases hlevel : (s.journal.threshold : Int) ≤ call.level
  · simp [hlevel, hline, Journal.logAll]
  · simp [hlevel, Journal.logAll]

/-- What configurations do after any steps. -/
theorem last_configuration_decides (m : Moment) (before rest : List Step) (c : Configuration) :
    let s := after m {} before
    let t := after m s (.configure c :: rest)
    ((∃ f, (s.step m (.configure c)).2.fault = some (.configure f)) ↔ ¬ c.IsValid) ∧
    (¬ c.IsValid → (s.step m (.configure c)).1 = s ∧ (s.step m (.configure c)).2.entries = []) ∧
    (s.step m (.configure c)).1.context = s.context ∧
    (c.IsValid → (∀ c', .configure c' ∈ rest → ¬ c'.IsValid) →
      t.journal.Follows c ∧
      (c.format = "json".toList → t.context.fields.AreScalar → t.context.fields.AreWritable →
        ∀ (now : Moment) (call : Call), Time.HasStamp now.time → 0 < call.level → call.IsPlain →
          call.IsWritable → ∃ line, '\n' ∉ line ∧ t.step now (.log call) =
            (t, { entries := if t.journal.threshold ≤ call.level then [.line line] else [] }))) := by
  intro s t
  refine ⟨?_, ?_, ?_, ?_⟩
  · constructor
    · rintro ⟨f, hf⟩ hv
      obtain ⟨j, hs, -⟩ := step_configure_of_isValid m s hv
      rw [hs, Effect.ofCalls] at hf
      obtain ⟨fault, -, hfault⟩ := Option.map_eq_some_iff.1 hf
      cases hfault
    · intro hv
      obtain ⟨f, hs⟩ := step_configure_of_not_isValid m s hv
      exact ⟨_, by rw [hs]⟩
  · intro hv
    obtain ⟨f, hs⟩ := step_configure_of_not_isValid m s hv
    rw [hs]
    exact ⟨rfl, rfl⟩
  · rw [Session.step]
    split <;> rfl
  · intro hv hr
    have hj : t.journal.Follows c := follows_after hv hr
    refine ⟨hj, ?_⟩
    intro hjson hc hcw now call ht hl hp hw
    obtain ⟨threshold, format, -, hf, he⟩ := hj
    have hformat : format = .json := by
      rw [hjson] at hf
      exact (Option.some.inj hf).symm
    subst hformat
    exact step_log (by rw [he]) hc hcw hl hp hw ht

/-- The last configuration is not valid, and the one before it is followed from the level that it
names in small letters. -/
theorem last_configuration_decides_warning :
    let first := Step.configure { format := "json" }
    let c : Configuration := { level := "warning", format := "json", environment := some "test" }
    let wrong : Configuration := { level := "verbose", format := "json" }
    let page : Fields := [("page", .int 1)]
    let m : Moment := { time := 0 }
    let s := after m (after m {} [first]) (.configure c :: [.push page, .configure wrong])
    let call (level : Int) : Call :=
      { logger := "feedfilter", component := some "pipeline", level, message := "Done"
        extra := .fields [("kept", .int 2)] }
    s.journal.Follows c ∧
      (∃ line, s.step m (.log (call 40)) = (s, { entries := [.line line] })) ∧
      s.step m (.log (call 20)) = (s, {}) := by
  intro first c wrong page m s call
  have hv : c.IsValid := by decide +kernel
  have hr : ∀ c', .configure c' ∈ [Step.push page, .configure wrong] → ¬ c'.IsValid := by
    intro c' hm
    rcases List.mem_cons.1 hm with hp | hw
    · cases hp
    · cases List.mem_singleton.1 hw
      decide +kernel
  have hp : ∀ level, (call level).IsPlain := by
    intro level f hf
    rw [List.mem_singleton.1 hf]
    exact ⟨rfl, (by decide : Record.isClosed "kept" = false)⟩
  have hw : ∀ level, Value.isTooLong level = false → (call level).IsWritable := by
    intro level hl
    refine ⟨hl, fun fs hf => ?_⟩
    cases hf
    exact List.forall_mem_singleton.2 rfl
  have hfields : s.context.fields = page := rfl
  have hc : s.context.fields.AreScalar := by
    rw [hfields]
    exact List.forall_mem_singleton.2 rfl
  have hcw : s.context.fields.AreWritable := by
    rw [hfields]
    exact List.forall_mem_singleton.2 rfl
  obtain ⟨-, -, -, h⟩ := last_configuration_decides m [first] [.push page, .configure wrong] c
  obtain ⟨hj, hlog⟩ := h hv hr
  have ht : s.journal.threshold = 30 := by
    obtain ⟨threshold, format, hl, -, he⟩ := hj
    have hwarning : levelNumber? (raise c.level) = some 30 := by decide +kernel
    have hs : s.journal.threshold = threshold := congrArg Journal.threshold he
    rw [hs]
    exact Option.some.inj (hl.symm.trans hwarning)
  have hline : ∀ level, 0 < level → Value.isTooLong level = false →
      ∃ line, '\n' ∉ line ∧ s.step m (.log (call level)) =
        (s, { entries := if s.journal.threshold ≤ level then [.line line] else [] }) := by
    intro level hl hlong
    exact hlog rfl hc hcw m (call level) (by decide) hl (hp level) (hw level hlong)
  rw [ht] at hline
  refine ⟨hj, ?_, ?_⟩
  · obtain ⟨line, -, hs⟩ := hline 40 (by decide) (by decide)
    exact ⟨line, hs⟩
  · obtain ⟨line, -, hs⟩ := hline 20 (by decide) (by decide)
    exact hs

/-- A field that hides the message and an integer of too many digits leave a call without a line,
though its level is logged and its fields are scalars under names that no part of a record has. -/
theorem configured_without_line :
    let m : Moment := { time := 0 }
    let s := after m {} [.configure { format := "json" }]
    let call (extra : Fields) : Call :=
      { logger := "feedfilter", message := "Done", extra := .fields extra }
    let covering : Fields := [("getMessage", .int 1)]
    let long : Fields := [("n", .int Value.overlong)]
    s.journal.threshold ≤ 20 ∧ s.context.fields = [] ∧
      s.step m (.log (call covering)) = (s, {}) ∧ s.step m (.log (call long)) = (s, {}) ∧
      ∀ f ∈ covering ++ long, f.2.isScalar = true ∧ isReserved f.1 = false := by
  intro m s call covering long
  have hcovering : (s.step m (.log (call covering))).2 = {} := by decide +kernel
  have hlong : (s.step m (.log (call long))).2 = {} := by decide +kernel
  exact ⟨by decide, rfl, Prod.ext rfl hcovering, Prod.ext rfl hlong, by decide⟩

end Session

end KeywordSieve.Log
