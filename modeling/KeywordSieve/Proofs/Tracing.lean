import KeywordSieve.Proofs.Configuring
import KeywordSieve.Proofs.Scheduling
import KeywordSieve.Proofs.Unfailing
import Mathlib.Data.List.Forall2

/-!
The records of a run. With JSON lines from the level of debugging on, a run tells of its start, of
each item in order, and of its end, and each of these records carries the identifier of the run,
whatever the context says. Each has one line, unless an integer of the context is too long. Behind
the run the context is what it was.
-/
namespace KeywordSieve

open Text Query

namespace Log

variable {given context : Fields} {labels : Labels} {c : Call} {m : Moment} {id : Text}
  {r : Record}

/-- Whether a field of this name stands in a line as the call gives it. -/
def isShown (k : Text) : Bool :=
  !Record.isClosed k && !isHidden k && k != "service".toList && k != "environment".toList &&
    k != "component".toList

/-- A record that carries the identifier of a run, and some fields. -/
def Carries (id : Text) (wanted : Fields) (r : Record) : Prop :=
  r.fields.get? runId = some (.text id) ∧ ∀ f ∈ wanted, r.fields.get? f.1 = some f.2

/-- A line that carries the identifier of a run, and some fields. -/
def Traced (id : Text) (wanted : Fields) (e : Entry) : Prop :=
  ∃ fields : Fields, e = .line (Json.ofFields fields).render ∧ fields.keys.Nodup ∧
    fields.get? runId = some (.text id) ∧ ∀ f ∈ wanted, fields.get? f.1 = some f.2

def debugJournal (labels : Labels) : Journal := { threshold := 10, writers := [⟨.json, labels⟩] }

structure Call.Tells (c : Call) (given : Fields) : Prop where
  level : 10 ≤ c.level
  short : Value.isTooLong c.level = false
  extra : c.extra = .fields given
  scalar : given.AreScalar
  nodup : given.keys.Nodup
  shown : ∀ k ∈ given.keys, isShown k = true ∧ k ≠ runId

theorem isShown_iff {k : Text} : isShown k = true ↔ Record.isClosed k = false ∧ isHidden k = false ∧
    k ≠ "service".toList ∧ k ≠ "environment".toList ∧ k ≠ "component".toList := by
  simp only [isShown, Bool.and_eq_true, Bool.not_eq_true', bne_iff_ne, and_assoc]

namespace Call.Tells

theorem isPlain (h : c.Tells given) : c.IsPlain :=
  .of_fields h.extra h.scalar fun k hk => (isShown_iff.1 (h.shown k hk).1).1

/-- The record of such a call. -/
theorem emitted (h : c.Tells given) (labels : Labels) (context : Fields) (m : Moment) :
    ∃ fs, c.fields = .ok fs ∧ fs.AreFree ∧
      (debugJournal labels).emitted context m [c] = [c.dressed m fs labels context] := by
  obtain ⟨fs, hf, hfree⟩ := h.isPlain.exists_fields
  have henabled : (debugJournal labels).isEnabled c.level = true := by
    have hpos : 0 < c.level := Int.lt_of_lt_of_le (by decide) h.level
    have hlevel : ((debugJournal labels).threshold : Int) ≤ c.level := h.level
    rw [Journal.isEnabled, decide_eq_true hpos, decide_eq_true hlevel]
    rfl
  refine ⟨fs, hf, hfree, ?_⟩
  rw [Journal.emitted_json rfl h.short hf hfree, if_pos henabled]

/-- Its fields stand in the record as they are given, and the identifier comes from the context. -/
theorem get?_dressed (h : c.Tells given) {fs : Fields} (hf : c.fields = .ok fs)
    (hid : context.get? runId = some (.text id)) :
    Carries id given (c.dressed m fs labels context) := by
  constructor
  · have hnone : given.get? runId = none := by
      rw [Fields.get?_eq_none]
      intro hm
      exact (h.shown _ hm).2 rfl
    rw [Call.get?_dressed (by decide) (by decide),
      Call.get?_fields hf h.extra h.nodup (by decide), hnone]
    exact hid
  · intro f hm
    obtain ⟨-, -, hservice, henvironment, hcomponent⟩ :=
      isShown_iff.1 (h.shown f.1 (List.mem_map_of_mem hm)).1
    rw [Call.get?_dressed hservice henvironment, Call.get?_fields hf h.extra h.nodup hcomponent,
      Fields.get?_of_mem h.nodup hm, Option.some_or]

/-- The record has a line if its fields and those of the context can be written out. -/
theorem written (h : c.Tells given) (hw : given.AreWritable) (hc : context.AreScalar)
    (hcw : context.AreWritable) {stamp : Text} (ht : Time.stamp m.time = .ok stamp)
    (hr : r ∈ (debugJournal labels).emitted context m [c]) :
    r.fields.keys.Nodup ∧
      Journal.written r = some (.line (Json.ofFields (Line.plainFields stamp r)).render) := by
  obtain ⟨fs, hf, hfree, he⟩ := h.emitted labels context m
  rw [he, List.mem_singleton] at hr
  subst hr
  have hwritable : c.IsWritable := by
    refine ⟨h.short, fun other ho => ?_⟩
    rw [h.extra] at ho
    cases ho
    exact hw
  exact ⟨Call.nodup_dressed, Journal.written_dressed labels hfree (hwritable.fields hf) hc hcw ht⟩

end Call.Tells

/-- What a record carries stands in its line, if it is shown. -/
theorem Carries.traced {stamp : Text} (h : Carries id given r) (hn : r.fields.keys.Nodup)
    (hshown : ∀ k ∈ given.keys, isShown k = true) :
    Traced id given (.line (Json.ofFields (Line.plainFields stamp r)).render) := by
  have hget : ∀ k v, isHidden k = false → r.fields.get? k = some v →
      (Line.plainFields stamp r).get? k = some v := by
    intro k v hh hv
    rw [Line.get?_plainFields hn, hh, hv]
    rfl
  have hidentity : (Fields.keys (Line.identity stamp r)).Nodup :=
    (by decide : ["timestamp".toList, "level", "logger", "message"].Nodup)
  refine ⟨_, rfl, Fields.nodup_setAll hidentity, hget _ _ (by decide) h.1, fun f hf => ?_⟩
  exact hget _ _ (isShown_iff.1 (hshown f.1 (List.mem_map_of_mem hf))).2.1 (h.2 f hf)

/-- The records of calls that tell something carry it, in order. -/
theorem forall₂_emitted (labels : Labels) (m : Moment) {α : Type} (xs : List α)
    {wanted : α → Fields} {call : α → Call} (h : ∀ x ∈ xs, (call x).Tells (wanted x))
    (hid : context.get? runId = some (.text id)) :
    List.Forall₂ (Carries id) (xs.map wanted)
      ((debugJournal labels).emitted context m (xs.map call)) := by
  induction xs with
  | nil => exact .nil
  | cons x xs ih =>
    rw [List.forall_mem_cons] at h
    obtain ⟨fs, hf, -, he⟩ := h.1.emitted labels context m
    rw [List.map_cons, List.map_cons, Journal.emitted_cons, he, List.singleton_append]
    exact .cons (h.1.get?_dressed hf hid) (ih h.2)

/-- Records that carry something and all have lines are traced in order. -/
theorem forall₂_written (stamp : Text) {wanted : List Fields} {records : List Record}
    (h : List.Forall₂ (Carries id) wanted records)
    (hshown : ∀ given ∈ wanted, ∀ k ∈ given.keys, isShown k = true)
    (hw : ∀ r ∈ records, r.fields.keys.Nodup ∧
      Journal.written r = some (.line (Json.ofFields (Line.plainFields stamp r)).render)) :
    List.Forall₂ (Traced id) wanted (records.filterMap Journal.written) := by
  induction h with
  | nil => exact .nil
  | cons hcarries _ ih =>
    rw [List.forall_mem_cons] at hshown hw
    rw [List.filterMap_cons, hw.1.2]
    exact .cons (hcarries.traced hw.1.1 hshown.1) (ih hshown.2 hw.2)

theorem Journal.eq_debugJournal {old j : Journal} {config : Configuration}
    (hlevel : raise config.level = "DEBUG".toList) (hformat : config.format = "json".toList)
    (h : (Journal.reconfigure config).run old = .ok () j) :
    j = debugJournal { environment := config.environment } := by
  have hvalid : config.IsValid := ⟨by rw [hlevel]; decide, Or.inl hformat⟩
  obtain ⟨j', h', threshold, format, hl, hf, hj⟩ := Journal.reconfigure_of_isValid old hvalid
  rw [h] at h'
  cases h'
  rw [hlevel] at hl
  rw [hformat] at hf
  cases hl
  cases hf
  exact hj

end Log

namespace Pipeline

open Log (Fields Carries Traced runId)

def startedFields (items : List Feed.Item) : Fields :=
  [("event", .text "pipeline.run.started"), ("item_count", .int items.length),
    ("max_workers", .int 1)]

def evaluatedFields (v : Verdict) : Fields :=
  [("event", .text "filter.item.evaluated"), ("decision", .text v.decision.name),
    ("reason", .text v.reason), ("overridden", .bool v.wasOverridden)]

def completedFields (r : Run) : Fields :=
  [("event", .text "pipeline.run.completed"),
    ("duration_seconds", .float (r.seconds.roundPlaces 3)), ("total_items", .int r.total),
    ("kept_count", .int r.kept), ("excluded_count", .int r.excluded),
    ("overridden_count", .int r.overridden), ("unmatched_count", .int r.unmatched)]

theorem startedCall_tells (f : Filter) (items : List Feed.Item) :
    (startedCall ⟨f, 1⟩ items).Tells (startedFields items) where
  level := (by decide : (10 : Int) ≤ 20)
  short := (by decide : Value.isTooLong 20 = false)
  extra := rfl
  scalar := List.all_eq_true.1 rfl
  nodup := (by decide : ["event".toList, "item_count", "max_workers"].Nodup)
  shown := (by decide : ∀ k ∈ ["event".toList, "item_count", "max_workers"], _)

theorem evaluatedCall_tells (e : Feed.Item × Verdict) :
    (evaluatedCall e).Tells (evaluatedFields e.2) where
  level := (by decide : (10 : Int) ≤ 10)
  short := (by decide : Value.isTooLong 10 = false)
  extra := rfl
  scalar := List.all_eq_true.1 rfl
  nodup := (by decide : ["event".toList, "decision", "reason", "overridden"].Nodup)
  shown := (by decide : ∀ k ∈ ["event".toList, "decision", "reason", "overridden"], _)

theorem completedCall_tells (r : Run) : (completedCall r).Tells (completedFields r) where
  level := (by decide : (10 : Int) ≤ 20)
  short := (by decide : Value.isTooLong 20 = false)
  extra := rfl
  scalar := List.all_eq_true.1 rfl
  nodup := (by decide : ["event".toList, "duration_seconds", "total_items", "kept_count",
    "excluded_count", "overridden_count", "unmatched_count"].Nodup)
  shown := (by decide : ∀ k ∈ ["event".toList, "duration_seconds", "total_items", "kept_count",
    "excluded_count", "overridden_count", "unmatched_count"], _)

/-- What a run with one worker tells. -/
def toldFields (f : Filter) (items : List Feed.Item) (r : Run) : List Fields :=
  startedFields items :: items.map (fun item => evaluatedFields (f.evaluate item.subject)) ++
    [completedFields r]

/-- The counts of a run are written out if the number of its items is. -/
theorem areWritable_toldFields {f : Filter} {items : List Feed.Item} {r : Run}
    (h : items.length < 10 ^ Value.mostDigits) (hr : r.total = items.length) :
    ∀ given ∈ toldFields f items r, given.AreWritable := by
  have hcount : ∀ n ≤ r.total, Value.isTooLong n = false :=
    fun n hn => Value.isTooLong_natCast (Nat.lt_of_le_of_lt (hr ▸ hn) h)
  have hverdicts : r.verdicts.length = r.total := List.length_map _
  have hpart : ∀ p : Verdict → Bool, Value.isTooLong (r.verdicts.countP p) = false :=
    fun p => hcount _ (hverdicts ▸ List.countP_le_length)
  intro given hg
  simp only [toldFields, List.mem_append, List.mem_cons, List.mem_map, List.not_mem_nil,
    or_false] at hg
  rcases hg with (rfl | ⟨item, -, rfl⟩) | rfl
  · have hone : Value.isTooLong 1 = false := by decide
    simp [Log.Fields.AreWritable, startedFields, Value.isWritable, ← hr, hcount, hone]
  · simp [Log.Fields.AreWritable, evaluatedFields, Value.isWritable]
  · simp [Log.Fields.AreWritable, completedFields, Value.isWritable, hcount, Run.kept,
      Run.excluded, Run.overridden, Run.unmatched, hpart]

/-- All that is told is shown. -/
theorem isShown_toldFields (f : Filter) (items : List Feed.Item) (r : Run) :
    ∀ given ∈ toldFields f items r, ∀ k ∈ given.keys, Log.isShown k = true := by
  intro given hg k hk
  simp only [toldFields, List.mem_append, List.mem_cons, List.mem_map, List.not_mem_nil,
    or_false] at hg
  rcases hg with (rfl | ⟨item, -, rfl⟩) | rfl
  · exact ((startedCall_tells f items).shown k hk).1
  · exact ((evaluatedCall_tells (item, f.evaluate item.subject)).shown k hk).1
  · exact ((completedCall_tells r).shown k hk).1

/-- Each call of a run with one worker tells something of it. -/
theorem calls_tell (f : Filter) (c : Circumstances) (items : List Feed.Item) :
    let r := run ⟨f, 1⟩ c items
    ∀ call ∈ calls ⟨f, 1⟩ items r, ∃ given ∈ toldFields f items r, call.Tells given := by
  intro r call hm
  simp only [calls, List.mem_append, List.mem_cons, List.mem_map, List.not_mem_nil, or_false] at hm
  rcases hm with (rfl | ⟨e, he, rfl⟩) | rfl
  · exact ⟨_, by simp [toldFields], startedCall_tells f items⟩
  · refine ⟨_, ?_, evaluatedCall_tells e⟩
    have he : e ∈ items.map fun item => (item, f.evaluate item.subject) := by
      rwa [← evaluations_single f c items]
    obtain ⟨item, hi, rfl⟩ := List.mem_map.1 he
    simp only [toldFields, List.mem_append, List.mem_cons, List.mem_map]
    exact .inl (.inr ⟨item, hi, rfl⟩)
  · exact ⟨_, by simp [toldFields], completedCall_tells r⟩

/-- The records of a run carry the identifier in their context. -/
theorem forall₂_calls (f : Filter) (items : List Feed.Item) (c : Circumstances) (labels : Log.Labels)
    {context : Fields} {id : Text} {m : Log.Moment}
    (hid : context.get? runId = some (.text id)) :
    let r := run ⟨f, 1⟩ c items
    List.Forall₂ (Carries id) (toldFields f items r)
      ((Log.debugJournal labels).emitted context m (calls ⟨f, 1⟩ items r)) := by
  intro r
  have hfirst := Log.forall₂_emitted labels m [()]
    (fun _ _ => startedCall_tells f items) hid
  have hmiddle := Log.forall₂_emitted labels m r.evaluations
    (fun e _ => evaluatedCall_tells e) hid
  have hlast := Log.forall₂_emitted labels m [()]
    (fun _ _ => completedCall_tells r) hid
  have hwanted : (items.map fun item => evaluatedFields (f.evaluate item.subject)) =
      r.evaluations.map fun e => evaluatedFields e.2 := by
    rw [evaluations_single f c items, List.map_map]
    rfl
  rw [toldFields, hwanted, calls, Log.Journal.emitted_append, Log.Journal.emitted_cons]
  exact List.rel_append (List.rel_append hfirst hmiddle) hlast

/-- A run with one worker tells of its start, of each item in order, and of its end, in records that
carry its identifier. What is written are the lines of these records, and each has one if the fields
of the context can be written out. -/
theorem perform_traces (f : Filter) (items : List Feed.Item) (context : Log.Context)
    (c : Circumstances) {old j : Log.Journal} {config : Log.Configuration}
    (hlevel : raise config.level = "DEBUG".toList) (hformat : config.format = "json".toList)
    (hj : (Log.Journal.reconfigure config).run old = .ok () j) (hc : context.fields.AreScalar) :
    ∃ p r entries left, make f 1 = .ok p ∧ p.perform j context c items = (.ok r, entries, left) ∧
      left.fields = context.fields ∧ left.saved = context.saved ++ [none] ∧
      r.evaluations = items.map (fun item => (item, f.evaluate item.subject)) ∧
      let records := j.emitted (context.fields.set runId (.text r.id)) ⟨c.started, c.room⟩
        (p.calls items r)
      List.Forall₂ (Carries r.id) (toldFields f items r) records ∧
      entries = records.filterMap Log.Journal.written ∧
      (context.fields.AreWritable → Log.Time.HasStamp c.started →
        items.length < 10 ^ Value.mostDigits →
          List.Forall₂ (Traced r.id) (toldFields f items r) entries) := by
  obtain rfl := Log.Journal.eq_debugJournal hlevel hformat hj
  let r := run ⟨f, 1⟩ c items
  let inside := context.fields.set runId (.text r.id)
  have hid : inside.get? runId = some (.text r.id) := by rw [Log.Fields.get?_set, if_pos rfl]
  have hscalar : inside.AreScalar := hc.set_runId r.id
  have htell := calls_tell f c items
  have hlog := Log.Journal.logAll_json (m := ⟨c.started, c.room⟩)
    (j := Log.debugJournal { environment := config.environment }) rfl (fun call hm => by
      obtain ⟨given, -, ht⟩ := htell call hm
      exact ⟨ht.short, ht.isPlain⟩) hscalar
  have hrecords := forall₂_calls f items c { environment := config.environment }
    (m := ⟨c.started, c.room⟩) hid
  obtain ⟨left, hfields, hsaved, hperform⟩ := perform_eq ⟨f, 1⟩
    (Log.debugJournal { environment := config.environment }) context c items
  have hverdicts : r.evaluations = items.map fun item => (item, f.evaluate item.subject) :=
    evaluations_single f c items
  refine ⟨⟨f, 1⟩, r, _, left, rfl, ?_, hfields, hsaved, hverdicts, hrecords, rfl, ?_⟩
  · rw [hperform]
    exact congrArg (fun out : List Log.Entry × Option Log.Fault =>
      (out.2.elim (.ok r) (Except.error (ε := Log.Fault)), out.1, left)) hlog
  · intro hcw ht hlength
    have hwritable : inside.AreWritable := by
      intro g hg
      rcases Log.Fields.mem_set hg with hg | rfl
      · exact hcw g hg
      · rfl
    have htotal : r.total = items.length := by rw [Run.total, hverdicts, List.length_map]
    have hwanted : ∀ given ∈ toldFields f items r, given.AreWritable :=
      areWritable_toldFields hlength htotal
    obtain ⟨stamp, hstamp⟩ := Log.Time.exists_stamp ht
    refine Log.forall₂_written stamp hrecords (isShown_toldFields f items r) ?_
    intro record hr
    obtain ⟨call, hm, hr⟩ := Log.Journal.exists_of_mem_emitted hr
    obtain ⟨given, hg, htells⟩ := htell call hm
    exact htells.written (m := ⟨c.started, c.room⟩) (hwanted given hg) hscalar hwritable hstamp hr

/-- A run inside another one, whose identifier it hides and leaves behind. -/
theorem perform_traces_nested :
    let f := Filter.compile? (some "flood,-canvey,except(museum)")
    let items : List Feed.Item := [{ title := "Canvey museum flood" }, { title := "Canvey" }]
    let context := (Log.Context.push [("run_id", .text "outer"), ("page", .int 1)] .empty).2
    let config : Log.Configuration := { level := "debug", format := "json" }
    ∃ j, (Log.Journal.reconfigure config).run {} = .ok () j ∧
      ∃ r entries left, perform ⟨f, 1⟩ j context ⟨"inner", 0, 0, [], {}⟩ items =
          (.ok r, entries, left) ∧ left.fields = context.fields ∧
        entries.length = 4 ∧ List.Forall₂ (Traced "inner") (toldFields f items r) entries := by
  intro f items context config
  have hv : config.IsValid := by decide +kernel
  obtain ⟨j, hj, -⟩ := Log.Journal.reconfigure_of_isValid {} hv
  have hc : context.fields.AreScalar := List.all_eq_true.1 rfl
  have hw : context.fields.AreWritable := List.all_eq_true.1 (by decide +kernel)
  obtain ⟨p, r, entries, left, hp, hrun, hleft, -, -, -, -, ht⟩ := perform_traces f items context
    ⟨"inner", 0, 0, [], {}⟩ (by decide +kernel) rfl hj hc
  cases hp
  have hid : r.id = "inner".toList := by
    have hr := congrArg (·.1) hrun
    rw [perform_ok _ j context _ items hc] at hr
    cases hr
    rfl
  have ht := ht hw (by decide) (Nat.lt_of_lt_of_le (by decide : 2 < 10 ^ 1)
    (Nat.pow_le_pow_right (by decide) (by decide)))
  rw [hid] at ht
  exact ⟨j, hj, r, entries, left, hrun, hleft, ht.length_eq.symm, ht⟩

end Pipeline

end KeywordSieve
