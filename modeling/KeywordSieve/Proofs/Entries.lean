import KeywordSieve.Proofs.Scalars
import KeywordSieve.Proofs.Stamps

/-!
What a call writes through a JSON writer. A call of scalars under free names has one record, whatever
scalars are in the context, and its own fields stand in it, before those of the context. The record
has one line unless an integer among its fields is too long.
-/
namespace KeywordSieve.Log

open Text

variable {fs context : Fields} {labels : Labels} {c : Call} {m : Moment} {stamp k : Text}

/-- Fields of scalars, under any names. -/
def Fields.AreScalar (fs : Fields) : Prop := ∀ f ∈ fs, f.2.isScalar = true

/-- Fields without integers that are too long. -/
def Fields.AreWritable (fs : Fields) : Prop := ∀ f ∈ fs, f.2.isWritable = true

/-- Fields of scalars under names that a call can give. -/
def Fields.AreFree (fs : Fields) : Prop :=
  ∀ f ∈ fs, f.2.isScalar = true ∧ Record.isClosed f.1 = false

namespace Call

/-- A call whose fields, if it has any, are scalars under free names. -/
def IsPlain (c : Call) : Prop :=
  match c.extra with
  | .absent => True
  | .null => c.component.filter (!·.isEmpty) = none
  | .fields fs => fs.AreFree

/-- A call whose level and fields have no integers that are too long. -/
structure IsWritable (c : Call) : Prop where
  level : Value.isTooLong c.level = false
  extra : ∀ fs, c.extra = .fields fs → fs.AreWritable

theorem IsPlain.of_fields (he : c.extra = .fields fs) (hs : fs.AreScalar)
    (hk : ∀ k ∈ fs.keys, Record.isClosed k = false) : c.IsPlain := by
  rw [IsPlain, he]
  intro f hf
  exact ⟨hs f hf, hk f.1 (List.mem_map_of_mem hf)⟩

theorem areFree_component (name : Text) : Fields.AreFree [("component", .text name)] := by
  intro f hf
  rw [List.mem_singleton.1 hf]
  exact ⟨rfl, (by decide : Record.isClosed "component" = false)⟩

theorem IsPlain.exists_fields (h : c.IsPlain) : ∃ fs, c.fields = .ok fs ∧ fs.AreFree := by
  rw [IsPlain] at h
  rw [Call.fields]
  cases he : c.extra with
  | absent =>
    cases c.component.filter (!·.isEmpty) with
    | none => exact ⟨[], rfl, List.forall_mem_nil _⟩
    | some name => exact ⟨_, rfl, areFree_component name⟩
  | null =>
    rw [he] at h
    rw [show c.component.filter (!·.isEmpty) = none from h]
    exact ⟨[], rfl, List.forall_mem_nil _⟩
  | fields fs =>
    rw [he] at h
    cases c.component.filter (!·.isEmpty) with
    | none => exact ⟨fs, rfl, h⟩
    | some name =>
      refine ⟨_, rfl, ?_⟩
      intro f hf
      exact (Fields.mem_setAll hf).elim (areFree_component name f) (h f)

theorem IsWritable.fields (h : c.IsWritable) (hf : c.fields = .ok fs) : fs.AreWritable := by
  have hcomponent : ∀ name, Fields.AreWritable [("component", .text name)] := by
    intro name f hm
    rw [List.mem_singleton.1 hm]
    rfl
  rw [Call.fields] at hf
  split at hf
  · cases hf
    exact hcomponent _
  · next name given _ he =>
    cases hf
    intro f hm
    exact (Fields.mem_setAll hm).elim (hcomponent name f) (h.extra given he f)
  · cases hf
  · next _ he =>
    cases hf
    exact h.extra _ he
  · cases hf
    exact List.forall_mem_nil _

/-- Among the fields of a call are those that it gives, also behind a component. -/
theorem get?_fields {given : Fields} (hf : c.fields = .ok fs) (hg : c.extra = .fields given)
    (hn : given.keys.Nodup) (hk : k ≠ "component".toList) :
    Fields.get? k fs.reverse = given.get? k := by
  rw [Call.fields, hg] at hf
  cases hc : c.component.filter (!·.isEmpty) with
  | none =>
    rw [hc] at hf
    cases hf
    exact Fields.get?_reverse hn
  | some name =>
    rw [hc] at hf
    cases hf
    have hs : Fields.keys [("component", Value.text name)] |>.Nodup := List.nodup_singleton _
    rw [Fields.get?_reverse (Fields.nodup_setAll hs), Fields.get?_setAll, Fields.get?_reverse hn,
      Fields.get?_cons, if_neg hk, Fields.get?_nil, Option.or_none]

def recordWith (c : Call) (m : Moment) (fs : Fields) : Record :=
  { logger := if c.logger.isEmpty then "root" else c.logger
    level := c.level
    message := c.message
    created := m.time
    room := m.room
    fields := Fields.setAll [] fs }

theorem record_eq (hl : Value.isTooLong c.level = false) (hf : c.fields = .ok fs)
    (h : fs.AreFree) : c.record m = .ok (c.recordWith m fs) := by
  rw [record, hf]
  refine Record.withExtra_of_free hl fun f hm => ?_
  have hc := (h f hm).2
  rw [Record.isClosed, Bool.or_eq_false_iff] at hc
  exact hc.1

/-- The record of a call as a writer finds it, with labels and in a context. -/
def dressed (c : Call) (m : Moment) (fs : Fields) (labels : Labels) (context : Fields) : Record :=
  ((c.recordWith m fs).withLabels labels).withContext context

theorem nodup_dressed : (c.dressed m fs labels context).fields.keys.Nodup :=
  Record.nodup_withContext (Fields.nodup_set (Fields.nodup_set (Fields.nodup_setAll List.nodup_nil)))

/-- The fields of a call come before those of the context, and both behind the labels. -/
theorem get?_dressed (hs : k ≠ "service".toList) (he : k ≠ "environment".toList) :
    (c.dressed m fs labels context).fields.get? k =
      (Fields.get? k fs.reverse).or (if Record.isClosed k then none else context.get? k) := by
  rw [dressed, Record.get?_withContext, Record.withLabels, Fields.get?_set, if_neg he,
    Fields.get?_set, if_neg hs]
  show ((Fields.setAll [] fs).get? k).or _ = _
  rw [Fields.get?_setAll, Fields.get?_nil, Option.or_none]

theorem isScalar_label (label : Option Text) :
    Value.isScalar ((label.map Value.text).getD .null) = true := by
  cases label <;> rfl

/-- The fields of a call as a writer finds it are its own, the labels and those of the context. -/
theorem forall_dressed {p : Value → Prop} (h : ∀ f ∈ fs, p f.2) (hc : ∀ f ∈ context, p f.2)
    (hl : ∀ label : Option Text, p ((label.map Value.text).getD .null)) :
    ∀ f ∈ (c.dressed m fs labels context).fields, p f.2 := by
  intro f hf
  rcases Record.mem_withContext hf with hf | hf
  · rcases Fields.mem_set hf with hf | rfl
    · rcases Fields.mem_set hf with hf | rfl
      · rcases Fields.mem_setAll hf with hf | hf
        · cases hf
        · exact h f hf
      · exact hl labels.service
    · exact hl labels.environment
  · exact hc f hf

theorem isWritable_dressed (h : fs.AreWritable) (hc : context.AreWritable) :
    (c.dressed m fs labels context).fields.AreWritable :=
  forall_dressed (p := fun v => v.isWritable = true) h hc fun label => by cases label <;> rfl

theorem get?_messageOperation (h : fs.AreFree) : Fields.get? messageOperation fs.reverse = none := by
  have hclosed : Record.isClosed messageOperation = true := by decide
  rw [Fields.get?_eq_none, Fields.keys, List.mem_map]
  rintro ⟨f, hf, hk⟩
  have hfree := (h f (List.mem_reverse.1 hf)).2
  rw [hk, hclosed] at hfree
  cases hfree

/-- The message of a call stands as it is. -/
theorem text_recordWith (h : fs.AreFree) : (c.recordWith m fs).text = .ok c.message := by
  have hnone : (c.recordWith m fs).fields.get? messageOperation = none := by
    show (Fields.setAll [] fs).get? messageOperation = none
    rw [Fields.get?_setAll, get?_messageOperation h]
    rfl
  rw [Record.text, hnone]
  rfl

/-- Neither labels nor context keep a plain record from being plain. -/
theorem isPlain_dressed (c : Call) (m : Moment) (labels : Labels) (h : fs.AreFree)
    (hc : context.AreScalar) :
    (c.dressed m fs labels context).IsPlain := by
  have hd : c.dressed m fs labels context =
      { c.recordWith m fs with fields := (c.dressed m fs labels context).fields } :=
    Record.withContext_eq _ _
  refine ⟨by rw [hd]; rfl, by rw [hd]; rfl, ?_, ?_⟩
  · rw [get?_dressed (by decide) (by decide), get?_messageOperation h,
      show Record.isClosed messageOperation = true by decide]
    rfl
  · exact forall_dressed (p := fun v => v.isScalar = true) (fun f hf => (h f hf).1) hc
      isScalar_label

def lineFields (c : Call) (m : Moment) (stamp : Text) (fs : Fields) (labels : Labels)
    (context : Fields) : Fields :=
  Line.plainFields stamp (c.dressed m fs labels context)

end Call

namespace Journal

variable {j : Journal}

/-- The records that the writers of a journal are given. -/
def emitted (j : Journal) (context : Fields) (m : Moment) (cs : List Call) : List Record :=
  cs.flatMap fun c =>
    if j.isEnabled c.level then
      (c.record m).toOption.toList.flatMap fun r => j.writers.map (·.dress context r)
    else []

theorem emitted_cons (j : Journal) (context : Fields) (m : Moment) (c : Call) (cs : List Call) :
    j.emitted context m (c :: cs) = j.emitted context m [c] ++ j.emitted context m cs := by
  simp [emitted]

theorem exists_of_mem_emitted {cs : List Call} {r : Record} (h : r ∈ j.emitted context m cs) :
    ∃ c ∈ cs, r ∈ j.emitted context m [c] := by
  obtain ⟨c, hc, hr⟩ := List.mem_flatMap.1 h
  exact ⟨c, hc, List.mem_flatMap.2 ⟨c, List.mem_singleton_self c, hr⟩⟩

theorem write_singleton {w : Writer} {r : Record} (hj : j.writers = [w]) :
    j.write context r = w.write context r := by
  rw [write, hj]
  simp only [List.isEmpty_cons, Bool.false_eq_true, ↓reduceIte, List.mapM_cons, List.mapM_nil]
  cases w.write context r with
  | error fault => rfl
  | ok entries => exact congrArg Except.ok (List.append_nil entries)

theorem emitted_append (j : Journal) (context : Fields) (m : Moment) (cs more : List Call) :
    j.emitted context m (cs ++ more) = j.emitted context m cs ++ j.emitted context m more :=
  List.flatMap_append

/-- What a JSON writer makes of a record: its line, if it has one. -/
def written (r : Record) : Option Entry := (Line.json r).toOption.map .line

/-- Through a JSON writer, a call of scalars under free names has one record if its level is
logged. -/
theorem emitted_json (hj : j.writers = [⟨.json, labels⟩]) (hl : Value.isTooLong c.level = false)
    (hf : c.fields = .ok fs) (h : fs.AreFree) :
    j.emitted context m [c] =
      if j.isEnabled c.level then [c.dressed m fs labels context] else [] := by
  simp only [emitted, List.flatMap_singleton, c.record_eq hl hf h, hj]
  rfl

/-- Through a JSON writer, a call of scalars under free names writes the line of its record, if there
is one. -/
theorem log_json (hj : j.writers = [⟨.json, labels⟩]) (hl : Value.isTooLong c.level = false)
    (h : c.IsPlain) (hc : context.AreScalar) :
    j.log context m c = .ok ((j.emitted context m [c]).filterMap written) := by
  obtain ⟨fs, hf, hfree⟩ := h.exists_fields
  rw [emitted_json hj hl hf hfree, log]
  cases j.isEnabled c.level with
  | false => rfl
  | true =>
    have hplain := c.isPlain_dressed m labels hfree hc
    have hone : Writer.write ⟨.json, labels⟩ context (c.recordWith m fs) =
        .ok (written (c.dressed m fs labels context)).toList := by
      rw [written]
      show Entry.ofText .line (Line.json (c.dressed m fs labels context)) = _
      cases hline : Line.json (c.dressed m fs labels context) with
      | ok line => rfl
      | error fault =>
        rw [Entry.ofText, Line.endsCall_json_of_isPlain hplain hline]
        rfl
    rw [if_pos rfl, if_pos rfl, c.record_eq hl hf hfree]
    show j.write context (c.recordWith m fs) = _
    rw [write_singleton hj, hone, List.filterMap_cons]
    cases written (c.dressed m fs labels context) <;> rfl

/-- Such calls are all logged, and write the lines of their records. -/
theorem logAll_json {cs : List Call} (hj : j.writers = [⟨.json, labels⟩])
    (h : ∀ c ∈ cs, Value.isTooLong c.level = false ∧ c.IsPlain) (hc : context.AreScalar) :
    j.logAll context m cs = ((j.emitted context m cs).filterMap written, none) := by
  induction cs with
  | nil => rfl
  | cons c cs ih =>
    rw [List.forall_mem_cons] at h
    rw [emitted_cons j context m c cs, logAll, log_json hj h.1.1 h.1.2 hc, ih h.2,
      List.filterMap_append]

/-- The record of a call of scalars that can be written out has one line. -/
theorem written_dressed (labels : Labels) (h : fs.AreFree) (hw : fs.AreWritable)
    (hc : context.AreScalar) (hcw : context.AreWritable) (ht : Time.stamp m.time = .ok stamp) :
    written (c.dressed m fs labels context) =
      some (.line (Json.ofFields (c.lineFields m stamp fs labels context)).render) := by
  have hline : Line.json (c.dressed m fs labels context) =
      .ok (Json.ofFields (c.lineFields m stamp fs labels context)).render := by
    refine Line.json_of_isPlain (c.isPlain_dressed m labels h hc) ?_ ?_
    · intro f hf
      exact Call.isWritable_dressed hw hcw f (List.mem_filter.1 hf).1
    · rw [← ht, Call.dressed, Record.withContext_eq]
      rfl
  rw [written, hline]
  rfl

end Journal

end KeywordSieve.Log
