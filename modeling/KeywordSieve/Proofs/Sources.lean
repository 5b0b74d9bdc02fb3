import KeywordSieve.Proofs.Entries
import KeywordSieve.Proofs.Formless
import KeywordSieve.Proofs.Places

/-!
Where the fields of a JSON line come from. A name that the line can show has the value of the label
of that name, else that of the call, else that of the context; and it stands where the first of its
sources puts it: the call, then the labels, then the context. What a context has under the name of a
part of a record is as if it were not there. An integer that is too long keeps the line from being
written just if it counts under its name.
-/
namespace KeywordSieve.Log

open Text

namespace Record

variable {r r' : Record} {extra context : Fields} {labels : Labels} {f : Text × Value} {k : Text}

def labelNames : List Text := ["service", "environment"]

def labelValue (label : Option Text) : Value := (label.map .text).getD .null

def labelFields (labels : Labels) : Fields :=
  [("service", labelValue labels.service), ("environment", labelValue labels.environment)]

theorem nodup_labelFields (labels : Labels) : (labelFields labels).keys.Nodup :=
  (by decide : labelNames.Nodup)

theorem fields_withLabels (r : Record) (labels : Labels) :
    (r.withLabels labels).fields = r.fields.setAll (labelFields labels) := rfl

/-- The names of a call and of the labels, each where it comes first. -/
def ownNames (extra : Fields) : List Text :=
  extra.keys ++ labelNames.filter (· ∉ extra.keys)

/-- The names of all sources, each where it comes first. -/
def sourceNames (extra context : Fields) : List Text :=
  ownNames extra ++ context.keys.filter fun k => !isClosed k && k ∉ ownNames extra

/-- The value that counts under a name. -/
def source? (labels : Labels) (extra context : Fields) (k : Text) : Option Value :=
  ((labelFields labels).get? k).or ((extra.get? k).or (context.get? k))

theorem keys_withLabels : (r.withLabels labels).fields.keys = ownNames r.fields := by
  rw [fields_withLabels, Fields.keys_setAll (nodup_labelFields labels),
    Fields.keys_filter (fun k => k ∉ r.fields.keys)]
  rfl

theorem keys_finished (labels : Labels) (hr : r.fields = []) (hx : extra.keys.Nodup)
    (hc : context.keys.Nodup) (hm : r.withExtra extra = .ok r') :
    ((r'.withLabels labels).withContext context).fields.keys = sourceNames extra context := by
  rw [fields_withContext hc, Fields.keys_append, keys_withLabels, fields_withExtra hr hx hm,
    Fields.keys_filter (fun k => !isClosed k && k ∉ ownNames extra)]
  rfl

/-- No source gives a field the name of a part of a record. -/
theorem isReserved_of_mem_sourceNames (hm : r.withExtra extra = .ok r')
    (hk : k ∈ sourceNames extra context) : isReserved k = false := by
  rw [sourceNames, ownNames, List.mem_append, List.mem_append, List.mem_filter,
    List.mem_filter] at hk
  obtain (hk | ⟨hk, -⟩) | ⟨-, hk⟩ := hk
  · obtain ⟨f, hf, rfl⟩ := List.mem_map.1 hk
    exact (withExtra_eq_ok.1 hm).2.1 f hf
  · revert k
    decide
  · rw [Bool.and_eq_true, isClosed] at hk
    have hopen := hk.1
    simp only [Bool.not_or, Bool.and_eq_true, Bool.not_eq_true'] at hopen
    exact hopen.1

theorem get?_finished_eq (hr : r.fields = []) (hx : extra.keys.Nodup)
    (hm : r.withExtra extra = .ok r') :
    ((r'.withLabels labels).withContext context).fields.get? k =
      ((labelFields labels).get? k).or
        ((extra.get? k).or (if isClosed k then none else context.get? k)) := by
  rw [get?_withContext, fields_withLabels, Fields.get?_setAll,
    Fields.get?_reverse (nodup_labelFields labels), fields_withExtra hr hx hm, Option.or_assoc]

theorem get?_finished_of_open (hr : r.fields = []) (hx : extra.keys.Nodup)
    (hm : r.withExtra extra = .ok r') (hk : isClosed k = false) :
    ((r'.withLabels labels).withContext context).fields.get? k =
      source? labels extra context k := by
  rw [get?_finished_eq hr hx hm, hk]
  rfl

theorem scalar_finished (labels : Labels) (hr : r.fields = []) (hx : extra.keys.Nodup)
    (hxs : extra.AreScalar) (hcs : context.AreScalar) (hm : r.withExtra extra = .ok r') :
    ((r'.withLabels labels).withContext context).fields.AreScalar := by
  intro f hf
  obtain hf | hf := mem_withContext hf
  · rw [fields_withLabels, fields_withExtra hr hx hm] at hf
    obtain hf | hf := Fields.mem_setAll hf
    · exact hxs f hf
    · simp only [labelFields, List.mem_cons, List.not_mem_nil, or_false] at hf
      obtain rfl | rfl := hf <;> exact Call.isScalar_label _
  · exact hcs f hf

theorem get?_finished_message (labels : Labels) (context : Fields) (hr : r.fields = [])
    (hx : extra.keys.Nodup) (hg : messageOperation ∉ extra.keys)
    (hm : r.withExtra extra = .ok r') :
    ((r'.withLabels labels).withContext context).fields.get? messageOperation = none := by
  rw [get?_finished labels context hr hx hm (by decide) (by decide), Fields.get?_eq_none.2 hg]
  rfl

/-- Neither labels nor context change the message. -/
theorem text_finished (labels : Labels) (context : Fields) (hr : r.fields = [])
    (hx : extra.keys.Nodup) (hg : messageOperation ∉ extra.keys)
    (hm : r.withExtra extra = .ok r') :
    ((r'.withLabels labels).withContext context).text = r.text := by
  rw [text, get?_finished_message labels context hr hx hg hm, text, hr, finished_eq hm]
  rfl

end Record

namespace Line

variable {r r' : Record} {extra context fields : Fields} {labels : Labels} {k stamp message : Text}

/-- The names that each line begins with. -/
def identityNames : List Text := ["timestamp", "level", "logger", "message"]

theorem keys_told (hn : r.fields.keys.Nodup) (he : "exc_info".toList ∉ r.fields.keys) :
    (told stamp message r).keys =
      identityNames ++ r.fields.keys.filter (fun k => !isHidden k && k ∉ identityNames) ++
        if r.trouble.isSome then ["exc_info".toList] else [] := by
  have hopening : (opening stamp message r).keys = identityNames := rfl
  have hkeys : ((opening stamp message r).setAll
      (r.shownFields.map fun f => (f.1, plainField f.2))).keys =
      identityNames ++ r.fields.keys.filter (fun k => !isHidden k && k ∉ identityNames) := by
    have hshown : (Record.shownFields r).keys = r.fields.keys.filter (!isHidden ·) :=
      Fields.keys_filter (!isHidden ·) r.fields
    rw [Fields.keys_setAll, hopening, Fields.keys_filter (fun k => k ∉ identityNames),
      Fields.keys_map, hshown, List.filter_filter]
    · simp only [Bool.and_comm]
    · rw [Fields.keys_map]
      exact Fields.keys_filter_nodup _ hn
  rw [told]
  cases r.trouble with
  | none => simp only [hkeys, Option.isSome_none, Bool.false_eq_true, ↓reduceIte, List.append_nil]
  | some trouble =>
    have hnew : "exc_info".toList ∉
        identityNames ++ r.fields.keys.filter (fun k => !isHidden k && k ∉ identityNames) := by
      rw [List.mem_append, not_or]
      exact ⟨by decide, fun h => he (List.mem_filter.1 h).1⟩
    simp only [Fields.keys_set, hkeys, if_neg hnew, Option.isSome_some, ↓reduceIte]

theorem eq_of_forms {room : Nat} {object : List (Text × Json)} (h : Fields.AreScalar fields)
    (ho : forms room fields = .ok object) :
    object = fields.map fun f => (f.1, Json.ofScalar f.2) := by
  induction fields generalizing object with
  | nil => exact (Except.ok.inj ho).symm
  | cons f fields ih =>
    simp only [forms, List.mapM_cons, bind_eq_ok, mapError_eq_ok, pure_eq_ok] at ho
    obtain ⟨entry, ⟨j, hj, rfl⟩, rest, hr, rfl⟩ := ho
    obtain ⟨hf, hfs⟩ := List.forall_mem_cons.1 h
    rw [← ((Json.toJson_scalar hf).1 hj).2, ih hfs hr]
    rfl

theorem lookup_map (g : Value → Json) (fields : Fields) (k : Text) :
    (fields.map fun f => (f.1, g f.2)).lookup k = (fields.get? k).map g := by
  induction fields with
  | nil => rfl
  | cons f fields ih =>
    obtain ⟨name, v⟩ := f
    rw [List.map_cons, List.lookup_cons, Fields.get?_cons, ih]
    by_cases h : k = name
    · subst h
      simp
    · simp [h, beq_false_of_ne h]

theorem scalar_told (h : Fields.AreScalar r.fields) : (told stamp message r).AreScalar := by
  intro f hf
  obtain ⟨t, ht⟩ | ⟨g, hg, -, hp⟩ := mem_told hf
  · rw [ht]
    rfl
  · rw [hp, plainField_scalar (h g hg)]
    exact h g hg

/-- Whether a name is one that a field alone decides about: no part of a record has it, it is
written, and the line does not begin with it. -/
def isFree (k : Text) : Bool := !Record.isClosed k && !isHidden k && k ∉ identityNames

theorem get?_told_of_isFree (hn : r.fields.keys.Nodup) (h : Fields.AreScalar r.fields)
    (hk : isFree k = true) : (told stamp message r).get? k = r.fields.get? k := by
  simp only [isFree, Bool.and_eq_true, Bool.not_eq_true', decide_eq_true_eq] at hk
  obtain ⟨⟨hclosed, hhidden⟩, hid⟩ := hk
  have hexc : k ≠ "exc_info".toList := by
    rintro rfl
    revert hclosed
    decide
  have hnone : (opening stamp message r).get? k = none := Fields.get?_eq_none.2 hid
  have hplain : (r.fields.get? k).map plainField = r.fields.get? k := by
    cases hv : r.fields.get? k with
    | none => rfl
    | some v => rw [Option.map_some, plainField_scalar (h _ (Fields.mem_of_get? hv))]
  rw [get?_told hn hexc, hnone, hhidden, hplain, Option.or_none]
  rfl

/-- Whether a field of the context under a name can have no effect on a line. -/
def isIdle (k : Text) : Bool := Record.isClosed k || isHidden k

/-- A line tells of the fields of its record those that are shown, and one that hides the
message. -/
theorem json_congr {fields' : Fields}
    (hs : Record.shownFields { r with fields } = Record.shownFields { r with fields := fields' })
    (hg : fields.get? messageOperation = fields'.get? messageOperation) :
    json { r with fields } = json { r with fields := fields' } := by
  have ht : Record.text { r with fields } = Record.text { r with fields := fields' } := by
    simp only [Record.text, hg]
    rfl
  simp only [json, jsonFields, hs, ht]

/-- A field of the context that has no effect might as well not be there. -/
theorem json_withContext_filter (hc : context.keys.Nodup) :
    json (r.withContext context) = json (r.withContext (context.filter (!isIdle ·.1))) := by
  have hc' := Fields.keys_filter_nodup (!isIdle ·.1) hc
  rw [Record.withContext_eq r context, Record.withContext_eq r (context.filter _)]
  apply json_congr
  · simp only [Record.shownFields, Record.fields_withContext hc, Record.fields_withContext hc',
      List.filter_append, List.filter_filter]
    congr 2
    funext f
    cases hclosed : Record.isClosed f.1 <;> cases hhidden : isHidden f.1 <;>
      simp [isIdle, hclosed, hhidden]
  · have hclosed : Record.isClosed messageOperation = true := by decide
    rw [Record.get?_withContext, Record.get?_withContext, hclosed]
    rfl

theorem nodup_told : (told stamp message r).keys.Nodup := by
  have hn : identityNames.Nodup := by decide
  rw [told]
  cases r.trouble with
  | none => exact Fields.nodup_setAll hn
  | some trouble => exact Fields.nodup_set (Fields.nodup_setAll hn)

/-- The names of the line of a record whose fields have some names. -/
def lineNames (r : Record) (names : List Text) : List Text :=
  identityNames ++ names.filter (fun k => !isHidden k && k ∉ identityNames) ++
    if r.trouble.isSome then ["exc_info".toList] else []

/-- The line of a record of scalars has the names of its fields once each, and under each name that
is free what the record has under it. -/
theorem object_of_scalar (hn : r.fields.keys.Nodup) (hs : Fields.AreScalar r.fields)
    (hfree : ∀ k ∈ r.fields.keys, isReserved k = false) {line : Text} (hl : json r = .ok line) :
    ∃ object, (Json.object object).render = line ∧
      object.map Prod.fst = lineNames r r.fields.keys ∧ (object.map Prod.fst).Nodup ∧
      ∀ k, isFree k = true → object.lookup k = (r.fields.get? k).map Json.ofScalar := by
  obtain ⟨fields, object, hf, ho, hline⟩ := json_eq_ok.1 hl
  obtain ⟨stamp, message, -, -, -, rfl⟩ := jsonFields_eq_ok.1 hf
  obtain rfl := eq_of_forms (scalar_told hs) ho
  have hnames : ((told stamp message r).map fun f => (f.1, Json.ofScalar f.2)).map Prod.fst =
      (told stamp message r).keys := List.map_map
  have hexc : "exc_info".toList ∉ r.fields.keys := by
    intro hk
    exact absurd (hfree _ hk) (by decide)
  refine ⟨_, hline, ?_, ?_, ?_⟩
  · rw [hnames, keys_told hn hexc, lineNames]
  · rw [hnames]
    exact nodup_told
  · intro k hk
    rw [lookup_map, get?_told_of_isFree hn hs hk]

/-- Of the integers that a call and a context have, those that are written are not too long. -/
theorem unhindered_iff (labels : Labels) (hr : r.fields = []) (hx : extra.keys.Nodup)
    (hxs : extra.AreScalar) (hcs : context.AreScalar) (hg : messageOperation ∉ extra.keys)
    (hm : r.withExtra extra = .ok r')
    (hfree : ∀ k ∈ ((r'.withLabels labels).withContext context).fields.keys,
      isReserved k = false) :
    (∀ f ∈ ((r'.withLabels labels).withContext context).fields, isHidden f.1 = false →
        ∀ fault, ¬ Hinders r.room f.2 fault) ↔
      ∀ k v, isIdle k = false → Record.source? labels extra context k = some v →
        v.isWritable = true := by
  have hs := Record.scalar_finished labels hr hx hxs hcs hm
  constructor
  · intro h k v hk hv
    rw [isIdle, Bool.or_eq_false_iff] at hk
    rw [← Record.get?_finished_of_open hr hx hm hk.1] at hv
    have hf := Fields.mem_of_get? hv
    by_contra hw
    exact h _ hf hk.2 _ ((hinders_scalar (hs _ hf)).2 ⟨Bool.eq_false_of_not_eq_true hw, rfl⟩)
  · intro h f hf hh fault hhinders
    obtain ⟨hw, -⟩ := (hinders_scalar (hs f hf)).1 hhinders
    have hget := Fields.get?_of_mem (Record.nodup_finished labels context hr hm) hf
    have hclosed : Record.isClosed f.1 = false := by
      rw [Record.isClosed, Bool.or_eq_false_iff, beq_eq_false_iff_ne]
      refine ⟨hfree _ (List.mem_map_of_mem hf), fun hk => ?_⟩
      rw [hk, Record.get?_finished_message labels context hr hx hg hm] at hget
      cases hget
    rw [Record.get?_finished_of_open hr hx hm hclosed] at hget
    rw [h f.1 f.2 (by rw [isIdle, hclosed, hh]; rfl) hget] at hw
    cases hw

/-- A record with scalars as the fields of its call and of its context has a line just if there are
a time and a message to tell, and no integer that is written is too long. Fields of the context
under the names of parts of a record, or under names that are not written, have no effect on it.
Each name stands in the line once, where its first source puts it; and each name that fields decide
about is there just if a source has it, with the value of the label, else that of the call, else
that of the context. -/
theorem sources_of_json (labels : Labels) (hr : r.fields = []) (hx : extra.keys.Nodup)
    (hc : context.keys.Nodup) (hxs : extra.AreScalar) (hcs : context.AreScalar)
    (hg : messageOperation ∉ extra.keys) (hm : r.withExtra extra = .ok r') :
    ((∃ line, json ((r'.withLabels labels).withContext context) = .ok line) ↔
      (∃ stamp, Time.stamp r.created = .ok stamp) ∧ (∃ message, r.text = .ok message) ∧
        ∀ k v, isIdle k = false → Record.source? labels extra context k = some v →
          v.isWritable = true) ∧
    json ((r'.withLabels labels).withContext context) =
      json ((r'.withLabels labels).withContext (context.filter (!isIdle ·.1))) ∧
    ∀ line, json ((r'.withLabels labels).withContext context) = .ok line →
      ∃ object, (Json.object object).render = line ∧
        object.map Prod.fst = lineNames r (Record.sourceNames extra context) ∧
        (object.map Prod.fst).Nodup ∧
        ∀ k, isFree k = true →
          object.lookup k = (Record.source? labels extra context k).map Json.ofScalar := by
  have hn := Record.nodup_finished labels context hr hm
  have hkeys := Record.keys_finished labels hr hx hc hm
  have hs := Record.scalar_finished labels hr hx hxs hcs hm
  have hfree : ∀ k ∈ ((r'.withLabels labels).withContext context).fields.keys,
      isReserved k = false := by
    intro k hk
    rw [hkeys] at hk
    exact Record.isReserved_of_mem_sourceNames hm hk
  have hsame : (r'.withLabels labels).withContext context =
      { r with fields := ((r'.withLabels labels).withContext context).fields } :=
    Record.finished_eq hm
  refine ⟨?_, json_withContext_filter hc, ?_⟩
  · have htext := Record.text_finished labels context hr hx hg hm
    have hcreated : ((r'.withLabels labels).withContext context).created = r.created := by
      rw [hsame]
    have hroom : ((r'.withLabels labels).withContext context).room = r.room := by rw [hsame]
    rw [exists_json_iff hn fun f hf => hfree f.1 (List.mem_map_of_mem hf), htext, hcreated, hroom,
      unhindered_iff labels hr hx hxs hcs hg hm hfree]
  · intro line hl
    obtain ⟨object, hline, hnames, hnodup, hlookup⟩ := object_of_scalar hn hs hfree hl
    have htrouble : ((r'.withLabels labels).withContext context).trouble = r.trouble := by
      rw [hsame]
    refine ⟨object, hline, ?_, hnodup, ?_⟩
    · rw [hnames, hkeys, lineNames, htrouble, lineNames]
    · intro k hk
      have hopen : Record.isClosed k = false := by
        rw [isFree, Bool.and_eq_true, Bool.and_eq_true, Bool.not_eq_true'] at hk
        exact hk.1.1
      rw [hlookup k hk, Record.get?_finished_of_open hr hx hm hopen]

/-- A call, labels and a context with names in common: the names of parts of the record change
nothing, and that of the level is told of the call. Two integers of the context are too long, but
one is not written, and the other one does not count beside the call. -/
theorem sources_of_json_colliding :
    let r : Record := { logger := "test", level := 20, message := "Done", created := 1 }
    let labels : Labels := { service := some "sieve", environment := none }
    let extra : Fields :=
      [("service", .int 1), ("term", .text "flood"), ("level", .int 2), ("_a", .null)]
    let context : Fields := [("levelname", .int 3), ("run", .bool true),
      ("term", .int Value.overlong), ("message", .null), ("environment", .int 5),
      ("taskName", .int Value.overlong)]
    ∃ r' line object, r.withExtra extra = .ok r' ∧
      json ((r'.withLabels labels).withContext context) = .ok line ∧
      (Json.object object).render = line ∧
      object.map Prod.fst = ["timestamp".toList, "level", "logger", "message", "service", "term",
        "environment", "run"] ∧
      object.lookup "service".toList = some (.text "sieve") ∧
      object.lookup "term".toList = some (.text "flood") ∧
      object.lookup "environment".toList = some .null ∧
      object.lookup "run".toList = some (.bool true) := by
  intro r labels extra context
  obtain ⟨r', hm⟩ : ∃ r', r.withExtra extra = .ok r' :=
    ⟨_, Record.withExtra_of_free (by decide) (by decide)⟩
  have hscalar : ∀ fs : Fields, fs.all (·.2.isScalar) = true → fs.AreScalar := by
    intro fs h
    exact List.all_eq_true.1 h
  have hstamp : Time.stamp r.created = .ok "1970-01-01T00:00:00.000Z".toList := by decide +kernel
  obtain ⟨hiff, -, hlines⟩ := sources_of_json labels rfl (by decide)
    (by decide) (hscalar extra rfl) (hscalar context rfl) (by decide) hm
  have hwritable : ∀ k v, isIdle k = false → Record.source? labels extra context k = some v →
      v.isWritable = true := by
    intro k v hk hv
    obtain hv | ⟨-, hv⟩ := Option.or_eq_some_iff.1 hv
    · have hall : ∀ f ∈ Record.labelFields labels, f.2.isWritable = true := by decide
      exact hall _ (Fields.mem_of_get? hv)
    obtain hv | ⟨hnone, hv⟩ := Option.or_eq_some_iff.1 hv
    · have hall : ∀ f ∈ extra, f.2.isWritable = true := by decide
      exact hall _ (Fields.mem_of_get? hv)
    · have hall : ∀ f ∈ context, isIdle f.1 = false → (extra.get? f.1).isNone = true →
          f.2.isWritable = true := by decide +kernel
      exact hall _ (Fields.mem_of_get? hv) hk (by rw [hnone]; rfl)
  obtain ⟨line, hl⟩ := hiff.2 ⟨⟨_, hstamp⟩, ⟨_, rfl⟩, hwritable⟩
  obtain ⟨object, hline, hnames, -, hlookup⟩ := hlines line hl
  refine ⟨r', line, object, hm, hl, hline, hnames.trans (by decide), ?_, ?_, ?_, ?_⟩
  · exact hlookup _ (by decide)
  · exact hlookup _ (by decide)
  · exact hlookup _ (by decide)
  · exact hlookup _ (by decide)

end Line

end KeywordSieve.Log
