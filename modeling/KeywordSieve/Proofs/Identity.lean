import KeywordSieve.Log.Line
import KeywordSieve.Proofs.Fields
import KeywordSieve.Proofs.Success

/-!
What a JSON line tells of its record. The message is always that of the record. The time, the level
and the name of the logger are those of the record unless a field has the name under which the line
tells them; then the field stands in their place, that of the call before that of the context.
-/
namespace KeywordSieve.Log

open Text

namespace Line

variable {r r' : Record} {extra context fields : Fields} {labels : Labels}
  {object : List (Text × Json)} {stamp message line key own : Text} {v : Value}

/-- The parts of a record that a field can stand in for, by their names in the line. -/
def replaceable (stamp : Text) (r : Record) : List (Text × Text) :=
  [("timestamp", stamp), ("level", levelName r.level), ("logger", r.logger)]

/-- The fields that a line begins with. -/
def opening (stamp message : Text) (r : Record) : Fields :=
  (replaceable stamp r).map (fun part => (part.1, .text part.2)) ++
    [("message".toList, .text message)]

def told (stamp message : Text) (r : Record) : Fields :=
  let fields := (opening stamp message r).setAll (r.shownFields.map fun f => (f.1, plainField f.2))
  match r.trouble with
  | some trouble => fields.set "exc_info" (.text trouble.message)
  | none => fields

/-- Nothing keeps the fields that become text from being text. -/
def IsPlainable (r : Record) : Prop := ∀ f ∈ r.shownFields, plainRefusal? r.room.text f.2 = none

instance (r : Record) : Decidable (IsPlainable r) :=
  inferInstanceAs (Decidable (∀ f ∈ r.shownFields, plainRefusal? r.room.text f.2 = none))

/-- The JSON forms of fields, if all have one. -/
def forms (room : Nat) (fields : Fields) : Except Fault (List (Text × Json)) :=
  fields.mapM fun f => return (f.1, ← (f.2.toJson room).mapError .json)

theorem check_eq_ok {o : Option Value.WriteFault} {u : Unit} : Fault.check o = .ok u ↔ o = none := by
  cases o <;> simp [Fault.check]

theorem jsonFields_eq_ok : jsonFields r = .ok fields ↔ ∃ stamp message,
    Time.stamp r.created = .ok stamp ∧ r.text = .ok message ∧ IsPlainable r ∧
      told stamp message r = fields := by
  simp only [jsonFields, bind_eq_ok, mapError_eq_ok, pure_eq_ok, check_eq_ok,
    List.findSome?_eq_none_iff, told, opening]
  constructor
  · rintro ⟨stamp, hs, message, hm, -, hp, rfl⟩
    exact ⟨stamp, message, hs, hm, hp, rfl⟩
  · rintro ⟨stamp, message, hs, hm, hp, rfl⟩
    exact ⟨stamp, hs, message, hm, (), hp, rfl⟩

/-- A line is the object of the fields, each of which has a JSON form. -/
theorem json_eq_ok : json r = .ok line ↔ ∃ fields object, jsonFields r = .ok fields ∧
    forms r.room.json fields = .ok object ∧ (Json.object object).render = line := by
  simp only [json, forms, bind_eq_ok, pure_eq_ok]
  constructor
  · rintro ⟨fields, hf, object, ho, rfl⟩
    exact ⟨fields, object, hf, ho, rfl⟩
  · rintro ⟨fields, object, hf, ho, rfl⟩
    exact ⟨fields, hf, object, ho, rfl⟩

/-- A name stands for the JSON form of its field. -/
theorem lookup_forms {room : Nat} (ho : forms room fields = .ok object)
    (hf : fields.get? key = some v) :
    ∃ j, v.toJson room = .ok j ∧ object.lookup key = some j := by
  induction fields generalizing object with
  | nil => simp at hf
  | cons f fields ih =>
    obtain ⟨name, w⟩ := f
    simp only [forms, List.mapM_cons, bind_eq_ok, mapError_eq_ok, pure_eq_ok] at ho
    obtain ⟨entry, ⟨j, hj, rfl⟩, rest, hr, rfl⟩ := ho
    rw [Fields.get?_cons] at hf
    by_cases hk : key = name
    · subst hk
      obtain rfl : w = v := by simpa using hf
      exact ⟨j, hj, by simp⟩
    · obtain ⟨j', hj', hl⟩ := ih hr (by simpa [hk] using hf)
      exact ⟨j', hj', by simp [List.lookup_cons, beq_false_of_ne hk, hl]⟩

/-- Fields keep their names when their values are made plain. -/
theorem get?_map (f : Value → Value) (fields : Fields) (key : Text) :
    Fields.get? key (fields.map fun g => (g.1, f g.2)) = (fields.get? key).map f := by
  induction fields with
  | nil => rfl
  | cons g fields ih =>
    obtain ⟨name, v⟩ := g
    by_cases h : key = name <;> simp [h, ih]

/-- A field that is not hidden stands in its line, else what the line begins with. -/
theorem get?_told (hn : r.fields.keys.Nodup) (hk : key ≠ "exc_info".toList) :
    (told stamp message r).get? key =
      (if isHidden key then none else (r.fields.get? key).map plainField).or
        ((opening stamp message r).get? key) := by
  have hfields : ((opening stamp message r).setAll
      (r.shownFields.map fun f => (f.1, plainField f.2))).get? key =
      (if isHidden key then none else (r.fields.get? key).map plainField).or
        ((opening stamp message r).get? key) := by
    have hs : (r.shownFields.get? key).map plainField =
        if isHidden key then none else (r.fields.get? key).map plainField := by
      rw [Record.shownFields, Fields.get?_filter (!isHidden ·)]
      cases isHidden key <;> rfl
    rw [Fields.get?_setAll, ← List.map_reverse, get?_map, Record.shownFields,
      Fields.get?_reverse (Fields.keys_filter_nodup _ hn), ← Record.shownFields, hs]
  rw [told]
  cases r.trouble with
  | none => exact hfields
  | some trouble => simp only [Fields.get?_set, if_neg hk, hfields]

end Line

namespace Record

variable {r r' : Record} {extra context : Fields} {labels : Labels} {message k : Text}

/-- A call has its fields unless one of them has a reserved name, or its level has no name. -/
theorem withExtra_eq_ok : r.withExtra extra = .ok r' ↔ Value.isTooLong r.level = false ∧
    (∀ f ∈ extra, isReserved f.1 = false) ∧ { r with fields := r.fields.setAll extra } = r' := by
  rw [withExtra]
  cases hl : Value.isTooLong r.level with
  | true => simp
  | false =>
    cases hf : extra.find? (isReserved ·.1) with
    | none => simpa using fun _ => by simpa using List.find?_eq_none.1 hf
    | some f =>
      have hr := List.find?_some hf
      have hm := List.mem_of_find?_eq_some hf
      simp only [Bool.false_eq_true, ↓reduceIte, reduceCtorEq, true_and, false_iff, not_and]
      intro hfree
      rw [hfree f hm] at hr
      cases hr

theorem withExtra_of_free (hl : Value.isTooLong r.level = false)
    (hf : ∀ f ∈ extra, isReserved f.1 = false) :
    r.withExtra extra = .ok { r with fields := r.fields.setAll extra } :=
  withExtra_eq_ok.2 ⟨hl, hf, rfl⟩

theorem nodup_withExtra (hr : r.fields = []) (hm : r.withExtra extra = .ok r') :
    r'.fields.keys.Nodup := by
  obtain ⟨-, -, rfl⟩ := withExtra_eq_ok.1 hm
  rw [hr]
  exact Fields.nodup_setAll List.nodup_nil

theorem get?_withExtra (hr : r.fields = []) (hx : extra.keys.Nodup)
    (hm : r.withExtra extra = .ok r') : r'.fields.get? k = extra.get? k := by
  obtain ⟨-, -, rfl⟩ := withExtra_eq_ok.1 hm
  rw [hr, Fields.get?_setAll, Fields.get?_reverse hx, Fields.get?_nil, Option.or_none]

/-- A record that had no fields has those of its call. -/
theorem mem_withExtra (hr : r.fields = []) (hx : extra.keys.Nodup)
    (hm : r.withExtra extra = .ok r') (f : Text × Value) : f ∈ r'.fields ↔ f ∈ extra := by
  rw [Fields.mem_iff_get? (nodup_withExtra hr hm), get?_withExtra hr hx hm, Fields.mem_iff_get? hx]

/-- What a writer finds of a record with the fields of its call: labels and context change fields
only. -/
theorem finished_eq (hm : r.withExtra extra = .ok r') :
    (r'.withLabels labels).withContext context =
      { r with fields := ((r'.withLabels labels).withContext context).fields } := by
  obtain ⟨-, -, rfl⟩ := withExtra_eq_ok.1 hm
  exact withContext_eq _ _

theorem nodup_finished (labels : Labels) (context : Fields) (hr : r.fields = [])
    (hm : r.withExtra extra = .ok r') :
    ((r'.withLabels labels).withContext context).fields.keys.Nodup :=
  nodup_withContext (Fields.nodup_set (Fields.nodup_set (nodup_withExtra hr hm)))

/-- Apart from the labels, the fields of a call come first, and then those of the context. -/
theorem get?_finished (labels : Labels) (context : Fields) (hr : r.fields = [])
    (hx : extra.keys.Nodup)
    (hm : r.withExtra extra = .ok r') (hs : k ≠ "service".toList) (he : k ≠ "environment".toList) :
    ((r'.withLabels labels).withContext context).fields.get? k =
      (extra.get? k).or (if isClosed k then none else context.get? k) := by
  rw [get?_withContext, withLabels, Fields.get?_set, if_neg he, Fields.get?_set, if_neg hs,
    get?_withExtra hr hx hm]

/-- Fields have no part in a message. -/
theorem text_of_fields {fields : Fields} (hr : r.fields = [])
    (ht : Record.text { r with fields } = .ok message) : r.text = .ok message := by
  rw [text] at ht ⊢
  cases hf : fields.get? messageOperation with
  | none => simpa [hf, hr, source] using ht
  | some v => simp [hf] at ht

end Record

namespace Line

variable {r r' : Record} {extra context : Fields} {labels : Labels} {part : Text × Text}
  {stamp message line key : Text}

/-- A line is made of the time and the message of its record, and each of its names stands for the
JSON form of a field. -/
theorem exists_object (hl : json r = .ok line) : ∃ stamp message object,
    Time.stamp r.created = .ok stamp ∧ r.text = .ok message ∧
      (Json.object object).render = line ∧
      ∀ key v, (told stamp message r).get? key = some v →
        ∃ j, v.toJson r.room.json = .ok j ∧ object.lookup key = some j := by
  obtain ⟨fields, object, hf, ho, hline⟩ := json_eq_ok.1 hl
  obtain ⟨stamp, message, hs, ht, -, rfl⟩ := jsonFields_eq_ok.1 hf
  exact ⟨stamp, message, object, hs, ht, hline, fun key v h => lookup_forms ho h⟩

theorem get?_opening (hp : part ∈ replaceable stamp r) :
    (opening stamp message r).get? part.1 = some (.text part.2) := by
  simp only [replaceable, List.mem_cons, List.not_mem_nil, or_false] at hp
  obtain rfl | rfl | rfl := hp <;> simp [opening, replaceable]

theorem get?_opening_message :
    (opening stamp message r).get? "message".toList = some (.text message) := by
  simp [opening, replaceable]

/-- Calls and contexts can have fields under the names of these parts, and none is hidden. -/
theorem open_of_replaceable (hp : part ∈ replaceable stamp r) :
    part.1 ≠ "exc_info".toList ∧ part.1 ≠ "service".toList ∧ part.1 ≠ "environment".toList ∧
      isHidden part.1 = false ∧ Record.isClosed part.1 = false := by
  simp only [replaceable, List.mem_cons, List.not_mem_nil, or_false] at hp
  obtain rfl | rfl | rfl := hp <;> dsimp only <;> decide

/-- The line of a record with the fields of a call, labels and a context tells the message of the
record. It tells its time, level and logger as well, each under a name that neither call nor context
has; under a name that one of them has it tells the field, and of two fields that of the call. -/
theorem identity_of_json (hr : r.fields = []) (hx : extra.keys.Nodup)
    (hm : r.withExtra extra = .ok r')
    (hl : json ((r'.withLabels labels).withContext context) = .ok line) :
    ∃ stamp message object, Time.stamp r.created = .ok stamp ∧ r.text = .ok message ∧
      (Json.object object).render = line ∧
      object.lookup "message".toList = some (.text message) ∧
      ∀ part ∈ replaceable stamp r,
        (extra.get? part.1 = none → context.get? part.1 = none →
          object.lookup part.1 = some (.text part.2)) ∧
        ∀ v, (extra.get? part.1).or (context.get? part.1) = some v →
          ∃ j, (plainField v).toJson r.room.json = .ok j ∧ object.lookup part.1 = some j := by
  obtain ⟨stamp, message, object, hs, ht, hline, hobject⟩ := exists_object hl
  have hn := Record.nodup_finished labels context hr hm
  have hget := fun k => Record.get?_finished (k := k) labels context hr hx hm
  have hroom : ((r'.withLabels labels).withContext context).room = r.room := by
    rw [Record.finished_eq hm]
  rw [Record.finished_eq hm] at hs ht
  rw [hroom] at hobject
  have hopening : opening stamp message ((r'.withLabels labels).withContext context) =
      opening stamp message r := by rw [Record.finished_eq hm]; rfl
  refine ⟨stamp, message, object, hs, Record.text_of_fields hr ht, hline, ?_, ?_⟩
  · have hfree : extra.get? "message".toList = none := by
      rw [Fields.get?_eq_none, Fields.keys, List.mem_map]
      rintro ⟨f, hf, hk⟩
      have hfree := (Record.withExtra_eq_ok.1 hm).2.1 f hf
      rw [hk] at hfree
      revert hfree
      decide
    have htold : (told stamp message ((r'.withLabels labels).withContext context)).get?
        "message".toList = some (.text message) := by
      rw [get?_told hn (by decide), hget _ (by decide) (by decide), hfree, hopening,
        get?_opening_message, if_neg (by decide)]
      rfl
    obtain ⟨j, hj, hlook⟩ := hobject _ _ htold
    cases hj
    exact hlook
  · intro part hp
    obtain ⟨hexc, hservice, henv, hhidden, hclosed⟩ := open_of_replaceable hp
    have htold : (told stamp message ((r'.withLabels labels).withContext context)).get? part.1 =
        (((extra.get? part.1).or (context.get? part.1)).map plainField).or
          (some (.text part.2)) := by
      rw [get?_told hn hexc, hget _ hservice henv, hopening, get?_opening hp, hhidden, hclosed]
      rfl
    constructor
    · intro he hc
      rw [he, hc] at htold
      obtain ⟨j, hj, hlook⟩ := hobject _ _ htold
      cases hj
      exact hlook
    · intro v hv
      rw [hv] at htold
      exact hobject _ _ htold

/-- The line tells a field of the call in the place of the level, and one of the context in that of
the logger; one under the name of the message changes nothing. -/
theorem identity_of_json_renamed :
    let r : Record := { logger := "test", level := 20, message := "Done", created := 1 }
    let extra : Fields := [("level", .int 3)]
    let context : Fields := [("level", .null), ("logger", .text "items"), ("message", .null)]
    ∃ r' line object, r.withExtra extra = .ok r' ∧
      json ((r'.withLabels {}).withContext context) = .ok line ∧
      (Json.object object).render = line ∧
      object.lookup "message".toList = some (.text "Done") ∧
      object.lookup "timestamp".toList = some (.text "1970-01-01T00:00:00.000Z") ∧
      object.lookup "level".toList = some (.int 3) ∧
      object.lookup "logger".toList = some (.text "items") := by
  intro r extra context
  obtain ⟨r', hm⟩ : ∃ r', r.withExtra extra = .ok r' :=
    ⟨_, Record.withExtra_of_free (by decide) (by decide)⟩
  obtain ⟨line, hl⟩ : ∃ line, json ((r'.withLabels {}).withContext context) = .ok line := by
    have hok : (json ((r'.withLabels {}).withContext context)).isOk = true := by
      obtain ⟨-, -, rfl⟩ := Record.withExtra_eq_ok.1 hm
      decide +kernel
    cases hl : json ((r'.withLabels {}).withContext context) with
    | ok line => exact ⟨line, rfl⟩
    | error fault =>
      rw [hl] at hok
      cases hok
  obtain ⟨stamp, message, object, hs, ht, hline, hmessage, hparts⟩ :=
    identity_of_json rfl (by decide) hm hl
  have hstamp : Time.stamp r.created = .ok "1970-01-01T00:00:00.000Z".toList := by decide +kernel
  obtain rfl := Except.ok.inj (hs.symm.trans hstamp)
  obtain rfl : message = "Done".toList := (Except.ok.inj ht).symm
  simp only [replaceable, List.forall_mem_cons] at hparts
  obtain ⟨⟨htime, -⟩, ⟨-, hlevel⟩, ⟨-, hlogger⟩, -⟩ := hparts
  obtain ⟨j, hj, hlevel⟩ := hlevel (.int 3) rfl
  cases hj
  obtain ⟨j, hj, hlogger⟩ := hlogger (.text "items") rfl
  cases hj
  exact ⟨r', line, object, hm, hl, hline, hmessage, htime rfl rfl, hlevel, hlogger⟩

/-- The line tells a field of the call in the place of the time of its record. -/
theorem identity_replaced :
    let r : Record := { logger := "test", level := 20, message := "Done", created := 1 }
    ∃ r', r.withExtra [("timestamp", .text "yesterday")] = .ok r' ∧
      Time.stamp r.created = .ok "1970-01-01T00:00:00.000Z".toList ∧
      json ((r'.withLabels {}).withContext []) = .ok (Json.object
        [("timestamp", .text "yesterday"), ("level", .text "INFO"), ("logger", .text "test"),
          ("message", .text "Done"), ("service", .text "feedfilter"),
          ("environment", .text "local")]).render := by
  intro r
  have hstamp : Time.stamp r.created = .ok "1970-01-01T00:00:00.000Z".toList := by decide +kernel
  exact ⟨_, Record.withExtra_of_free (by decide) (by decide), hstamp, json_eq_ok.2
    ⟨_, _, jsonFields_eq_ok.2 ⟨_, _, hstamp, rfl, by decide, rfl⟩, by rfl, rfl⟩⟩

end Line

end KeywordSieve.Log
