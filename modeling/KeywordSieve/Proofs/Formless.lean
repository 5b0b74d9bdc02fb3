import KeywordSieve.Proofs.Identity
import KeywordSieve.Proofs.Writable

/-!
What keeps a JSON line from being written. A field that is itself a date, a time or bytes stands in
its line as text. The elements of a list and the values of a mapping get no such treatment: one of
them without a JSON form, at whatever depth, leaves the record without a line. So does an integer of
too many digits, and what is nested deeper than the stack allows.
-/
namespace KeywordSieve

open Text

namespace Value

variable {v x : Value} {vs : List Value} {entries : List (Value × Value)} {why : JsonFault}
  {room : Nat} {j : Json} {js : List Json} {fields : List (Text × Json)}

/-- The value `x` is the given one or lies in it, at whatever depth. -/
inductive Lies (x : Value) : Value → Prop where
  | self : Lies x x
  | list {vs : List Value} {v : Value} (hm : v ∈ vs) (h : Lies x v) : Lies x (.list vs)
  | tuple {vs : List Value} {v : Value} (hm : v ∈ vs) (h : Lies x v) : Lies x (.tuple vs)
  | mapping {entries : List (Value × Value)} {e : Value × Value} (hm : e ∈ entries)
      (h : Lies x e.2) : Lies x (.mapping entries)

/-- A value without a JSON form whatever it holds: its kind has none, it is an integer of too many
digits, or one of its keys does not make a field name. -/
inductive Formless : Value → JsonFault → Prop where
  | int {n : Int} (h : isTooLong n = true) : Formless (.int n) .digits
  | bytes (bs : List UInt8) : Formless (.bytes bs) (.kind "bytes")
  | date (d : Date) : Formless (.date d) (.kind "date")
  | dateTime (d : DateTime) : Formless (.dateTime d) (.kind "datetime")
  | key {entries : List (Value × Value)} {e : Value × Value} {why : JsonFault} (hm : e ∈ entries)
      (hk : fieldName e.1 = .error why) : Formless (.mapping entries) why

mutual

def nesting : Value → Nat
  | list vs => nestingOfAll vs + 1
  | tuple vs => nestingOfAll vs + 1
  | mapping entries => nestingOfEntries entries + 1
  | _ => 0

def nestingOfAll : List Value → Nat
  | [] => 0
  | v :: rest => max (nesting v) (nestingOfAll rest)

def nestingOfEntries : List (Value × Value) → Nat
  | [] => 0
  | (_, v) :: rest => max (nesting v) (nestingOfEntries rest)

end

theorem toJson_list_eq_ok : toJson room (list vs) = .ok j ↔
    ∃ inner js, room = inner + 1 ∧ allToJson inner vs = .ok js ∧ .array js = j := by
  cases room with
  | zero => simp [toJson]
  | succ inner => simp [toJson]

theorem toJson_mapping_eq_ok : toJson room (mapping entries) = .ok j ↔
    ∃ inner fields, room = inner + 1 ∧ entriesToJson inner entries = .ok fields ∧
      .object fields = j := by
  cases room with
  | zero => simp [toJson]
  | succ inner => simp [toJson]

theorem toJson_tuple : toJson room (tuple vs) = toJson room (list vs) := by
  cases room <;> rfl

theorem allToJson_eq_ok (h : allToJson room vs = .ok js) (hm : v ∈ vs) :
    ∃ j, v.toJson room = .ok j := by
  induction vs generalizing js with
  | nil => cases hm
  | cons w vs ih =>
    simp only [allToJson, bind_eq_ok, pure_eq_ok] at h
    obtain ⟨j, hj, rest, hr, rfl⟩ := h
    rcases List.mem_cons.1 hm with rfl | hm
    · exact ⟨j, hj⟩
    · exact ih hr hm

theorem entriesToJson_eq_ok {e : Value × Value} (h : entriesToJson room entries = .ok fields)
    (hm : e ∈ entries) : (∃ name, fieldName e.1 = .ok name) ∧ ∃ j, e.2.toJson room = .ok j := by
  induction entries generalizing fields with
  | nil => cases hm
  | cons f entries ih =>
    obtain ⟨key, w⟩ := f
    simp only [entriesToJson, bind_eq_ok, pure_eq_ok] at h
    obtain ⟨name, hn, j, hj, rest, hr, rfl⟩ := h
    rcases List.mem_cons.1 hm with rfl | hm
    · exact ⟨⟨name, hn⟩, j, hj⟩
    · exact ih hr hm

/-- What has a JSON form holds no value without one. -/
theorem Lies.not_formless (hx : Lies x v) (h : v.toJson room = .ok j) : ¬ Formless x why := by
  -- what has a form has it for each of its parts, so the form goes down to where `x` lies
  induction hx generalizing room j with
  | self =>
    intro hf
    cases hf with
    | int hn =>
      rw [toJson, intForm, hn] at h
      cases h
    | bytes bs => cases h
    | date d => cases h
    | dateTime d => cases h
    | key hm hk =>
      obtain ⟨inner, fields, -, hfields, -⟩ := toJson_mapping_eq_ok.1 h
      obtain ⟨⟨name, hn⟩, -⟩ := entriesToJson_eq_ok hfields hm
      rw [hk] at hn
      cases hn
  | list hm _ ih =>
    obtain ⟨inner, js, -, hjs, -⟩ := toJson_list_eq_ok.1 h
    obtain ⟨j, hj⟩ := allToJson_eq_ok hjs hm
    exact ih hj
  | tuple hm _ ih =>
    obtain ⟨inner, js, -, hjs, -⟩ := toJson_list_eq_ok.1 (toJson_tuple ▸ h)
    obtain ⟨j, hj⟩ := allToJson_eq_ok hjs hm
    exact ih hj
  | mapping hm _ ih =>
    obtain ⟨inner, fields, -, hfields, -⟩ := toJson_mapping_eq_ok.1 h
    obtain ⟨-, j, hj⟩ := entriesToJson_eq_ok hfields hm
    exact ih hj

theorem isWritable_of_fieldName {key : Value} {name : Text} (h : fieldName key = .ok name) :
    key.isWritable = true := by
  cases key with
  | int n =>
    rw [fieldName, intForm] at h
    split at h
    · cases h
    · next hn => exact congrArg not (Bool.eq_false_of_not_eq_true hn)
  | list vs => cases h
  | tuple vs => cases h
  | mapping entries => cases h
  | _ => rfl

/-- A value within the limits: no integer in it is too long, and it is not nested too deep. -/
def IsWithin (room : Nat) (v : Value) : Prop := v.isWritable = true ∧ v.nesting ≤ room

instance (room : Nat) (v : Value) : Decidable (v.IsWithin room) :=
  inferInstanceAs (Decidable (_ ∧ _))

mutual

/-- What has a JSON form is within the limits. -/
theorem isWithin_of_toJson (v : Value) (room : Nat) (j : Json) (h : v.toJson room = .ok j) :
    v.IsWithin room := by
  cases v with
  | int n =>
    rw [toJson, intForm] at h
    split at h
    · cases h
    · next hn => exact ⟨congrArg not (Bool.eq_false_of_not_eq_true hn), Nat.zero_le room⟩
  | list vs =>
    obtain ⟨inner, js, rfl, hjs, -⟩ := toJson_list_eq_ok.1 h
    obtain ⟨hw, hn⟩ := within_of_allToJson vs inner js hjs
    exact ⟨hw, Nat.succ_le_succ hn⟩
  | tuple vs =>
    obtain ⟨inner, js, rfl, hjs, -⟩ := toJson_list_eq_ok.1 (toJson_tuple ▸ h)
    obtain ⟨hw, hn⟩ := within_of_allToJson vs inner js hjs
    exact ⟨hw, Nat.succ_le_succ hn⟩
  | mapping entries =>
    obtain ⟨inner, fields, rfl, hfields, -⟩ := toJson_mapping_eq_ok.1 h
    obtain ⟨hw, hn⟩ := within_of_entriesToJson entries inner fields hfields
    exact ⟨hw, Nat.succ_le_succ hn⟩
  | _ => exact ⟨rfl, Nat.zero_le room⟩

theorem within_of_allToJson (vs : List Value) (room : Nat) (js : List Json)
    (h : allToJson room vs = .ok js) : allWritable vs = true ∧ nestingOfAll vs ≤ room := by
  cases vs with
  | nil => exact ⟨rfl, Nat.zero_le room⟩
  | cons v vs =>
    simp only [allToJson, bind_eq_ok, pure_eq_ok] at h
    obtain ⟨j, hj, rest, hr, -⟩ := h
    obtain ⟨hw, hn⟩ := isWithin_of_toJson v room j hj
    obtain ⟨hws, hns⟩ := within_of_allToJson vs room rest hr
    exact ⟨Bool.and_eq_true_iff.2 ⟨hw, hws⟩, max_le hn hns⟩

theorem within_of_entriesToJson (entries : List (Value × Value)) (room : Nat)
    (fields : List (Text × Json)) (h : entriesToJson room entries = .ok fields) :
    entriesWritable entries = true ∧ nestingOfEntries entries ≤ room := by
  cases entries with
  | nil => exact ⟨rfl, Nat.zero_le room⟩
  | cons e entries =>
    obtain ⟨key, v⟩ := e
    simp only [entriesToJson, bind_eq_ok, pure_eq_ok] at h
    obtain ⟨name, hk, j, hj, rest, hr, -⟩ := h
    obtain ⟨hw, hn⟩ := isWithin_of_toJson v room j hj
    obtain ⟨hws, hns⟩ := within_of_entriesToJson entries room rest hr
    rw [entriesWritable, isWritable_of_fieldName hk, hw, hws]
    exact ⟨rfl, max_le hn hns⟩

end

/-- What keeps a value from having a JSON form: a value in it that has none, or its own depth. -/
def Refuses (room : Nat) (v : Value) (why : JsonFault) : Prop :=
  (∃ x, Lies x v ∧ Formless x why) ∨ why = .depth ∧ room < v.nesting

theorem not_refuses_of_ok (h : v.toJson room = .ok j) : ¬ v.Refuses room why := by
  rintro (⟨x, hx, hf⟩ | ⟨-, hd⟩)
  · exact hx.not_formless h hf
  · exact Nat.not_lt.2 (isWithin_of_toJson v room j h).2 hd

theorem le_nestingOfAll (hm : v ∈ vs) : v.nesting ≤ nestingOfAll vs := by
  induction vs with
  | nil => cases hm
  | cons w vs ih =>
    rcases List.mem_cons.1 hm with rfl | hm
    · exact le_max_left _ _
    · exact (ih hm).trans (le_max_right _ _)

theorem le_nestingOfEntries {e : Value × Value} (hm : e ∈ entries) :
    e.2.nesting ≤ nestingOfEntries entries := by
  induction entries with
  | nil => cases hm
  | cons f entries ih =>
    rcases List.mem_cons.1 hm with rfl | hm
    · exact le_max_left _ _
    · exact (ih hm).trans (le_max_right _ _)

theorem Refuses.list (hm : v ∈ vs) (h : v.Refuses room why) :
    (list vs).Refuses (room + 1) why := by
  obtain ⟨x, hx, hf⟩ | ⟨hw, hd⟩ := h
  · exact .inl ⟨x, .list hm hx, hf⟩
  · exact .inr ⟨hw, Nat.succ_lt_succ (hd.trans_le (le_nestingOfAll hm))⟩

theorem Refuses.tuple (hm : v ∈ vs) (h : v.Refuses room why) :
    (tuple vs).Refuses (room + 1) why := by
  obtain ⟨x, hx, hf⟩ | ⟨hw, hd⟩ := h
  · exact .inl ⟨x, .tuple hm hx, hf⟩
  · exact .inr ⟨hw, Nat.succ_lt_succ (hd.trans_le (le_nestingOfAll hm))⟩

theorem Refuses.mapping {e : Value × Value} (hm : e ∈ entries) (h : e.2.Refuses room why) :
    (mapping entries).Refuses (room + 1) why := by
  obtain ⟨x, hx, hf⟩ | ⟨hw, hd⟩ := h
  · exact .inl ⟨x, .mapping hm hx, hf⟩
  · exact .inr ⟨hw, Nat.succ_lt_succ (hd.trans_le (le_nestingOfEntries hm))⟩

mutual

/-- What has no JSON form holds a value that has none whatever it holds, or is too deep. -/
theorem refuses_of_error (v : Value) (room : Nat) (h : v.toJson room = .error why) :
    v.Refuses room why := by
  cases v with
  | int n =>
    rw [toJson, intForm] at h
    split at h
    · next hn =>
      cases h
      exact .inl ⟨_, .self, .int hn⟩
    · cases h
  | list vs =>
    cases room with
    | zero =>
      cases h
      exact .inr ⟨rfl, Nat.succ_pos _⟩
    | succ inner =>
      obtain ⟨v, hm, hv⟩ := exists_refuses vs inner (map_eq_error.1 h)
      exact hv.list hm
  | tuple vs =>
    cases room with
    | zero =>
      cases h
      exact .inr ⟨rfl, Nat.succ_pos _⟩
    | succ inner =>
      obtain ⟨v, hm, hv⟩ := exists_refuses vs inner (map_eq_error.1 h)
      exact hv.tuple hm
  | mapping entries =>
    cases room with
    | zero =>
      cases h
      exact .inr ⟨rfl, Nat.succ_pos _⟩
    | succ inner =>
      obtain ⟨e, hm, hk | hv⟩ := exists_refuses_entry entries inner (map_eq_error.1 h)
      · exact .inl ⟨_, .self, .key hm hk⟩
      · exact hv.mapping hm
  | bytes bs =>
    cases h
    exact .inl ⟨_, .self, .bytes bs⟩
  | date d =>
    cases h
    exact .inl ⟨_, .self, .date d⟩
  | dateTime d =>
    cases h
    exact .inl ⟨_, .self, .dateTime d⟩
  | _ => cases h

/-- If a list has no JSON form, something in it has none. -/
theorem exists_refuses (vs : List Value) (room : Nat) (h : allToJson room vs = .error why) :
    ∃ v ∈ vs, v.Refuses room why := by
  cases vs with
  | nil => cases h
  | cons v vs =>
    simp only [allToJson, bind_eq_error, pure_ne_error, and_false, exists_false, or_false] at h
    obtain hv | ⟨-, -, hr⟩ := h
    · exact ⟨v, List.mem_cons_self, refuses_of_error v room hv⟩
    · obtain ⟨w, hm, hw⟩ := exists_refuses vs room hr
      exact ⟨w, List.mem_cons_of_mem v hm, hw⟩

theorem exists_refuses_entry (entries : List (Value × Value)) (room : Nat)
    (h : entriesToJson room entries = .error why) :
    ∃ e ∈ entries, fieldName e.1 = .error why ∨ e.2.Refuses room why := by
  cases entries with
  | nil => cases h
  | cons e entries =>
    obtain ⟨key, v⟩ := e
    simp only [entriesToJson, bind_eq_error, pure_ne_error, and_false, exists_false, or_false] at h
    obtain hk | ⟨-, -, hv | ⟨-, -, hr⟩⟩ := h
    · exact ⟨_, List.mem_cons_self, .inl hk⟩
    · exact ⟨_, List.mem_cons_self, .inr (refuses_of_error v room hv)⟩
    · obtain ⟨f, hm, hf⟩ := exists_refuses_entry entries room hr
      exact ⟨f, List.mem_cons_of_mem _ hm, hf⟩

end

end Value

namespace Log

namespace Line

variable {r r' : Record} {extra fields : Fields} {f : Text × Value} {v : Value} {fault : Fault}
  {room : Room} {stamp message line : Text}

/-- What keeps a line from being written of a field: what stands for it has no JSON form, or a tuple
cannot become text. -/
def Hinders (room : Room) (v : Value) : Fault → Prop
  | .json why => (plainField v).Refuses room.json why
  | .unwritable why => (∃ vs, v = .tuple vs) ∧ v.Exceeds room.text why
  | _ => False

theorem hinders_of_plainRefusal {why : Value.WriteFault}
    (h : plainRefusal? room.text v = some why) : Hinders room v (.unwritable why) := by
  cases v with
  | tuple vs => exact ⟨⟨vs, rfl⟩, Value.exceeds_of_refusal? _ _ h⟩
  | _ => cases h

theorem not_hinders_of_ok {j : Json} (hp : plainRefusal? room.text v = none)
    (hj : (plainField v).toJson room.json = .ok j) : ¬ Hinders room v fault := by
  cases fault with
  | json why => exact Value.not_refuses_of_ok hj
  | unwritable why =>
    rintro ⟨⟨vs, rfl⟩, he⟩
    exact Value.forall_not_exceeds.2 ((Value.refusal?_eq_none _ _).1 hp) why he
  | _ => exact not_false

/-- Fields are without JSON forms if one of them is. -/
theorem forms_eq_error {room : Nat} (h : forms room fields = .error fault) :
    ∃ f ∈ fields, ∃ why, f.2.toJson room = .error why ∧ .json why = fault := by
  induction fields with
  | nil => cases h
  | cons f fields ih =>
    simp only [forms, List.mapM_cons, bind_eq_error, pure_ne_error, and_false, exists_false,
      or_false, mapError_eq_error] at h
    obtain hf | ⟨-, -, hr⟩ := h
    · exact ⟨f, List.mem_cons_self, hf⟩
    · obtain ⟨g, hm, hg⟩ := ih hr
      exact ⟨g, List.mem_cons_of_mem f hm, hg⟩

/-- A line has texts of its own and the fields that are shown. -/
theorem mem_told (h : f ∈ told stamp message r) :
    (∃ t, f.2 = .text t) ∨ ∃ g ∈ r.fields, isHidden g.1 = false ∧ f.2 = plainField g.2 := by
  have hfields : f ∈ (opening stamp message r).setAll
      (r.shownFields.map fun g => (g.1, plainField g.2)) →
      (∃ t, f.2 = .text t) ∨ ∃ g ∈ r.fields, isHidden g.1 = false ∧ f.2 = plainField g.2 := by
    intro h
    obtain ho | hs := Fields.mem_setAll h
    · simp only [opening, replaceable, List.map_cons, List.map_nil, List.cons_append,
        List.nil_append, List.mem_cons, List.not_mem_nil, or_false] at ho
      obtain rfl | rfl | rfl | rfl := ho <;> exact .inl ⟨_, rfl⟩
    · obtain ⟨g, hg, rfl⟩ := List.mem_map.1 hs
      obtain ⟨hm, hh⟩ := List.mem_filter.1 hg
      exact .inr ⟨g, hm, by simpa using hh, rfl⟩
  rw [told] at h
  split at h
  · obtain hm | rfl := Fields.mem_set h
    · exact hfields hm
    · exact .inl ⟨_, rfl⟩
  · exact hfields h

theorem mem_shownFields : f ∈ r.shownFields ↔ f ∈ r.fields ∧ isHidden f.1 = false := by
  rw [Record.shownFields, List.mem_filter, Bool.not_eq_true']

theorem check_eq_error {o : Option Value.WriteFault} :
    Fault.check o = .error fault ↔ ∃ why, o = some why ∧ .unwritable why = fault := by
  cases o <;> simp [Fault.check]

theorem jsonFields_eq_error (h : jsonFields r = .error fault) :
    (∃ why, Time.stamp r.created = .error why ∧ .time why = fault) ∨ r.text = .error fault ∨
      ∃ f ∈ r.fields, isHidden f.1 = false ∧ Hinders r.room f.2 fault := by
  simp only [jsonFields, bind_eq_error, mapError_eq_error, check_eq_error, pure_ne_error,
    and_false, exists_false, or_false] at h
  obtain ht | ⟨-, -, hm | ⟨-, -, why, hw, rfl⟩⟩ := h
  · exact .inl ht
  · exact .inr (.inl hm)
  · obtain ⟨f, hf, hw⟩ := List.exists_of_findSome?_eq_some hw
    obtain ⟨hm, hh⟩ := mem_shownFields.1 hf
    exact .inr (.inr ⟨f, hm, hh, hinders_of_plainRefusal hw⟩)

/-- Only its time, its message and the fields that are shown leave a record without a line. -/
theorem json_eq_error (h : json r = .error fault) :
    (∃ why, Time.stamp r.created = .error why ∧ .time why = fault) ∨ r.text = .error fault ∨
      ∃ f ∈ r.fields, isHidden f.1 = false ∧ Hinders r.room f.2 fault := by
  -- the forms of the fields are what `json` takes from them
  have hjson : json r = jsonFields r >>= fun fields => forms r.room.json fields >>= fun object =>
    pure (Json.object object).render := rfl
  simp only [hjson, bind_eq_error, pure_ne_error, and_false, exists_false, or_false] at h
  obtain hfields | ⟨fields, hfields, hforms⟩ := h
  · exact jsonFields_eq_error hfields
  · obtain ⟨stamp, message, -, -, -, rfl⟩ := jsonFields_eq_ok.1 hfields
    obtain ⟨f, hf, why, hw, rfl⟩ := forms_eq_error hforms
    obtain ⟨t, ht⟩ | ⟨g, hg, hh, hp⟩ := mem_told hf
    · rw [ht] at hw
      cases hw
    · rw [hp] at hw
      exact .inr (.inr ⟨g, hg, hh, Value.refuses_of_error _ _ hw⟩)

/-- Under the name of each field that is shown, a line has the JSON form of the field. -/
theorem lookup_of_json (hn : r.fields.keys.Nodup) (hfree : ∀ f ∈ r.fields, isReserved f.1 = false)
    (hl : json r = .ok line) :
    ∃ object, (Json.object object).render = line ∧ ∀ f ∈ r.fields, isHidden f.1 = false →
      ∃ j, (plainField f.2).toJson r.room.json = .ok j ∧ object.lookup f.1 = some j := by
  obtain ⟨stamp, message, object, -, -, hline, hobject⟩ := exists_object hl
  refine ⟨object, hline, fun f hf hh => hobject f.1 _ ?_⟩
  have hk : f.1 ≠ "exc_info".toList := by
    intro hk
    have hreserved := hfree f hf
    rw [hk] at hreserved
    exact absurd hreserved (by decide)
  rw [get?_told hn hk, Fields.get?_of_mem hn hf, hh]
  rfl

/-- A record has a line unless its time, its message or one of its fields has none. -/
theorem exists_json_iff (hn : r.fields.keys.Nodup)
    (hfree : ∀ f ∈ r.fields, isReserved f.1 = false) :
    (∃ line, json r = .ok line) ↔
      (∃ stamp, Time.stamp r.created = .ok stamp) ∧ (∃ message, r.text = .ok message) ∧
        ∀ f ∈ r.fields, isHidden f.1 = false → ∀ fault, ¬ Hinders r.room f.2 fault := by
  constructor
  · rintro ⟨line, hl⟩
    obtain ⟨object, -, hobject⟩ := lookup_of_json hn hfree hl
    obtain ⟨fields, -, hfields, -⟩ := json_eq_ok.1 hl
    obtain ⟨stamp, message, hs, hm, hplain, -⟩ := jsonFields_eq_ok.1 hfields
    refine ⟨⟨stamp, hs⟩, ⟨message, hm⟩, fun f hf hh fault => ?_⟩
    obtain ⟨j, hj, -⟩ := hobject f hf hh
    exact not_hinders_of_ok (hplain f (mem_shownFields.2 ⟨hf, hh⟩)) hj
  · rintro ⟨⟨stamp, hs⟩, ⟨message, hm⟩, hnone⟩
    cases hl : json r with
    | ok line => exact ⟨line, rfl⟩
    | error fault =>
      obtain ⟨why, hw, -⟩ | hw | ⟨f, hf, hh, hw⟩ := json_eq_error hl
      · rw [hs] at hw
        cases hw
      · rw [hm] at hw
        cases hw
      · exact absurd hw (hnone f hf hh fault)

end Line

namespace Record

variable {r r' : Record} {extra : Fields}

/-- Fields have no part in a message, unless one has the name of the operation that forms it. -/
theorem text_withExtra (hr : r.fields = []) (hx : extra.keys.Nodup)
    (hk : messageOperation ∉ extra.keys) (hm : r.withExtra extra = .ok r') : r'.text = r.text := by
  have hfree : r'.fields.get? messageOperation = none := by
    rw [get?_withExtra hr hx hm, Fields.get?_eq_none.2 hk]
  obtain ⟨-, -, rfl⟩ := withExtra_eq_ok.1 hm
  rw [text, text, hfree, hr]
  rfl

end Record

namespace Line

variable {r r' : Record} {extra : Fields}

/-- A record with the fields of a call has a line just if there are a time and a message to tell and
no field that is shown hinders it. The line has the JSON form of each field that is shown,
and a record without a line has one of these troubles as its fault. -/
theorem json_ok_iff_unhindered (hr : r.fields = []) (hx : extra.keys.Nodup)
    (hk : messageOperation ∉ extra.keys) (hm : r.withExtra extra = .ok r') :
    ((∃ line, json r' = .ok line) ↔
      (∃ stamp, Time.stamp r.created = .ok stamp) ∧ (∃ message, r.text = .ok message) ∧
        ∀ f ∈ extra, isHidden f.1 = false → ∀ fault, ¬ Hinders r.room f.2 fault) ∧
    (∀ line, json r' = .ok line → ∃ object, (Json.object object).render = line ∧
      ∀ f ∈ extra, isHidden f.1 = false →
        ∃ j, (plainField f.2).toJson r.room.json = .ok j ∧ object.lookup f.1 = some j) ∧
    ∀ fault, json r' = .error fault →
      (∃ why, Time.stamp r.created = .error why ∧ .time why = fault) ∨ r.text = .error fault ∨
        ∃ f ∈ extra, isHidden f.1 = false ∧ Hinders r.room f.2 fault := by
  obtain ⟨-, hfree, hr'⟩ := Record.withExtra_eq_ok.1 hm
  have hmem := Record.mem_withExtra hr hx hm
  have hfree : ∀ f ∈ r'.fields, isReserved f.1 = false := fun f hf => hfree f ((hmem f).1 hf)
  have hn := Record.nodup_withExtra hr hm
  have hcreated : r'.created = r.created := by rw [← hr']
  have hroom : r'.room = r.room := by rw [← hr']
  have htext := Record.text_withExtra hr hx hk hm
  have hiff := exists_json_iff hn hfree
  have hlookup := fun line (hl : json r' = .ok line) => lookup_of_json hn hfree hl
  have hfault := fun fault (h : json r' = .error fault) => json_eq_error h
  simp only [hmem, hcreated, hroom, htext] at hiff hlookup hfault
  exact ⟨hiff, hlookup, hfault⟩

/-- Dates on their own and a tuple of dates become text, a date in a list would hinder the line if
the field were shown, and a list of tuples of texts hinders nothing. -/
theorem json_ok_iff_unhindered_dates :
    let r : Record := { logger := "test", level := 20, message := "Done", created := 1 }
    let day : Value := .date ⟨2024, 1, 2⟩
    let extra : Fields := [("day", day), ("days", .tuple [day]), ("_days", .list [day]),
      ("terms", .list [.tuple [.text "flood"]])]
    ∃ r' line object, r.withExtra extra = .ok r' ∧ json r' = .ok line ∧
      (Json.object object).render = line ∧
      object.lookup "day".toList = some (.text "2024-01-02") ∧
      object.lookup "days".toList = some (.text "(datetime.date(2024, 1, 2),)") ∧
      object.lookup "terms".toList = some (.array [.array [.text "flood"]]) := by
  intro r day extra
  obtain ⟨r', hm⟩ : ∃ r', r.withExtra extra = .ok r' :=
    ⟨_, Record.withExtra_of_free (by decide) (by decide)⟩
  obtain ⟨hiff, hlines, -⟩ := json_ok_iff_unhindered rfl (by decide) (by decide) hm
  have hforms : ∀ f ∈ extra, isHidden f.1 = false →
      plainRefusal? r.room.text f.2 = none ∧ ∃ j, (plainField f.2).toJson r.room.json = .ok j := by
    simp only [extra, List.forall_mem_cons]
    refine ⟨fun _ => ⟨rfl, _, rfl⟩, fun _ => ⟨rfl, _, rfl⟩, fun hh => ?_, fun _ => ⟨rfl, _, rfl⟩,
      nofun⟩
    exact absurd hh (by decide)
  have hstamp : Time.stamp r.created = .ok "1970-01-01T00:00:00.000Z".toList := by decide +kernel
  obtain ⟨line, hl⟩ := hiff.2 ⟨⟨_, hstamp⟩, ⟨_, rfl⟩, fun f hf hh fault =>
    not_hinders_of_ok (hforms f hf hh).1 (hforms f hf hh).2.choose_spec⟩
  obtain ⟨object, hline, hobject⟩ := hlines line hl
  have hlookup : ∀ f ∈ extra, isHidden f.1 = false → ∀ j,
      (plainField f.2).toJson r.room.json = .ok j → object.lookup f.1 = some j := by
    intro f hf hh j hj
    obtain ⟨j', hj', hlook⟩ := hobject f hf hh
    rw [hlook, Except.ok.inj (hj'.symm.trans hj)]
  refine ⟨r', line, object, hm, hl, hline, ?_, ?_, ?_⟩
  · exact hlookup ("day", day) (by simp [extra]) (by decide) _ rfl
  · exact hlookup ("days", .tuple [day]) (by simp [extra]) (by decide) _ rfl
  · exact hlookup ("terms", .list [.tuple [.text "flood"]]) (by simp [extra]) (by decide) _ rfl

/-- A date hinders the line in a list, though on its own it does not. -/
theorem json_nested_date :
    let r : Record := { logger := "test", level := 20, message := "Done", created := 1 }
    let day : Value := .date ⟨2024, 1, 2⟩
    ∃ r' r'' stamp, r.withExtra [("value", .list [day])] = .ok r' ∧
      r.withExtra [("value", day)] = .ok r'' ∧ Time.stamp r.created = .ok stamp ∧
      r.text = .ok "Done".toList ∧ json r' = .error (.json (.kind "date")) ∧
      json r'' = .ok (Json.object [("timestamp", .text stamp), ("level", .text "INFO"),
        ("logger", .text "test"), ("message", .text "Done"),
        ("value", .text "2024-01-02")]).render := by
  intro r day
  have hstamp : Time.stamp r.created = .ok "1970-01-01T00:00:00.000Z".toList := by decide +kernel
  refine ⟨_, _, _, Record.withExtra_of_free (by decide) (by decide),
    Record.withExtra_of_free (by decide) (by decide), hstamp, rfl, by decide +kernel, ?_⟩
  exact json_eq_ok.2 ⟨_, _, jsonFields_eq_ok.2 ⟨_, _, hstamp, rfl, by decide, rfl⟩, by rfl, rfl⟩

end Line

end Log

end KeywordSieve
