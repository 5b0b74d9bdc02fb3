import KeywordSieve.Proofs.Places
import KeywordSieve.Proofs.Scalars
import KeywordSieve.Proofs.Stamps

/-!
JSON lines that are read again. What consists of texts, integers, truth values and nulls, in lists
and in mappings by text, has a JSON form from which it comes back as it was. So the line of a record
with such fields gives back what identifies the record and its fields, in order, and no text among
them reaches outside its own field or onto another line. There is no line if an integer among them is
too long, or if they are nested too deep.
-/
namespace KeywordSieve

open Text

namespace Value

mutual

/-- Whether a value comes back from its JSON form. -/
def isLossless : Value → Bool
  | null => true
  | bool _ => true
  | int _ => true
  | text _ => true
  | list vs => allLossless vs
  | mapping entries => entriesLossless entries
  | _ => false

def allLossless : List Value → Bool
  | [] => true
  | v :: rest => isLossless v && allLossless rest

def entriesLossless : List (Value × Value) → Bool
  | [] => true
  | (text _, v) :: rest => isLossless v && entriesLossless rest
  | _ :: _ => false

end

mutual

/-- A value without losses that is within the limits has a JSON form, which tells it. -/
theorem exists_toJson (v : Value) (room : Nat) (h : v.isLossless = true) (hv : v.IsWithin room) :
    ∃ j, v.toJson room = .ok j ∧ j.isExact = true ∧ j.toValue = v := by
  cases v with
  | null => exact ⟨.null, rfl, rfl, rfl⟩
  | bool b => exact ⟨.bool b, rfl, rfl, rfl⟩
  | int n =>
    refine ⟨.int n, ?_, rfl, rfl⟩
    have hn : isTooLong n = false := by simpa [isWritable] using hv.1
    rw [toJson, intForm, hn]
    rfl
  | text t => exact ⟨.text t, rfl, rfl, rfl⟩
  | list vs =>
    obtain ⟨inner, rfl⟩ := Nat.exists_eq_add_of_le' (Nat.one_le_of_lt hv.2)
    obtain ⟨js, hj, he, hvs⟩ := exists_allToJson vs inner h hv.1 (Nat.le_of_succ_le_succ hv.2)
    exact ⟨.array js, map_eq_ok.2 ⟨js, hj, rfl⟩, he, congrArg list hvs⟩
  | mapping entries =>
    obtain ⟨inner, rfl⟩ := Nat.exists_eq_add_of_le' (Nat.one_le_of_lt hv.2)
    obtain ⟨fields, hj, he, hvs⟩ :=
      exists_entriesToJson entries inner h hv.1 (Nat.le_of_succ_le_succ hv.2)
    exact ⟨.object fields, map_eq_ok.2 ⟨fields, hj, rfl⟩, he, congrArg mapping hvs⟩
  | _ => cases h

theorem exists_allToJson (vs : List Value) (room : Nat) (h : allLossless vs = true)
    (hw : allWritable vs = true) (hn : nestingOfAll vs ≤ room) :
    ∃ js, allToJson room vs = .ok js ∧ Json.allExact js = true ∧ Json.allToValue js = vs := by
  cases vs with
  | nil => exact ⟨[], rfl, rfl, rfl⟩
  | cons v vs =>
    rw [allLossless, Bool.and_eq_true] at h
    rw [allWritable, Bool.and_eq_true] at hw
    rw [nestingOfAll, max_le_iff] at hn
    obtain ⟨j, hj, he, hv⟩ := exists_toJson v room h.1 ⟨hw.1, hn.1⟩
    obtain ⟨js, hjs, hes, hvs⟩ := exists_allToJson vs room h.2 hw.2 hn.2
    refine ⟨j :: js, ?_, ?_, ?_⟩
    · simp only [allToJson, hj, hjs, bind_eq_ok, pure_eq_ok]
      exact ⟨j, rfl, js, rfl, rfl⟩
    · rw [Json.allExact, he, hes, Bool.and_self]
    · rw [Json.allToValue, hv, hvs]

theorem exists_entriesToJson (entries : List (Value × Value)) (room : Nat)
    (h : entriesLossless entries = true) (hw : entriesWritable entries = true)
    (hn : nestingOfEntries entries ≤ room) : ∃ fields, entriesToJson room entries = .ok fields ∧
      Json.fieldsExact fields = true ∧ Json.fieldsToValue fields = entries := by
  cases entries with
  | nil => exact ⟨[], rfl, rfl, rfl⟩
  | cons e entries =>
    obtain ⟨key, v⟩ := e
    cases key with
    | text name =>
      rw [entriesLossless, Bool.and_eq_true] at h
      rw [entriesWritable, Bool.and_eq_true, Bool.and_eq_true] at hw
      rw [nestingOfEntries, max_le_iff] at hn
      obtain ⟨j, hj, he, hv⟩ := exists_toJson v room h.1 ⟨hw.1.2, hn.1⟩
      obtain ⟨fields, hf, hes, hvs⟩ := exists_entriesToJson entries room h.2 hw.2 hn.2
      refine ⟨(name, j) :: fields, ?_, ?_, ?_⟩
      · simp only [entriesToJson, fieldName, hj, hf, bind_eq_ok, pure_eq_ok]
        exact ⟨name, rfl, j, rfl, fields, rfl, rfl⟩
      · rw [Json.fieldsExact, he, hes, Bool.and_self]
      · rw [Json.fieldsToValue, hv, hvs]
    | _ => cases h

end

end Value

namespace Log

namespace Line

variable {r r' : Record} {extra fields : Fields} {v : Value} {stamp message line : Text}

theorem plainField_of_isLossless (h : v.isLossless = true) : plainField v = v := by
  cases v with
  | dateTime d => cases h
  | date d => cases h
  | bytes bs => cases h
  | tuple vs => cases h
  | _ => rfl

/-- What a reader of JSON finds in a line: an object with these fields, in this order. -/
def IsReadAs (line : Text) (fields : Fields) : Prop :=
  (Json.ofText? line).map Json.toValue = some (.mapping (fields.map fun f => (.text f.1, f.2)))

theorem exists_forms {room : Nat} (h : ∀ f ∈ fields, f.2.isLossless = true)
    (hw : ∀ f ∈ fields, f.2.IsWithin room) :
    ∃ object, forms room fields = .ok object ∧ Json.fieldsExact object = true ∧
      Json.fieldsToValue object = fields.map fun f => (.text f.1, f.2) := by
  induction fields with
  | nil => exact ⟨[], rfl, rfl, rfl⟩
  | cons f fields ih =>
    rw [List.forall_mem_cons] at h hw
    obtain ⟨j, hj, he, hv⟩ := Value.exists_toJson f.2 room h.1 hw.1
    obtain ⟨object, ho, hes, hvs⟩ := ih h.2 hw.2
    refine ⟨(f.1, j) :: object, ?_, ?_, ?_⟩
    · simp only [forms, List.mapM_cons, bind_eq_ok, mapError_eq_ok, pure_eq_ok]
      exact ⟨_, ⟨j, hj, rfl⟩, object, ho, rfl⟩
    · rw [Json.fieldsExact, he, hes, Bool.and_self]
    · rw [Json.fieldsToValue, hv, hvs, List.map_cons]

/-- Fields that come back from their JSON forms come back from the line that is made of them. -/
theorem exists_line (hf : jsonFields r = .ok fields) (h : ∀ f ∈ fields, f.2.isLossless = true)
    (hw : ∀ f ∈ fields, f.2.IsWithin r.room.json) :
    ∃ line, json r = .ok line ∧ Json.NoControl line ∧ IsReadAs line fields := by
  obtain ⟨object, ho, he, hv⟩ := exists_forms h hw
  have hexact : (Json.object object).isExact = true := he
  refine ⟨_, json_eq_ok.2 ⟨fields, object, hf, ho, rfl⟩, Json.noControl_render _ hexact, ?_⟩
  rw [IsReadAs, Json.ofText?_render hexact, Option.map_some, Json.toValue, hv]

/-- What a line gives back: what identifies the record, and behind that the fields of its call that
are shown, each as it is. -/
def facts (stamp : Text) (r : Record) (extra : Fields) : Fields :=
  identity stamp r ++ extra.filter (!isHidden ·.1)

/-- The names under which a field of a call would take the place of something else. -/
def taken : List Text := ["timestamp", "level", "logger", messageOperation]

/-- The fields of a call under other names come behind what identifies the record. -/
theorem not_mem_identity (stamp : Text) (hk : ∀ k ∈ taken, k ∉ extra.keys)
    (hm : r.withExtra extra = .ok r') :
    ∀ k ∈ Fields.keys (extra.filter (!isHidden ·.1)), k ∉ (identity stamp r).keys := by
  intro k hmem hid
  obtain ⟨f, hf, rfl⟩ := List.mem_map.1 hmem
  have hx : f.1 ∈ extra.keys := List.mem_map.2 ⟨f, (List.mem_filter.1 hf).1, rfl⟩
  have hfree := (Record.withExtra_eq_ok.1 hm).2.1 f (List.mem_filter.1 hf).1
  simp only [identity, Fields.keys_cons, Fields.keys_nil, List.mem_cons, List.not_mem_nil,
    or_false] at hid
  obtain h | h | h | h := hid
  · exact hk _ (by simp [taken]) (h ▸ hx)
  · exact hk _ (by simp [taken]) (h ▸ hx)
  · exact hk _ (by simp [taken]) (h ▸ hx)
  · rw [h] at hfree
    revert hfree
    decide

theorem told_eq_facts (ht : r.trouble = none) (hr : r.fields = []) (hx : extra.keys.Nodup)
    (hv : ∀ f ∈ extra, f.2.isLossless = true) (hk : ∀ k ∈ taken, k ∉ extra.keys)
    (hm : r.withExtra extra = .ok r') : told stamp r.message r' = facts stamp r extra := by
  have hnew := not_mem_identity stamp hk hm
  have hfields := Record.fields_withExtra hr hx hm
  have hshown : ((extra.filter (!isHidden ·.1)).map fun f => (f.1, plainField f.2)) =
      extra.filter (!isHidden ·.1) := by
    rw [List.map_congr_left, List.map_id]
    intro f hf
    rw [plainField_of_isLossless (hv f (List.mem_filter.1 hf).1)]
    rfl
  obtain ⟨-, -, hr'⟩ := Record.withExtra_eq_ok.1 hm
  have hopening : opening stamp r.message r' = identity stamp r := by
    rw [← hr']
    rfl
  have htrouble : r'.trouble = none := by rw [← hr', ← ht]
  simp only [told, Record.shownFields, hopening, htrouble, hfields, hshown]
  exact Fields.setAll_of_disjoint (Fields.keys_filter_nodup _ hx) hnew

theorem jsonFields_eq_facts (ha : r.arguments = []) (ht : r.trouble = none) (hr : r.fields = [])
    (hx : extra.keys.Nodup) (hv : ∀ f ∈ extra, f.2.isLossless = true)
    (hk : ∀ k ∈ taken, k ∉ extra.keys) (hm : r.withExtra extra = .ok r')
    (hs : Time.stamp r.created = .ok stamp) : jsonFields r' = .ok (facts stamp r extra) := by
  have hmessage : r'.text = .ok r.message := by
    have hfree : r'.fields.get? messageOperation = none := by
      rw [Record.get?_withExtra hr hx hm, Fields.get?_eq_none]
      exact hk _ (by simp [taken])
    rw [Record.text, hfree, ← (Record.withExtra_eq_ok.1 hm).2.2]
    simp only [ha, List.isEmpty_nil, ↓reduceIte]
  have hplain : IsPlainable r' := by
    intro f hf
    rw [mem_shownFields, Record.fields_withExtra hr hx hm] at hf
    have hlossless := hv f hf.1
    cases hvalue : f.2 with
    | tuple vs =>
      rw [hvalue] at hlossless
      cases hlossless
    | _ => rfl
  refine jsonFields_eq_ok.2
    ⟨stamp, r.message, ?_, hmessage, hplain, told_eq_facts ht hr hx hv hk hm⟩
  rw [← (Record.withExtra_eq_ok.1 hm).2.2, hs]

/-- The fields of a call that a line tells are within the limits. -/
theorem isWithin_of_json (hr : r.fields = []) (hx : extra.keys.Nodup)
    (hv : ∀ f ∈ extra, f.2.isLossless = true) (hm : r.withExtra extra = .ok r')
    (hl : json r' = .ok line) :
    ∀ f ∈ extra, isHidden f.1 = false → f.2.IsWithin r.room.json := by
  intro f hf hh
  have hfields := Record.fields_withExtra hr hx hm
  obtain ⟨-, hfree, hr'⟩ := Record.withExtra_eq_ok.1 hm
  have hroom : r'.room = r.room := by rw [← hr']
  have hfree : ∀ f ∈ r'.fields, isReserved f.1 = false := by rwa [hfields]
  obtain ⟨object, -, hobject⟩ := lookup_of_json (Record.nodup_withExtra hr hm) hfree hl
  obtain ⟨j, hj, -⟩ := hobject f (by rwa [hfields]) hh
  rw [plainField_of_isLossless (hv f hf), hroom] at hj
  exact Value.isWithin_of_toJson _ _ j hj

/-- The line of a record without arguments and trouble, with fields that come back from their JSON
forms, has no control character, and is read as an object with what identifies the record and then
the fields that are shown, under names that differ. Such a record has a line just if its time has a
stamp, as all times of these ages have, and the fields that are shown are within the limits. -/
theorem facts_of_json (ha : r.arguments = []) (ht : r.trouble = none) (hr : r.fields = [])
    (hx : extra.keys.Nodup) (hv : ∀ f ∈ extra, f.2.isLossless = true)
    (hk : ∀ k ∈ taken, k ∉ extra.keys) (hm : r.withExtra extra = .ok r') :
    let within := ∀ f ∈ extra, isHidden f.1 = false → f.2.IsWithin r.room.json
    (Time.HasStamp r.created → within → ∃ line, json r' = .ok line) ∧
    ((∃ line, json r' = .ok line) ↔ (∃ stamp, Time.stamp r.created = .ok stamp) ∧ within) ∧
    ∀ line, json r' = .ok line → Json.NoControl line ∧
      ∃ stamp, Time.stamp r.created = .ok stamp ∧ IsReadAs line (facts stamp r extra) ∧
        (facts stamp r extra).keys.Nodup := by
  intro within
  obtain ⟨-, -, hr'⟩ := Record.withExtra_eq_ok.1 hm
  have hroom : r'.room = r.room := by rw [← hr']
  have hline : ∀ stamp, Time.stamp r.created = .ok stamp → within →
      ∃ line, json r' = .ok line ∧ Json.NoControl line ∧ IsReadAs line (facts stamp r extra) := by
    intro stamp hs hwithin
    have hfacts : ∀ f ∈ facts stamp r extra,
        f.2.isLossless = true ∧ f.2.IsWithin r'.room.json := by
      intro f hf
      rcases List.mem_append.1 hf with hi | he
      · simp only [identity, List.mem_cons, List.not_mem_nil, or_false] at hi
        rcases hi with rfl | rfl | rfl | rfl <;> exact ⟨rfl, rfl, Nat.zero_le _⟩
      · obtain ⟨he, hh⟩ := List.mem_filter.1 he
        rw [hroom]
        exact ⟨hv f he, hwithin f he (by simpa using hh)⟩
    exact exists_line (jsonFields_eq_facts ha ht hr hx hv hk hm hs) (fun f hf => (hfacts f hf).1)
      fun f hf => (hfacts f hf).2
  have hstamp : ∀ line, json r' = .ok line → ∃ stamp, Time.stamp r.created = .ok stamp := by
    intro line hl
    obtain ⟨stamp, -, -, hs, -⟩ := exists_object hl
    rw [← hr'] at hs
    exact ⟨stamp, hs⟩
  refine ⟨?_, ⟨?_, ?_⟩, ?_⟩
  · intro hc hwithin
    obtain ⟨stamp, hs⟩ := Time.exists_stamp hc
    obtain ⟨line, hl, -⟩ := hline stamp hs hwithin
    exact ⟨line, hl⟩
  · rintro ⟨line, hl⟩
    exact ⟨hstamp line hl, isWithin_of_json hr hx hv hm hl⟩
  · rintro ⟨⟨stamp, hs⟩, hwithin⟩
    obtain ⟨line, hl, -⟩ := hline stamp hs hwithin
    exact ⟨line, hl⟩
  · intro line hl
    obtain ⟨stamp, hs⟩ := hstamp line hl
    obtain ⟨line', hl', hclean, hread⟩ := hline stamp hs (isWithin_of_json hr hx hv hm hl)
    obtain rfl : line' = line := Except.ok.inj (hl'.symm.trans hl)
    refine ⟨hclean, stamp, hs, hread, ?_⟩
    rw [facts, Fields.keys_append]
    refine List.nodup_append.2 ⟨?_, Fields.keys_filter_nodup _ hx, ?_⟩
    · exact (by decide : ["timestamp".toList, "level", "logger", "message"].Nodup)
    · rintro k hi k' he rfl
      exact not_mem_identity stamp hk hm k he hi

/-- A title that would end its string and its line, a field of nested data, and one that is not
shown. -/
theorem facts_of_json_forging :
    let r : Record := { logger := "te\"st", level := 20, message := "Do\nne", created := 1 }
    let title : Value := .text "\", \"level\": 0\x7d\n\x7b\\\x00\u2028"
    let data : Value :=
      .list [.null, .int (-18446744073709551616), .mapping [(.text "\t", .list [.bool false])]]
    let extra : Fields := [("title", title), ("_data", data), ("data", data)]
    ∃ r' line, r.withExtra extra = .ok r' ∧ json r' = .ok line ∧ '\n' ∉ line ∧
      IsReadAs line [("timestamp", .text "1970-01-01T00:00:00.000Z"), ("level", .text "INFO"),
        ("logger", .text "te\"st"), ("message", .text "Do\nne"), ("title", title),
        ("data", data)] := by
  intro r title data extra
  obtain ⟨r', hm⟩ : ∃ r', r.withExtra extra = .ok r' :=
    ⟨_, Record.withExtra_of_free (by decide) (by decide)⟩
  obtain ⟨hexists, -, hlines⟩ := facts_of_json rfl rfl rfl (by decide) (by decide) (by decide) hm
  obtain ⟨line, hl⟩ := hexists (by decide) (by decide)
  obtain ⟨hclean, stamp, hs, hread, -⟩ := hlines line hl
  have hstamp : Time.stamp r.created = .ok "1970-01-01T00:00:00.000Z".toList := by decide +kernel
  obtain rfl := Except.ok.inj (hs.symm.trans hstamp)
  refine ⟨r', line, hm, hl, ?_, hread⟩
  intro hfeed
  exact absurd (hclean _ hfeed) (by decide)

/-- A time behind the last year, an integer of too many digits and lists inside each other leave a
record without a line. -/
theorem facts_unwritten :
    let r : Record := { logger := "test", level := 20, message := "Done", created := 1 }
    let late : Record := { r with created := 253402300800000000 }
    let long : Fields := [("n", .int Value.overlong)]
    let deep : Fields := [("n", Value.nested 900)]
    late.withExtra [] = .ok late ∧ json late = .error (.time (.calendar (.year 10000))) ∧
      (∃ r', r.withExtra long = .ok r' ∧ json r' = .error (.json .digits)) ∧
      (∃ r', r.withExtra deep = .ok r' ∧ json r' = .error (.json .depth)) ∧
      ∀ f ∈ long ++ deep, f.2.isLossless = true ∧ f.1 ∉ taken := by
  intro r late long deep
  have hlong : ∃ r', r.withExtra long = .ok r' ∧ json r' = .error (.json .digits) :=
    ⟨_, Record.withExtra_of_free (by decide) (by decide), by decide +kernel⟩
  have hdeep : ∃ r', r.withExtra deep = .ok r' ∧ json r' = .error (.json .depth) :=
    ⟨_, Record.withExtra_of_free (by decide) (by decide), by decide +kernel⟩
  exact ⟨Record.withExtra_of_free (by decide) (by decide), by decide +kernel, hlong, hdeep,
    by decide +kernel⟩

end Line

end Log

end KeywordSieve
