import KeywordSieve.Log.Journal
import KeywordSieve.Proofs.Formless
import KeywordSieve.Proofs.SingleLine

/-!
Records whose fields are scalars. They have a JSON line unless an integer among the fields is too
long; it is one line, and each name has in it the value that the record has under it.
-/
namespace KeywordSieve

open Text

/-- The values that are no collections and have a JSON form. -/
def Value.isScalar : Value → Bool
  | .null | .bool _ | .int _ | .float _ | .text _ => true
  | _ => false

namespace Json

variable {s t : Text}

def ofScalar : Value → Json
  | .bool b => .bool b
  | .int n => .int n
  | .float x => .double x
  | .text t => .text t
  | _ => .null

/-- Among scalars only integers that are too long have no JSON form. -/
theorem toJson_scalar {v : Value} {room : Nat} {j : Json} (h : v.isScalar = true) :
    v.toJson room = .ok j ↔ v.isWritable = true ∧ ofScalar v = j := by
  cases v with
  | null => simp [Value.toJson, Value.isWritable, ofScalar]
  | bool b => simp [Value.toJson, Value.isWritable, ofScalar]
  | int n =>
    rw [Value.toJson, Value.intForm, Value.isWritable]
    cases Value.isTooLong n <;> simp [ofScalar]
  | float x => simp [Value.toJson, Value.isWritable, ofScalar]
  | text t => simp [Value.toJson, Value.isWritable, ofScalar]
  | _ => cases h

theorem noControl_cons {c : Char} : NoControl (c :: t) ↔ 0x20 ≤ c.toNat ∧ NoControl t :=
  List.forall_mem_cons

theorem noControl_append : NoControl (s ++ t) ↔ NoControl s ∧ NoControl t := List.forall_mem_append

theorem NoControl.subset (ht : NoControl t) (h : s ⊆ t) : NoControl s := by
  intro c hc
  exact ht c (h hc)

theorem noControl_ofNat (n : Nat) : NoControl (ofNat n) := noControl_ofInt n

theorem noControl_zeros (n : Nat) : NoControl (List.replicate n '0') := by
  intro c hc
  rw [List.eq_of_mem_replicate hc]
  decide

theorem noControl_digits (width n : Nat) : NoControl (digits width n) :=
  (noControl_zeros _).append (noControl_ofNat n)

theorem noControl_layOut (ht : NoControl t) (point : Int) : NoControl (Double.layOut t point) := by
  have htake : ∀ n, NoControl (t.take n) := fun n => ht.subset (List.take_subset n t)
  have hdrop : ∀ n, NoControl (t.drop n) := fun n => ht.subset (List.drop_subset n t)
  rw [Double.layOut]
  split
  · simp only [noControl_append, noControl_cons]
    exact ⟨⟨by decide, by decide, noControl_zeros _⟩, ht⟩
  · split
    · simp only [noControl_append, noControl_cons]
      refine ⟨⟨htake _, noControl_zeros _⟩, by decide, ?_⟩
      split
      · decide
      · exact hdrop _
    · simp only [noControl_append, noControl_cons]
      refine ⟨⟨htake _, ?_⟩, by decide, ?_, noControl_digits _ _⟩
      · split
        · decide
        · next hd =>
          rw [noControl_cons]
          exact ⟨by decide, hdrop 1⟩
      · split <;> decide

theorem noControl_shortest (m : Nat) (q : Int) : NoControl (Double.shortest m q).1 := by
  apply NoControl.subset (noControl_ofNat (Double.search m q (Double.magnitude m q) 1 17).1)
  intro c hc
  have hr := List.dropWhile_subset _ (List.mem_reverse.1 hc)
  exact List.mem_reverse.1 hr

theorem noControl_doubleText (x : Double) : NoControl (doubleText x) := by
  cases x with
  | nan => decide
  | infinite negative => cases negative <;> decide
  | finite negative m q =>
    have hm : NoControl (Double.magnitudeText m q) := by
      rw [Double.magnitudeText]
      split
      · decide
      · exact noControl_layOut (noControl_shortest m q) _
    have he : doubleText (.finite negative m q) =
        if negative then '-' :: Double.magnitudeText m q else Double.magnitudeText m q := rfl
    rw [he]
    split
    · exact noControl_cons.2 ⟨by decide, hm⟩
    · exact hm

theorem noControl_ofScalar (v : Value) : NoControl (render (ofScalar v)) := by
  cases v with
  | bool b => cases b <;> decide
  | int n => exact noControl_ofInt n
  | float x => exact noControl_doubleText x
  | text t => exact noControl_string t
  | _ => exact (by decide : NoControl "null".toList)

/-- The object that has some scalars as its fields. -/
def ofFields (fields : Log.Fields) : Json := .object (fields.map fun f => (f.1, ofScalar f.2))

/-- An object of scalars is written on one line. -/
theorem lineFeed_not_mem_ofFields (fields : Log.Fields) : '\n' ∉ render (ofFields fields) := by
  have hparts : ∀ part ∈ renderFields (fields.map fun f => (f.1, ofScalar f.2)), NoControl part := by
    induction fields with
    | nil => simp [renderFields]
    | cons f fields ih =>
      rw [List.map_cons, renderFields, List.forall_mem_cons]
      refine ⟨?_, ih⟩
      exact ((noControl_string f.1).append (by decide)).append (noControl_ofScalar f.2)
  have hall : NoControl (render (ofFields fields)) := by
    rw [ofFields, render, noControl_append, noControl_cons]
    exact ⟨⟨by decide, noControl_joinWith hparts⟩, by decide⟩
  intro hm
  exact absurd (hall _ hm) (by decide)

end Json

namespace Log

variable {r : Record} {stamp : Text}

structure Record.IsPlain (r : Record) : Prop where
  arguments : r.arguments = []
  trouble : r.trouble = none
  message : r.fields.get? messageOperation = none
  scalar : ∀ f ∈ r.fields, f.2.isScalar = true

theorem Record.IsPlain.text (h : r.IsPlain) : r.text = .ok r.message := by
  rw [Record.text, h.message]
  simp only [h.arguments, List.isEmpty_nil, ↓reduceIte]

namespace Line

/-- What identifies a record in its JSON object. -/
def identity (stamp : Text) (r : Record) : Fields :=
  [("timestamp", .text stamp), ("level", .text (levelName r.level)), ("logger", .text r.logger),
    ("message", .text r.message)]

/-- The fields of the JSON object of a record. -/
def plainFields (stamp : Text) (r : Record) : Fields := (identity stamp r).setAll r.shownFields

theorem scalar_plainFields (h : r.IsPlain) : ∀ f ∈ plainFields stamp r, f.2.isScalar = true := by
  intro f hf
  rcases Fields.mem_setAll hf with hi | hs
  · simp only [identity, List.mem_cons, List.not_mem_nil, or_false] at hi
    rcases hi with rfl | rfl | rfl | rfl <;> rfl
  · exact h.scalar f (List.mem_filter.1 hs).1

theorem plainField_scalar {v : Value} (h : v.isScalar = true) : plainField v = v := by
  cases v with
  | null => rfl
  | bool b => rfl
  | int n => rfl
  | float x => rfl
  | text t => rfl
  | _ => cases h

theorem isPlainable_of_scalar (h : ∀ f ∈ r.shownFields, f.2.isScalar = true) : IsPlainable r := by
  intro f hf
  have hs := h f hf
  cases hv : f.2 with
  | tuple vs =>
    rw [hv] at hs
    cases hs
  | _ => rfl

/-- A plain record has a line if its time has a stamp. -/
theorem jsonFields_of_isPlain (h : r.IsPlain) (ht : Time.stamp r.created = .ok stamp) :
    jsonFields r = .ok (plainFields stamp r) := by
  have hscalar : ∀ f ∈ r.shownFields, f.2.isScalar = true :=
    fun f hf => h.scalar f (List.mem_filter.1 hf).1
  refine jsonFields_eq_ok.2 ⟨stamp, r.message, ht, h.text, isPlainable_of_scalar hscalar, ?_⟩
  have hshown : (r.shownFields.map fun f => (f.1, plainField f.2)) = r.shownFields := by
    rw [List.map_congr_left, List.map_id]
    intro f hf
    rw [plainField_scalar (hscalar f hf)]
    rfl
  rw [told, h.trouble, hshown]
  rfl

theorem mapM_ok {α β ε : Type} {f : α → Except ε β} {g : α → β} {xs : List α}
    (h : ∀ x ∈ xs, f x = .ok (g x)) : xs.mapM f = .ok (xs.map g) := by
  induction xs with
  | nil => rfl
  | cons x xs ih =>
    rw [List.forall_mem_cons] at h
    rw [List.mapM_cons, h.1, ih h.2]
    rfl

/-- Of scalars, only integers that are too long keep a line from being written. -/
theorem hinders_scalar {room : Room} {v : Value} {fault : Fault} (h : v.isScalar = true) :
    Hinders room v fault ↔ v.isWritable = false ∧ fault = .json .digits := by
  constructor
  · intro hh
    cases fault with
    | json why =>
      have hr : v.Refuses room.json why := plainField_scalar h ▸ hh
      obtain ⟨x, hx, hf⟩ | ⟨-, hd⟩ := hr
      · cases hf with
        | int hn =>
          cases hx with
          | self => exact ⟨congrArg not hn, rfl⟩
          | _ => cases h
        | _ => cases hx <;> cases h
      · have hflat : v.nesting = 0 := by
          cases v with
          | list vs => cases h
          | tuple vs => cases h
          | mapping entries => cases h
          | _ => rfl
        exact absurd (hflat ▸ hd) (Nat.not_lt_zero _)
    | unwritable why =>
      obtain ⟨⟨vs, rfl⟩, -⟩ := hh
      cases h
    | _ => cases hh
  · rintro ⟨hw, rfl⟩
    cases v with
    | int n =>
      rw [Value.isWritable, Bool.not_eq_false'] at hw
      exact .inl ⟨_, .self, .int hw⟩
    | null => cases hw
    | bool b => cases hw
    | float x => cases hw
    | text t => cases hw
    | _ => cases h

/-- A plain record that has no line is dropped. -/
theorem endsCall_json_of_isPlain {fault : Fault} (h : r.IsPlain) (he : json r = .error fault) :
    fault.endsCall = false := by
  obtain ⟨why, -, rfl⟩ | ht | ⟨f, hf, -, hh⟩ := json_eq_error he
  · rfl
  · rw [h.text] at ht
    cases ht
  · obtain ⟨-, rfl⟩ := (hinders_scalar (h.scalar f hf)).1 hh
    rfl

/-- A plain record has a line if the fields that are shown can be written out. -/
theorem json_of_isPlain (h : r.IsPlain) (hw : ∀ f ∈ r.shownFields, f.2.isWritable = true)
    (ht : Time.stamp r.created = .ok stamp) :
    json r = .ok (Json.ofFields (plainFields stamp r)).render := by
  have hforms : forms r.room.json (plainFields stamp r) =
      .ok ((plainFields stamp r).map fun f => (f.1, Json.ofScalar f.2)) := by
    apply mapM_ok
    intro f hf
    have hwritable : f.2.isWritable = true := by
      rcases Fields.mem_setAll hf with hi | hs
      · simp only [identity, List.mem_cons, List.not_mem_nil, or_false] at hi
        rcases hi with rfl | rfl | rfl | rfl <;> rfl
      · exact hw f hs
    rw [(Json.toJson_scalar (scalar_plainFields h f hf)).2 ⟨hwritable, rfl⟩]
    rfl
  exact json_eq_ok.2 ⟨_, _, jsonFields_of_isPlain h ht, hforms, rfl⟩

/-- A field that is not hidden stands in the line; what identifies the record does where no field
takes its place. -/
theorem get?_plainFields (h : r.fields.keys.Nodup) (k : Text) :
    (plainFields stamp r).get? k =
      (if isHidden k then none else r.fields.get? k).or ((identity stamp r).get? k) := by
  have hf := Fields.get?_filter (!isHidden ·) r.fields k
  rw [plainFields, Fields.get?_setAll, Record.shownFields,
    Fields.get?_reverse (Fields.keys_filter_nodup _ h), hf]
  cases isHidden k <;> rfl

end Line

end Log

end KeywordSieve
