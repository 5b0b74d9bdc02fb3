import KeywordSieve.Proofs.Identity

/-!
The places of fields. A name that is new comes last, and one that is there keeps its place. So the
names of a record stand in the order in which its sources have them first.
-/
namespace KeywordSieve.Log

open Text

namespace Fields

variable {fs added : Fields} {key : Text} {v : Value}

@[simp] theorem keys_nil : keys [] = [] := rfl

@[simp] theorem keys_cons (f : Text × Value) (fs : Fields) : keys (f :: fs) = f.1 :: keys fs := rfl

theorem keys_append (fs added : Fields) : keys (fs ++ added) = keys fs ++ keys added :=
  List.map_append

theorem keys_filter (p : Text → Bool) (fs : Fields) :
    keys (fs.filter (p ·.1)) = (keys fs).filter p := List.filter_map.symm

theorem keys_map (g : Value → Value) (fs : Fields) :
    keys (fs.map fun f => (f.1, g f.2)) = keys fs := List.map_map

theorem isSome_get? (fs : Fields) (key : Text) : (fs.get? key).isSome = decide (key ∈ keys fs) := by
  rw [Bool.eq_iff_iff, decide_eq_true_iff, ← Option.ne_none_iff_isSome, Ne, get?_eq_none,
    Classical.not_not]

theorem set_of_not_mem (h : key ∉ keys fs) : fs.set key v = fs ++ [(key, v)] := by
  induction fs with
  | nil => rfl
  | cons f fs ih =>
    rw [keys_cons, List.mem_cons, not_or] at h
    rw [set, if_neg (Ne.symm h.1), ih h.2, List.cons_append]

/-- Behind a name that is set, being new means to differ from it as well. -/
theorem filter_set (fs : Fields) (v : Value) (p : Text → Bool) (h : key ∉ keys added) :
    added.filter (fun f => p f.1 && f.1 ∉ keys (fs.set key v)) =
      added.filter (fun f => p f.1 && f.1 ∉ keys fs) := by
  apply List.filter_congr
  intro f hf
  have hne : f.1 ≠ key := by
    rintro rfl
    exact h (List.mem_map.2 ⟨f, hf, rfl⟩)
  rw [keys_set]
  split <;> simp [hne]

/-- Setting fields adds the names that are new, in order. -/
theorem keys_setAll (h : (keys added).Nodup) :
    keys (fs.setAll added) = keys fs ++ keys (added.filter (·.1 ∉ keys fs)) := by
  induction added generalizing fs with
  | nil => simp [setAll]
  | cons f added ih =>
    rw [keys_cons, List.nodup_cons] at h
    have hrest := filter_set fs f.2 (fun _ => true) h.1
    simp only [Bool.true_and] at hrest
    rw [setAll_cons, ih h.2, hrest, keys_set]
    by_cases hm : f.1 ∈ keys fs <;> simp [hm]

/-- Fields that are all new come behind those that are there. -/
theorem setAll_of_disjoint (h : (keys added).Nodup) (hd : ∀ k ∈ keys added, k ∉ keys fs) :
    fs.setAll added = fs ++ added := by
  induction added generalizing fs with
  | nil => exact (List.append_nil fs).symm
  | cons f added ih =>
    rw [keys_cons, List.nodup_cons] at h
    rw [keys_cons, List.forall_mem_cons] at hd
    rw [setAll_cons, set_of_not_mem hd.1, ih h.2, List.append_assoc, List.singleton_append]
    intro k hk
    rw [keys_append, List.mem_append, not_or, keys_cons, keys_nil, List.mem_singleton]
    refine ⟨hd.2 k hk, ?_⟩
    rintro rfl
    exact h.1 hk

end Fields

namespace Record

variable {r r' : Record} {extra context : Fields}

/-- A record that had no fields has those of its call, in their order. -/
theorem fields_withExtra (hr : r.fields = []) (hx : extra.keys.Nodup)
    (hm : r.withExtra extra = .ok r') : r'.fields = extra := by
  obtain ⟨-, -, rfl⟩ := withExtra_eq_ok.1 hm
  rw [hr, Fields.setAll_of_disjoint hx (by simp), List.nil_append]

/-- A context adds its fields that are new and open to it, in order. -/
theorem fields_withContext (hc : context.keys.Nodup) :
    (r.withContext context).fields =
      r.fields ++ context.filter fun f => !isClosed f.1 && f.1 ∉ r.fields.keys := by
  induction context generalizing r with
  | nil => simp [withContext]
  | cons f context ih =>
    rw [Fields.keys_cons, List.nodup_cons] at hc
    have hrest := Fields.filter_set r.fields f.2 (!isClosed ·) hc.1
    rw [withContext_cons, ih hc.2, has_eq, Fields.isSome_get?]
    by_cases hm : f.1 ∈ r.fields.keys
    · simp [hm]
    · cases hclosed : isClosed f.1 with
      | true => simp [hclosed]
      | false =>
        simp only [hm, decide_false, Bool.or_false, Bool.false_eq_true, ↓reduceIte]
        rw [hrest, Fields.set_of_not_mem hm, List.filter_cons_of_pos (by simp [hclosed, hm]),
          List.append_assoc, List.singleton_append]

end Record

end KeywordSieve.Log
