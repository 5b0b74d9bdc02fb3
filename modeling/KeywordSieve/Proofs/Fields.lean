import Mathlib.Data.List.Nodup
import KeywordSieve.Log.Record

/-!
Fields by name. Setting a field answers for its own name only, and keeps the names apart. So what a
record has under a name is told by where it comes from: its own fields first, then the context.
-/
namespace KeywordSieve.Log

open Text

namespace Fields

variable {fs added : Fields} {f : Text × Value} {key k : Text} {v : Value}

def keys (fs : Fields) : List Text := fs.map Prod.fst

@[simp] theorem get?_nil (k : Text) : get? k [] = none := rfl

@[simp] theorem get?_cons (k key : Text) (v : Value) (fs : Fields) :
    get? k ((key, v) :: fs) = if k = key then some v else fs.get? k := by
  rw [get?, get?, List.lookup_cons]
  by_cases h : k = key
  · subst h
    simp
  · rw [beq_false_of_ne h, if_neg h]

@[simp] theorem setAll_cons (fs : Fields) (f : Text × Value) (added : Fields) :
    fs.setAll (f :: added) = (fs.set f.1 f.2).setAll added := rfl

theorem get?_append (k : Text) (fs added : Fields) :
    get? k (fs ++ added) = (fs.get? k).or (added.get? k) := List.lookup_append

theorem get?_eq_none : fs.get? k = none ↔ k ∉ keys fs := by
  induction fs with
  | nil => simp [keys]
  | cons f fs ih =>
    obtain ⟨key, v⟩ := f
    by_cases h : k = key
    · simp [keys, h]
    · simpa [keys, h] using ih

theorem get?_of_mem (h : (keys fs).Nodup) (hf : f ∈ fs) : fs.get? f.1 = some f.2 := by
  induction fs with
  | nil => cases hf
  | cons g fs ih =>
    obtain ⟨name, w⟩ := g
    rw [keys, List.map_cons, List.nodup_cons] at h
    rw [get?_cons]
    rcases List.mem_cons.1 hf with rfl | hm
    · rw [if_pos rfl]
    · have hne : f.1 ≠ name := by
        rintro rfl
        exact h.1 (List.mem_map.2 ⟨f, hm, rfl⟩)
      rw [if_neg hne, ih h.2 hm]

theorem mem_of_get? (h : fs.get? key = some v) : (key, v) ∈ fs := by
  induction fs with
  | nil => simp at h
  | cons f fs ih =>
    obtain ⟨name, w⟩ := f
    rw [get?_cons] at h
    by_cases hk : key = name
    · subst hk
      obtain rfl : w = v := by simpa using h
      exact List.mem_cons_self
    · exact List.mem_cons_of_mem _ (ih (by simpa [hk] using h))

theorem mem_iff_get? (h : (keys fs).Nodup) : f ∈ fs ↔ fs.get? f.1 = some f.2 :=
  ⟨get?_of_mem h, mem_of_get?⟩

theorem get?_set : (fs.set key v).get? k = if k = key then some v else fs.get? k := by
  induction fs with
  | nil => simp [set]
  | cons f fs ih =>
    obtain ⟨name, w⟩ := f
    rw [set]
    split
    · next h =>
      subst h
      by_cases hk : k = name <;> simp [hk]
    · next h =>
      by_cases hk : k = name
      · subst hk
        simp [h]
      · simp [hk, ih]

/-- Of several values under one name the last counts. -/
theorem get?_setAll : (fs.setAll added).get? k = (get? k added.reverse).or (fs.get? k) := by
  induction added generalizing fs with
  | nil => rfl
  | cons f added ih =>
    obtain ⟨key, v⟩ := f
    rw [setAll_cons, ih, get?_set, List.reverse_cons, get?_append, Option.or_assoc, get?_cons]
    by_cases h : k = key <;> simp [h]

/-- Under names that differ there is but one value. -/
theorem get?_reverse (h : (keys fs).Nodup) : get? k fs.reverse = fs.get? k := by
  induction fs with
  | nil => rfl
  | cons f fs ih =>
    obtain ⟨key, v⟩ := f
    rw [keys, List.map_cons, List.nodup_cons] at h
    rw [List.reverse_cons, get?_append, ih h.2, get?_cons, get?_cons]
    by_cases hk : k = key
    · subst hk
      simp [get?_eq_none.2 h.1]
    · simp [hk]

theorem keys_set (fs : Fields) (key : Text) (v : Value) :
    keys (fs.set key v) = if key ∈ keys fs then keys fs else keys fs ++ [key] := by
  induction fs with
  | nil => simp [keys, set]
  | cons f fs ih =>
    obtain ⟨name, w⟩ := f
    rw [set]
    split
    · next h =>
      simp [keys, h]
    · next h =>
      have hm : key ∈ keys ((name, w) :: fs) ↔ key ∈ keys fs := by simp [keys, Ne.symm h]
      rw [keys, List.map_cons, ← keys, ih, if_congr hm rfl rfl]
      split <;> rfl

theorem nodup_set (h : (keys fs).Nodup) : (keys (fs.set key v)).Nodup := by
  rw [keys_set]
  split
  · exact h
  · next hk =>
    rw [← List.concat_eq_append]
    exact h.concat hk

theorem nodup_setAll (h : (keys fs).Nodup) : (keys (fs.setAll added)).Nodup := by
  induction added generalizing fs with
  | nil => exact h
  | cons f added ih => exact ih (nodup_set h)

theorem mem_set (h : f ∈ fs.set key v) : f ∈ fs ∨ f = (key, v) := by
  induction fs with
  | nil => exact Or.inr (List.mem_singleton.1 h)
  | cons g fs ih =>
    obtain ⟨name, w⟩ := g
    rw [set] at h
    split at h
    · next hn =>
      subst hn
      rcases List.mem_cons.1 h with rfl | hm
      · exact Or.inr rfl
      · exact Or.inl (List.mem_cons_of_mem _ hm)
    · rcases List.mem_cons.1 h with rfl | hm
      · exact Or.inl List.mem_cons_self
      · exact (ih hm).imp_left (List.mem_cons_of_mem _)

theorem mem_setAll (h : f ∈ fs.setAll added) : f ∈ fs ∨ f ∈ added := by
  induction added generalizing fs with
  | nil => exact Or.inl h
  | cons g added ih =>
    rcases ih h with hm | hm
    · rcases mem_set hm with hf | rfl
      · exact Or.inl hf
      · exact Or.inr List.mem_cons_self
    · exact Or.inr (List.mem_cons_of_mem g hm)

theorem get?_filter (p : Text → Bool) (fs : Fields) (k : Text) :
    get? k (fs.filter (p ·.1)) = if p k then fs.get? k else none := by
  induction fs with
  | nil => simp
  | cons f fs ih =>
    obtain ⟨key, v⟩ := f
    by_cases hp : p key = true <;> by_cases hk : k = key <;> simp_all

theorem keys_filter_nodup (p : Text × Value → Bool) (h : (keys fs).Nodup) :
    (keys (fs.filter p)).Nodup :=
  (List.Sublist.map Prod.fst List.filter_sublist).nodup h

end Fields

namespace Record

variable {r : Record} {context : Fields} {f : Text × Value} {k : Text}

/-- Whether the context has no say about a name, whatever fields there are. -/
def isClosed (k : Text) : Bool := isReserved k || k == messageOperation

theorem has_eq (r : Record) (k : Text) : r.has k = (isClosed k || (r.fields.get? k).isSome) := rfl

theorem withContext_cons (r : Record) (f : Text × Value) (context : Fields) :
    r.withContext (f :: context) =
      (if r.has f.1 then r else { r with fields := r.fields.set f.1 f.2 }).withContext context :=
  rfl

/-- The context adds fields and changes nothing else. -/
theorem withContext_eq (r : Record) (context : Fields) :
    r.withContext context = { r with fields := (r.withContext context).fields } := by
  induction context generalizing r with
  | nil => rfl
  | cons f context ih =>
    rw [withContext_cons]
    split
    · exact ih r
    · exact ih { r with fields := r.fields.set f.1 f.2 }

/-- The context fills in what is missing, and under no name that is closed. -/
theorem get?_withContext : (r.withContext context).fields.get? k =
    (r.fields.get? k).or (if isClosed k then none else context.get? k) := by
  induction context generalizing r with
  | nil => cases isClosed k <;> simp [withContext]
  | cons f context ih =>
    obtain ⟨key, v⟩ := f
    rw [withContext_cons, ih, has_eq, Fields.get?_cons]
    by_cases hk : k = key
    · subst hk
      cases hc : isClosed k with
      | true => simp
      | false => cases hf : r.fields.get? k <;> simp [hf, Fields.get?_set]
    · split <;> simp [hk, Fields.get?_set]

theorem nodup_withContext (h : r.fields.keys.Nodup) : (r.withContext context).fields.keys.Nodup := by
  induction context generalizing r with
  | nil => exact h
  | cons f context ih =>
    rw [withContext_cons]
    split
    · exact ih h
    · exact ih (Fields.nodup_set h)

theorem mem_withContext (h : f ∈ (r.withContext context).fields) : f ∈ r.fields ∨ f ∈ context := by
  induction context generalizing r with
  | nil => exact Or.inl h
  | cons g context ih =>
    rw [withContext_cons] at h
    rcases ih h with hm | hm
    · split at hm
      · exact Or.inl hm
      · rcases Fields.mem_set hm with hf | rfl
        · exact Or.inl hf
        · exact Or.inr List.mem_cons_self
    · exact Or.inr (List.mem_cons_of_mem g hm)

end Record

end KeywordSieve.Log
