import Mathlib.Data.List.Forall2
import Mathlib.Data.List.ReduceOption
import KeywordSieve.Yaml.Value
import KeywordSieve.Proofs.Success

/-!
When a tree denotes a value. All scalars in it have to denote values, which is checked level by
level, and then the value is built from the parts. A mapping whose keys are quoted merges nothing.
-/
namespace KeywordSieve

/-- What is there when some pairs have been set, one after the other. -/
def Value.setAll (pairs : List (Value × Value)) : List (Value × Value) :=
  pairs.foldl (fun done p => Value.insert p.1 p.2 done) []

namespace Yaml.Node

variable {n : Node} {v : Value} {start : Mark} {level items : List Node} {vs : List Value}
  {entries : List (Node × Node)} {pairs : List (Value × Value)} {fuel : Nat}

/-- All scalars below a node denote values. -/
inductive Sound : Node → Prop
  | intro {n : Node} (below : List Node) (h : children n = .ok below)
    (hbelow : ∀ b ∈ below, Sound b) : Sound n

theorem check_of_sound (h : ∀ n ∈ level, Sound n) : check fuel level = .ok () := by
  induction fuel generalizing level with
  | zero => rfl
  | succ fuel ih =>
    obtain ⟨next, hnext, hsound⟩ : ∃ next, level.mapM children = .ok next ∧
        ∀ b ∈ next.flatten, Sound b := by
      clear ih
      induction level with
      | nil => exact ⟨[], rfl, by simp⟩
      | cons n level ih =>
        rw [List.forall_mem_cons] at h
        obtain ⟨next, hnext, hsound⟩ := ih h.2
        obtain ⟨below, hn, hbelow⟩ := h.1
        refine ⟨below :: next, by simp [hn, hnext], ?_⟩
        rw [List.flatten_cons, List.forall_mem_append]
        exact ⟨hbelow, hsound⟩
    rw [check, hnext]
    simp only [bind, Except.bind]
    split
    · rfl
    · exact ih hsound

/-- A node denotes a value: what is below it is sound, it is no scalar without a value, and that
value is built from it. -/
structure Denotes (n : Node) (v : Value) : Prop where
  sound : Sound n
  inner : ∃ o, inner? n = .ok o ∧ ∀ b ∈ o, Sound b
  build : ∀ fuel, n.depth ≤ fuel → build fuel n = .ok v

theorem Denotes.value (h : Denotes n v) : n.value = .ok v := by
  rw [Node.value, check_of_sound (by simpa using h.sound)]
  exact h.build _ (Nat.le_refl _)

theorem denotes_scalar {s : Scalar} (h : Form.of s = .ok (.value v)) :
    Denotes (scalar start s) v := by
  have hv : scalarValue start s = .ok v := by rw [scalarValue, h]
  refine ⟨.intro [] rfl (by simp), ⟨none, ?_, by simp⟩, ?_⟩
  · rw [inner?, hv]
    rfl
  · intro fuel hf
    obtain ⟨fuel, rfl⟩ := Nat.exists_eq_add_of_le' hf
    exact hv

section

variable {α β ε : Type} {xs : List α} {ys : List β}

theorem mapM_of_forall₂ {f : α → Except ε β} (h : List.Forall₂ (fun x y => f x = .ok y) xs ys) :
    xs.mapM f = .ok ys := by
  induction h with
  | nil => rfl
  | cons hx _ ih => simp [hx, ih]

/-- The collections among some nodes are sound, if each of them is. -/
theorem exists_inner {f : α → Except Failure (Option Node)}
    (h : List.Forall₂ (fun x _ => ∃ o, f x = .ok o ∧ ∀ b ∈ o, Sound b) xs ys) :
    ∃ os, xs.mapM f = .ok os ∧ ∀ b ∈ os.reduceOption, Sound b := by
  induction h with
  | nil => exact ⟨[], rfl, by simp⟩
  | cons hx _ ih =>
    obtain ⟨os, hos, hsound⟩ := ih
    obtain ⟨o, ho, hb⟩ := hx
    refine ⟨o :: os, by simp [ho, hos], ?_⟩
    intro b hm
    rcases List.mem_cons.1 (List.reduceOption_mem_iff.1 hm) with hm | hm
    · exact hb b hm.symm
    · exact hsound b (List.reduceOption_mem_iff.2 hm)

end

/-- As many steps as the nodes are deep are enough to build their values. -/
theorem build_of_depth (h : List.Forall₂ Denotes items vs) (hd : depthOfAll items ≤ fuel) :
    List.Forall₂ (fun n v => Node.build fuel n = .ok v) items vs := by
  induction h with
  | nil => exact .nil
  | cons hn _ ih =>
    rw [depthOfAll, Nat.max_le] at hd
    exact .cons (hn.build fuel hd.1) (ih hd.2)

/-- A sequence denotes the list of what its items denote. -/
theorem denotes_sequence (h : List.Forall₂ Denotes items vs) :
    Denotes (sequence start items) (.list vs) := by
  obtain ⟨os, hos, hbelow⟩ := exists_inner (h.imp fun _ _ hn => hn.inner)
  have hsound : Sound (sequence start items) := by
    refine .intro os.reduceOption ?_ hbelow
    rw [children, hos]
    rfl
  refine ⟨hsound, ⟨_, rfl, by simpa using hsound⟩, ?_⟩
  intro fuel hf
  obtain ⟨fuel, rfl⟩ := Nat.exists_eq_add_of_le' (Nat.le_trans (Nat.le_add_left 1 _) hf)
  rw [depth, Nat.add_le_add_iff_right] at hf
  rw [Node.build, mapM_of_forall₂ (build_of_depth h hf)]
  rfl

structure DenotesEntry (e : Node × Node) (p : Value × Value) : Prop where
  notMerge : e.1.isMerge = false
  key : ∀ start, keyValue start e.1 = .ok p.1
  value : Denotes e.2 p.2

theorem merged_eq (h : List.Forall₂ DenotesEntry entries pairs) :
    merged start entries = .ok entries := by
  have hs : split start entries = .ok ([], entries) := by
    induction h with
    | nil => rfl
    | cons he _ ih =>
      rw [split, he.notMerge, ih]
      rfl
  rw [merged, hs]
  rfl

theorem buildEntries_of_depth (h : List.Forall₂ DenotesEntry entries pairs)
    (hd : depthOfEntries entries ≤ fuel) :
    List.Forall₂ (fun e p => (do return (← keyValue start e.1, ← Node.build fuel e.2)) =
      (.ok p : Except Failure _)) entries pairs := by
  induction h with
  | nil => exact .nil
  | @cons e p _ _ he _ ih =>
    obtain ⟨key, value⟩ := e
    rw [depthOfEntries, Nat.max_le, Nat.max_le] at hd
    refine .cons ?_ (ih hd.2)
    rw [he.key, he.value.build fuel hd.1.2]
    rfl

/-- Of several entries with one key the last counts, in the place of the first. -/
theorem denotes_mapping (h : List.Forall₂ DenotesEntry entries pairs) :
    Denotes (mapping start entries) (.mapping (Value.setAll pairs)) := by
  have hinner : List.Forall₂ (fun (e : Node × Node) (_ : Value × Value) => ∃ o, (do
      let _ ← keyValue start e.1
      inner? e.2) = .ok o ∧ ∀ b ∈ o, Sound b) entries pairs := by
    refine h.imp fun e p he => ?_
    rw [he.key]
    exact he.value.inner
  obtain ⟨os, hos, hbelow⟩ := exists_inner hinner
  have hsound : Sound (mapping start entries) := by
    refine .intro os.reduceOption ?_ hbelow
    rw [children, merged_eq h]
    exact bind_eq_ok.2 ⟨entries, rfl, bind_eq_ok.2 ⟨os, hos, rfl⟩⟩
  refine ⟨hsound, ⟨_, rfl, by simpa using hsound⟩, ?_⟩
  intro fuel hf
  obtain ⟨fuel, rfl⟩ := Nat.exists_eq_add_of_le' (Nat.le_trans (Nat.le_add_left 1 _) hf)
  rw [depth, Nat.add_le_add_iff_right] at hf
  have hm : entries.mapM (fun e => do return (← keyValue start e.1, ← Node.build fuel e.2)) =
      .ok pairs := mapM_of_forall₂ (buildEntries_of_depth h hf)
  rw [Node.build, merged_eq h]
  exact bind_eq_ok.2 ⟨entries, rfl, bind_eq_ok.2 ⟨pairs, hm, rfl⟩⟩

end Yaml.Node

end KeywordSieve
