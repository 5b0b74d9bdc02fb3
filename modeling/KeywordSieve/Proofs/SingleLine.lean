import KeywordSieve.Proofs.Rendering

/-!
The text of a JSON value is one line. Every control character of a string in it is escaped, and no
other part of it has any.
-/
namespace KeywordSieve.Json

open Text

variable {t : Text} {j : Json}

/-- No control character stands in the text. -/
def NoControl (t : Text) : Prop := ∀ c ∈ t, 0x20 ≤ c.toNat

instance decidableNoControl (t : Text) : Decidable (NoControl t) :=
  decidable_of_iff (t.all fun c => 0x20 ≤ c.toNat) (by simp [NoControl])

theorem NoControl.append {s : Text} (hs : NoControl s) (ht : NoControl t) : NoControl (s ++ t) := by
  intro c hc
  exact (List.mem_append.1 hc).elim (hs c) (ht c)

theorem noControl_escape (c : Char) : NoControl (escape c) := by
  have hhex : ∀ n < 0x20, NoControl ('\\' :: 'u' :: hexDigits 4 n) := by decide
  rcases escape_cases c with ⟨e, he, -, hp, -⟩ | ⟨hc, he⟩ | ⟨hc, -, -, he⟩
  · rw [he]
    simpa [NoControl] using hp
  · rw [he]
    exact hhex c.toNat hc
  · rw [he]
    simpa [NoControl] using hc

theorem noControl_string (t : Text) : NoControl (string t) := by
  have hq : NoControl ['"'] := by decide
  have ht : NoControl (t.flatMap escape) := by
    intro c hc
    obtain ⟨d, -, hd⟩ := List.mem_flatMap.1 hc
    exact noControl_escape d c hd
  exact (hq.append ht).append hq

theorem noControl_ofInt (i : Int) : NoControl (ofInt i) := by
  have hd : ∀ n, NoControl (ofNat n) := by
    intro n c hc
    have hd := Nat.isDigit_of_mem_toDigits (by omega) (by omega) hc
    rw [Char.isDigit, Bool.and_eq_true, decide_eq_true_eq] at hd
    exact Nat.le_trans (by decide) (UInt32.le_iff_toNat_le.1 hd.1)
  cases i with
  | ofNat n => exact hd n
  | negSucc n => exact NoControl.append (s := ['-']) (by decide) (hd (n + 1))

theorem noControl_joinWith {parts : List Text} (h : ∀ part ∈ parts, NoControl part) :
    NoControl (joinWith ", " parts) := by
  refine parts_induction ?nil ?last ?more parts h
  case nil => simp [NoControl, joinWith]
  case last =>
    intro part hp
    rwa [joinWith_singleton]
  case more =>
    intro part next more hp hm
    rw [joinWith_comma]
    exact hp.append (NoControl.append (s := [',', ' ']) (by decide) hm)

mutual

/-- Strings escape their control characters, and nothing else in JSON text writes any. -/
theorem noControl_render (j : Json) (h : isExact j = true) : NoControl (render j) := by
  cases j with
  | null => decide
  | bool b => cases b <;> decide
  | int i => exact noControl_ofInt i
  | double x => cases h
  | text t => exact noControl_string t
  | array js =>
    have hs := noControl_joinWith (noControl_renderAll js h)
    exact (NoControl.append (s := ['[']) (by decide) hs).append (by decide)
  | object fields =>
    have hs := noControl_joinWith (noControl_renderFields fields h)
    exact (NoControl.append (s := ['\x7b']) (by decide) hs).append (by decide)

theorem noControl_renderAll (js : List Json) (h : allExact js = true) :
    ∀ part ∈ renderAll js, NoControl part := by
  cases js with
  | nil => simp [renderAll]
  | cons j js =>
    rw [allExact, Bool.and_eq_true] at h
    rw [renderAll, List.forall_mem_cons]
    exact ⟨noControl_render j h.1, noControl_renderAll js h.2⟩

theorem noControl_renderFields (fields : List (Text × Json)) (h : fieldsExact fields = true) :
    ∀ part ∈ renderFields fields, NoControl part := by
  cases fields with
  | nil => simp [renderFields]
  | cons p fields =>
    obtain ⟨key, j⟩ := p
    rw [fieldsExact, Bool.and_eq_true] at h
    rw [renderFields, List.forall_mem_cons]
    refine ⟨?_, noControl_renderFields fields h.2⟩
    exact ((noControl_string key).append (by decide)).append (noControl_render j h.1)

end

/-- A value is written on one line. -/
theorem lineFeed_not_mem_render (h : isExact j = true) : '\n' ∉ render j := by
  intro hm
  exact absurd (noControl_render j h _ hm) (by decide)

end KeywordSieve.Json
