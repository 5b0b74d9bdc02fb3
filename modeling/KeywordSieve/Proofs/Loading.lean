import Mathlib.Data.List.Forall2
import KeywordSieve.Feed.Listing
import KeywordSieve.Proofs.Encoding
import KeywordSieve.Proofs.Success
import KeywordSieve.Proofs.Trimming

/-!
The items of a file. A mapping is an item if its title is a text that is not blank and its summary
and link are texts, null or missing, where bytes that encode a text count as that text. Of a list of
entries every one has to be an item, or else there are no items at all and the first entry that is
none is reported with its position. What stands in the place of the list has to be one or null, but
under the key `items` everything that counts as nothing is taken for an empty list.
-/
namespace KeywordSieve

open Text

namespace Value

variable {v : Value} {t : Text}

/-- A value is a text, or the bytes that encode it. -/
inductive Spells : Value → Text → Prop
  | text (t : Text) : Spells (.text t) t
  | bytes (t : Text) : Spells (.bytes (Utf8.encode t)) t

theorem words_eq_ok : v.words = .ok t ↔ v.Spells t := by
  constructor
  · intro h
    cases v with
    | text s =>
      cases h
      exact .text t
    | bytes bs =>
      rw [words] at h
      cases hd : Utf8.decode? bs with
      | none =>
        rw [hd] at h
        cases h
      | some s =>
        rw [hd] at h
        cases h
        rw [Utf8.decode?_eq_some.1 hd]
        exact .bytes t
    | _ => cases h
  · intro h
    cases h with
    | text => rfl
    | bytes => rw [words, Utf8.decode?_eq_some.2 rfl, Option.elim]

end Value

theorem Text.trim_ne_nil {t : Text} : trim t ≠ [] ↔ ∃ c ∈ t, Unicode.isBlank c = false := by
  constructor
  · intro h
    by_cases hall : ∀ c ∈ t, Unicode.isBlank c = true
    · exact absurd (trimBoth_eq_nil hall) h
    · simpa using hall
  · rintro ⟨c, hc, hb⟩
    exact List.ne_nil_of_mem (mem_trimBoth hc hb)

namespace Feed

variable {v : Value} {vs : List Value} {item : Item} {items : List Item} {problem : Problem}

namespace Item

variable {v? : Option Value} {entries : List (Value × Value)} {given : Option Text} {title : Text}

/-- A value that may be left out: it is missing, null or a text. -/
inductive Offers : Option Value → Option Text → Prop
  | missing : Offers none none
  | null : Offers (some .null) none
  | words {v : Value} {t : Text} : v.Spells t → Offers (some v) (some t)

/-- A mapping is an item: its title, trimmed, its summary and its link are those of the item. -/
structure IsDescribed (entries : List (Value × Value)) (item : Item) : Prop where
  title : ∃ v t, Value.lookup "title" entries = some v ∧ v.Spells t ∧
    (∃ c ∈ t, Unicode.isBlank c = false) ∧ item.title = trim t
  summary : ∃ given, Offers (Value.lookup "summary" entries) given ∧ item.summary = given.getD []
  url : Offers (Value.lookup "url" entries) item.url

theorem readTitle_eq_ok : readTitle v? = .ok title ↔ ∃ v t, v? = some v ∧ v.Spells t ∧
    (∃ c ∈ t, Unicode.isBlank c = false) ∧ title = trim t := by
  constructor
  · intro h
    cases v? with
    | none => cases h
    | some v =>
      simp only [readTitle, bind_eq_ok, mapError_eq_ok, Value.words_eq_ok] at h
      obtain ⟨t, ht, h⟩ := h
      split at h
      · cases h
      · next hb =>
        cases h
        exact ⟨v, t, rfl, ht, trim_ne_nil.1 hb, rfl⟩
  · rintro ⟨v, t, rfl, ht, hb, rfl⟩
    simp only [readTitle, bind_eq_ok, mapError_eq_ok, Value.words_eq_ok]
    exact ⟨t, ht, if_neg (trim_ne_nil.2 hb)⟩

theorem readOptional_eq_ok : readOptional v? = .ok given ↔ Offers v? given := by
  constructor
  · intro h
    cases v? with
    | none =>
      cases h
      exact .missing
    | some v =>
      rw [readOptional, mapError_eq_ok] at h
      cases v with
      | null =>
        cases h
        exact .null
      | _ =>
        obtain ⟨t, ht, rfl⟩ := map_eq_ok.1 h
        exact .words (Value.words_eq_ok.1 ht)
  · intro h
    cases h with
    | missing => rfl
    | null => rfl
    | @words v t ht =>
      rw [readOptional, mapError_eq_ok]
      have hw := Value.words_eq_ok.2 ht
      cases ht with
      | text => rfl
      | bytes => exact map_eq_ok.2 ⟨_, hw, rfl⟩

/-- An item is read from the mappings that are that item. -/
theorem ofEntries_iff_isDescribed : ofEntries entries = .ok item ↔ IsDescribed entries item := by
  rw [ofEntries]
  constructor
  · intro h
    split at h
    · next title summary url ht hs hu =>
      cases h
      exact ⟨readTitle_eq_ok.1 ht, ⟨summary, readOptional_eq_ok.1 hs, rfl⟩, readOptional_eq_ok.1 hu⟩
    · cases h
  · intro h
    obtain ⟨given, hs, hsummary⟩ := h.summary
    have ht : readTitle (Value.lookup (Field.name .title) entries) = .ok item.title :=
      readTitle_eq_ok.2 h.title
    have hs : readOptional (Value.lookup (Field.name .summary) entries) = .ok given :=
      readOptional_eq_ok.2 hs
    have hu : readOptional (Value.lookup (Field.name .url) entries) = .ok item.url :=
      readOptional_eq_ok.2 h.url
    rw [ht, hs, hu]
    dsimp only
    rw [← hsummary]

end Item

def IsItem (v : Value) (item : Item) : Prop :=
  ∃ entries, v = .mapping entries ∧ Item.IsDescribed entries item

inductive Spoils : Value → Problem → Prop
  | notMapping {v : Value} : (∀ entries, v ≠ .mapping entries) → Spoils v (.notMapping v.typeName)
  | invalid {entries : List (Value × Value)} {faults : List Item.Fault} :
    Item.ofEntries entries = .error faults → Spoils (.mapping entries) (.invalid faults)

theorem entry_eq_ok : entry v = .ok item ↔ IsItem v item := by
  cases v with
  | mapping entries =>
    rw [entry, mapError_eq_ok, Item.ofEntries_iff_isDescribed]
    simp [IsItem]
  | _ => exact iff_of_false nofun nofun

/-- Why an entry is refused is what spoils it. -/
theorem entry_eq_error : entry v = .error problem ↔ Spoils v problem := by
  constructor
  · intro h
    cases v with
    | mapping entries =>
      rw [entry] at h
      cases hf : Item.ofEntries entries with
      | ok item =>
        rw [hf] at h
        cases h
      | error faults =>
        rw [hf] at h
        cases h
        exact .invalid hf
    | _ =>
      cases h
      exact .notMapping nofun
  · intro h
    cases h with
    | notMapping hv =>
      cases v with
      | mapping entries => exact absurd rfl (hv entries)
      | _ => rfl
    | invalid hf =>
      rw [entry, hf]
      rfl

structure FirstSpoiled (vs : List Value) (i : Nat) (problem : Problem) : Prop where
  spoils : ∃ v, vs[i]? = some v ∧ Spoils v problem
  before : ∀ j < i, ∀ v ∈ vs[j]?, ∃ item, IsItem v item

/-- Items are read if each entry is one. -/
theorem entriesFrom_eq_ok {index : Nat} :
    entriesFrom index vs = .ok items ↔ List.Forall₂ IsItem vs items := by
  induction vs generalizing index items with
  | nil =>
    rw [entriesFrom, Except.ok.injEq, List.forall₂_nil_left_iff, eq_comm]
  | cons v vs ih =>
    simp only [entriesFrom, bind_eq_ok, mapError_eq_ok, pure_eq_ok, entry_eq_ok, ih]
    constructor
    · rintro ⟨item, hi, items, hr, rfl⟩
      exact .cons hi hr
    · rintro (_ | ⟨hi, hr⟩)
      exact ⟨_, hi, _, hr, rfl⟩

theorem firstSpoiled_zero : FirstSpoiled (v :: vs) 0 problem ↔ Spoils v problem := by
  constructor
  · rintro ⟨⟨w, hw, hs⟩, -⟩
    cases hw
    exact hs
  · intro hs
    exact ⟨⟨v, rfl, hs⟩, nofun⟩

theorem firstSpoiled_succ {i : Nat} : FirstSpoiled (v :: vs) (i + 1) problem ↔
    (∃ item, IsItem v item) ∧ FirstSpoiled vs i problem := by
  constructor
  · rintro ⟨hs, hb⟩
    refine ⟨hb 0 (Nat.succ_pos i) v rfl, hs, ?_⟩
    intro j hj w hw
    exact hb (j + 1) (Nat.succ_lt_succ hj) w hw
  · rintro ⟨hv, hs, hb⟩
    refine ⟨hs, ?_⟩
    intro j hj w hw
    cases j with
    | zero =>
      cases hw
      exact hv
    | succ j => exact hb j (Nat.lt_of_succ_lt_succ hj) w hw

theorem entriesFrom_cons_eq_error {index : Nat} {fault : Fault} :
    entriesFrom index (v :: vs) = .error fault ↔
      (∃ problem, Spoils v problem ∧ fault = { index := some index, problem }) ∨
        (∃ item, IsItem v item) ∧ entriesFrom (index + 1) vs = .error fault := by
  simp only [entriesFrom, bind_eq_error, mapError_eq_error, mapError_eq_ok, pure_ne_error,
    entry_eq_ok, entry_eq_error, and_false, exists_false, or_false, exists_and_right,
    eq_comm (a := fault)]

/-- The fault of some entries is that of the first one that is no item. -/
theorem entriesFrom_eq_error {index : Nat} {fault : Fault} :
    entriesFrom index vs = .error fault ↔ ∃ i problem,
      fault = { index := some (index + i), problem } ∧ FirstSpoiled vs i problem := by
  induction vs generalizing index with
  | nil =>
    refine iff_of_false nofun ?_
    rintro ⟨i, problem, -, ⟨v, hv, -⟩, -⟩
    cases hv
  | cons v vs ih =>
    rw [entriesFrom_cons_eq_error, ih]
    constructor
    · rintro (⟨problem, hs, rfl⟩ | ⟨hv, i, problem, rfl, hs⟩)
      · exact ⟨0, problem, rfl, firstSpoiled_zero.2 hs⟩
      · refine ⟨i + 1, problem, ?_, firstSpoiled_succ.2 ⟨hv, hs⟩⟩
        rw [Nat.add_right_comm, Nat.add_assoc]
    · rintro ⟨i, problem, rfl, hs⟩
      cases i with
      | zero => exact Or.inl ⟨problem, firstSpoiled_zero.1 hs, rfl⟩
      | succ i =>
        obtain ⟨hv, hs⟩ := firstSpoiled_succ.1 hs
        refine Or.inr ⟨hv, i, problem, ?_, hs⟩
        rw [Nat.add_right_comm, Nat.add_assoc]

/-- The document of an items file is a list, or a mapping with a list under its key. -/
inductive Lists : Value → List Value → Prop
  | list (vs : List Value) : Lists (.list vs) vs
  | mapping {entries : List (Value × Value)} {vs : List Value} :
    Value.lookup "items" entries = some (.list vs) → Lists (.mapping entries) vs

theorem listed_of_lists (h : Lists v vs) : listed v = .list vs := by
  cases h with
  | list => rfl
  | mapping h =>
    rw [listed, h]
    cases vs <;> rfl

theorem ofDocument_eq (v : Value) : ofDocument (.ok v) = (ofValue v).mapError .reported := rfl

theorem ofDocument_of_listed (h : listed v = .list vs) :
    ofDocument (.ok v) = (entriesFrom 0 vs).mapError .reported := by
  rw [ofDocument_eq, ofValue, h]

theorem entriesFrom_zero_eq_error {failure : Failure} :
    (entriesFrom 0 vs).mapError .reported = .error failure ↔ ∃ i problem,
      failure = .reported { index := some i, problem } ∧ FirstSpoiled vs i problem := by
  simp only [mapError_eq_error, entriesFrom_eq_error, Nat.zero_add]
  constructor
  · rintro ⟨fault, ⟨i, problem, rfl, hs⟩, rfl⟩
    exact ⟨i, problem, rfl, hs⟩
  · rintro ⟨i, problem, rfl, hs⟩
    exact ⟨_, ⟨i, problem, rfl, hs⟩, rfl⟩

/-- Of a list of entries all are items, and then these are the items of the file in order, or the
first one that is none is reported. What is read from an entry does not depend on the others. -/
theorem items_or_first_spoiled (h : Lists v vs) :
    (∀ items, ofDocument (.ok v) = .ok items ↔ List.Forall₂ IsItem vs items) ∧
      (∀ failure, ofDocument (.ok v) = .error failure ↔ ∃ i problem,
        failure = .reported { index := some i, problem } ∧ FirstSpoiled vs i problem) ∧
      ∀ w item, entry w = .ok item ↔ IsItem w item := by
  rw [ofDocument_of_listed (listed_of_lists h)]
  refine ⟨fun items => ?_, fun failure => entriesFrom_zero_eq_error, fun w item => entry_eq_ok⟩
  rw [mapError_eq_ok, entriesFrom_eq_ok]

/-- An entry without a title behind one with a title to be trimmed and a key of no account. -/
theorem items_or_first_spoiled_untitled :
    let first : Value := .mapping
      [(.text "title", .text " Flood\n"), (.text "summary", .null), (.text "id", .int 7)]
    let second : Value := .mapping [(.text "summary", .text "Rivers rising")]
    let v : Value := .mapping [(.text "items", .list [first, second, first])]
    Lists v [first, second, first] ∧ IsItem first { title := "Flood" } ∧
      ofDocument (.ok v) = .error (.reported
        { index := some 1, problem := .invalid [⟨.title, .missing⟩] }) := by
  intro first second v
  have hl : Lists v [first, second, first] := .mapping rfl
  have hf : IsItem first { title := "Flood" } :=
    ⟨_, rfl, ⟨_, _, rfl, .text _, ⟨'F', by decide, by decide⟩, by decide⟩, ⟨none, .null, rfl⟩,
      .missing⟩
  refine ⟨hl, hf, ((items_or_first_spoiled hl).2.1 _).2 ⟨1, _, rfl, ⟨second, rfl, .invalid rfl⟩, ?_⟩⟩
  intro j hj w hw
  obtain rfl := Nat.lt_one_iff.1 hj
  cases hw
  exact ⟨_, hf⟩

/-- Bytes are a summary if they encode a text. -/
theorem summary_of_bytes :
    let entries : List (Value × Value) :=
      [(.text "title", .text "a"), (.text "summary", .bytes [0x61, 0x62])]
    Value.lookup "summary" entries = some (.bytes [0x61, 0x62]) ∧
      ofDocument (.ok (.list [.mapping entries])) = .ok [{ title := "a", summary := "ab" }] := by
  intro entries
  exact ⟨rfl, by decide +kernel⟩

/-- The value under the key of the items, if a document has that key. -/
def under? : Value → Option Value
  | .mapping entries => Value.lookup "items" entries
  | _ => none

/-- What a document has in the place of the list of its items. -/
def place (v : Value) : Value := (under? v).getD v

def isListing : Value → Bool
  | .null | .list _ => true
  | _ => false

/-- Under its key a document has a value that counts as nothing, whatever its kind. -/
def PassesOver (v : Value) : Prop := ∃ w, under? v = some w ∧ w.isTruthy = false

theorem listed_of_under {w : Value} (h : under? v = some w) :
    listed v = if w.isTruthy then w else .list [] := by
  cases v with
  | mapping entries =>
    rw [under?] at h
    rw [listed, h]
  | _ => cases h

theorem listed_of_not_under (h : under? v = none) (hv : v ≠ .null) : listed v = v := by
  cases v with
  | mapping entries =>
    rw [under?] at h
    rw [listed, h]
  | null => exact absurd rfl hv
  | _ => rfl

theorem ofDocument_of_passesOver (h : PassesOver v) : ofDocument (.ok v) = .ok [] := by
  obtain ⟨w, hw, ht⟩ := h
  have hl : listed v = .list [] := by
    rw [listed_of_under hw, ht]
    rfl
  rw [ofDocument_of_listed hl]
  rfl

theorem ofDocument_of_notList {w : Value} (h : listed v = w) (hw : isListing w = false) :
    ofDocument (.ok v) = .error (.reported { problem := .notList w.typeName }) := by
  rw [ofDocument_eq, ofValue, h]
  cases w with
  | null => cases hw
  | list vs => cases hw
  | _ => rfl

/-- What is not passed over stands for the list of items, null for an empty one. -/
theorem listed_of_not_passesOver (h : ¬ PassesOver v) :
    listed v = place v ∧ place v ≠ .null ∨ v = .null := by
  cases hu : under? v with
  | none =>
    by_cases hv : v = .null
    · exact Or.inr hv
    · rw [place, hu]
      exact Or.inl ⟨listed_of_not_under hu hv, hv⟩
  | some w =>
    have ht : w.isTruthy = true := by
      cases ht : w.isTruthy with
      | true => rfl
      | false => exact absurd ⟨w, hu, ht⟩ h
    rw [place, hu, listed_of_under hu, if_pos ht]
    refine Or.inl ⟨rfl, ?_⟩
    rintro rfl
    cases ht

theorem exists_listed (h : ¬ PassesOver v) (hl : isListing (place v) = true) :
    ∃ vs, listed v = .list vs := by
  rcases listed_of_not_passesOver h with ⟨hlisted, hne⟩ | rfl
  · rw [hlisted]
    cases hp : place v with
    | list vs => exact ⟨vs, rfl⟩
    | null => exact absurd hp hne
    | _ =>
      rw [hp] at hl
      cases hl
  · exact ⟨[], rfl⟩

/-- Only null and lists stand for the items of a file, apart from what counts as nothing under their
key, which is passed over without a word; all else is refused with the name of its kind. -/
theorem listing_or_refused (path : Path) (v : Value) :
    ((∃ items, ofDocument (.ok v) = .ok items) → isListing (place v) = true ∨ PassesOver v) ∧
      (PassesOver v → ofDocument (.ok v) = .ok []) ∧
      (ofDocument (.ok v) = .error (.reported { problem := .notList (place v).typeName }) ↔
        ¬ (isListing (place v) = true ∨ PassesOver v)) ∧
      (Problem.notList (place v).typeName).message path =
        "expected a list of items, got ".toList ++ (place v).typeName := by
  have hrefused : ¬ (isListing (place v) = true ∨ PassesOver v) →
      ofDocument (.ok v) = .error (.reported { problem := .notList (place v).typeName }) := by
    rw [not_or]
    rintro ⟨hl, hp⟩
    rcases listed_of_not_passesOver hp with ⟨hlisted, -⟩ | rfl
    · exact ofDocument_of_notList hlisted (Bool.eq_false_iff.2 hl)
    · exact absurd rfl hl
  refine ⟨?_, ofDocument_of_passesOver, ⟨?_, hrefused⟩, rfl⟩
  · rintro ⟨items, hi⟩
    by_cases h : isListing (place v) = true ∨ PassesOver v
    · exact h
    · rw [hrefused h] at hi
      cases hi
  · intro he h
    by_cases hp : PassesOver v
    · rw [ofDocument_of_passesOver hp] at he
      cases he
    · obtain ⟨vs, hlisted⟩ := exists_listed hp (h.resolve_right hp)
      rw [ofDocument_of_listed hlisted] at he
      obtain ⟨i, problem, hi, -⟩ := entriesFrom_zero_eq_error.1 he
      cases hi

/-- A truth value is refused as a document, but passed over under the key of the items. -/
theorem items_false :
    isListing (.bool false) = false ∧
      ofDocument (.ok (.bool false)) = .error (.reported { problem := .notList "bool" }) ∧
      ofDocument (.ok (.mapping [(.text "items", .bool false)])) = .ok [] := ⟨rfl, rfl, rfl⟩

end Feed

end KeywordSieve
