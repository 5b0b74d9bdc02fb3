import Mathlib.Data.List.Forall2
import KeywordSieve.Proofs.Composing
import KeywordSieve.Proofs.Crashes
import KeywordSieve.Proofs.Layouts
import KeywordSieve.Proofs.Loading

/-!
Items files that hold JSON. The reader of documents is one of YAML, and numbers may have another
value there than in JSON. But texts and nulls are the same, under the same names, and an item has
nothing else. So the items of a list are those of the JSON value, if the text is YAML at all.
-/
namespace KeywordSieve

open Text

namespace Value

variable {v w : Value} {key name : Text} {entries : List (Value × Value)}

theorem sameKey_text : v.sameKey (.text key) = true ↔ v = .text key := by
  cases v with
  | text t => simp [sameKey, integer?]
  | float x =>
    simp only [sameKey, integer?, reduceCtorEq, iff_false]
    cases x.toInt? <;> simp
  | _ => simp [sameKey, integer?]

/-- Setting a field changes what is under its name, and nothing else. -/
theorem lookup_insert (key name : Text) (v : Value) (entries : List (Value × Value)) :
    lookup name (insert (.text key) v entries) =
      if key = name then some v else lookup name entries := by
  induction entries with
  | nil =>
    by_cases h : key = name <;> simp [insert, lookup, sameKey, integer?, h]
  | cons e entries ih =>
    obtain ⟨k, w⟩ := e
    rw [insert]
    split
    · next hk =>
      rw [sameKey_text] at hk
      subst hk
      by_cases h : key = name <;> simp [lookup, sameKey, integer?, h]
    · next hk =>
      rw [sameKey_text] at hk
      by_cases hn : k = .text name
      · subst hn
        have h : key ≠ name := fun h => hk (h ▸ rfl)
        simp [lookup, sameKey_text, h]
      · have hn' : k.sameKey (.text name) = false := Bool.eq_false_iff.2 (mt sameKey_text.1 hn)
        simpa [lookup, List.find?_cons, hn'] using ih

end Value

namespace Json

/-- What is under a name in an object. Of several fields with one name the last counts. -/
def last? (name : Text) (fields : List (Text × Json)) : Option Json :=
  fields.foldl (fun found f => if f.1 = name then some f.2 else found) none

mutual

def document : Json → Value
  | null => .null
  | bool b => .bool b
  | int n => .int n
  | double x => .float x
  | text t => .text t
  | array elements => .list (allDocuments elements)
  | object fields => .mapping (Value.setAll (pairs fields))

def allDocuments : List Json → List Value
  | [] => []
  | j :: rest => document j :: allDocuments rest

def pairs : List (Text × Json) → List (Value × Value)
  | [] => []
  | (key, j) :: rest => (.text key, document j) :: pairs rest

end

def isTitle : Option Json → Bool
  | some (text t) => t.any fun c => !Unicode.isBlank c
  | _ => false

def isOptional : Option Json → Bool
  | none | some null | some (text _) => true
  | _ => false

/-- Whether a value is an object with what an item has. -/
def isEntry : Json → Bool
  | object fields =>
    isTitle (last? "title" fields) && isOptional (last? "summary" fields) &&
      isOptional (last? "url" fields)
  | _ => false

/-- A value keeps what an item may have of a JSON value. -/
structure Keeps (j : Json) (v : Value) : Prop where
  text : ∀ t, j = .text t → v = .text t
  null : j = .null → v = .null

structure KeepsField (f : Text × Json) (p : Value × Value) : Prop where
  name : p.1 = .text f.1
  value : Keeps f.2 p.2

section

variable {fields : List (Text × Json)} {entries : List (Value × Value)} {j : Json} {v : Value}

/-- A JSON value keeps all that an item may have of it when it becomes a document. -/
theorem keeps_document (j : Json) : Keeps j j.document := by
  constructor
  · rintro t rfl
    rfl
  · rintro rfl
    rfl

theorem keeps_pairs (fields : List (Text × Json)) :
    List.Forall₂ KeepsField fields (pairs fields) := by
  induction fields with
  | nil => exact .nil
  | cons f fields ih => exact .cons ⟨rfl, keeps_document f.2⟩ ih

/-- If the pairs keep the fields, then what is under a name at the end keeps the last field of that
name. -/
theorem keeps_lookup (h : List.Forall₂ KeepsField fields entries) (name : Text) :
    Option.Rel Keeps (last? name fields) (Value.lookup name (Value.setAll entries)) := by
  -- The fields that have been passed may be any, as long as what they left is kept.
  suffices hfrom : ∀ found done, Option.Rel Keeps found (Value.lookup name done) →
      Option.Rel Keeps (fields.foldl (fun found f => if f.1 = name then some f.2 else found) found)
        (Value.lookup name (entries.foldl (fun done p => Value.insert p.1 p.2 done) done)) from
    hfrom none [] .none
  induction h with
  | nil => exact fun _ _ hr => hr
  | @cons f p _ _ hf _ ih =>
    intro found done hr
    refine ih _ _ ?_
    dsimp only
    rw [hf.name, Value.lookup_insert]
    split
    · exact .some hf.value
    · exact hr

theorem exists_title {j? : Option Json} {v? : Option Value} (hj : isTitle j? = true)
    (h : Option.Rel Keeps j? v?) : ∃ t, j? = some (.text t) ∧ v? = some (.text t) ∧
      ∃ c ∈ t, Unicode.isBlank c = false := by
  cases h with
  | none => cases hj
  | @some j v hk =>
    cases j with
    | text t => exact ⟨t, rfl, by rw [hk.text t rfl], by simpa [isTitle] using hj⟩
    | _ => cases hj

end

/-- The text of a field that may be left out. -/
def given? : Option Json → Option Text
  | some (text t) => some t
  | _ => none

theorem offers_given {j? : Option Json} {v? : Option Value} (hj : isOptional j? = true)
    (h : Option.Rel Keeps j? v?) : Feed.Item.Offers v? (given? j?) := by
  cases h with
  | none => exact .missing
  | @some j v hk =>
    cases j with
    | null =>
      rw [hk.null rfl]
      exact .null
    | text t =>
      rw [hk.text t rfl]
      exact .words (.text t)
    | _ => cases hj

inductive Reads : Json → Value → Prop
  | object {fields : List (Text × Json)} {entries : List (Value × Value)} :
    List.Forall₂ KeepsField fields entries → Reads (.object fields) (.mapping (Value.setAll entries))

/-- The item of an entry is the same in every way in which the entry is read. -/
theorem exists_item {j : Json} (he : j.isEntry = true) :
    ∃ item, ∀ v, Reads j v → Feed.IsItem v item := by
  cases j with
  | object fields =>
    simp only [isEntry, Bool.and_eq_true] at he
    obtain ⟨⟨ht, hs⟩, hu⟩ := he
    -- The title is that of some reading, for instance of the one as a document.
    obtain ⟨t, hj, -, hb⟩ := exists_title ht (keeps_lookup (keeps_pairs fields) "title")
    refine ⟨⟨trim t, (given? (last? "summary" fields)).getD [], given? (last? "url" fields)⟩, ?_⟩
    rintro _ ⟨h⟩
    obtain ⟨t', hj', hv, -⟩ := exists_title ht (keeps_lookup h "title")
    obtain rfl : t' = t := by
      rw [hj] at hj'
      cases hj'
      rfl
    exact ⟨_, rfl, ⟨_, t', hv, .text t', hb, rfl⟩, ⟨_, offers_given hs (keeps_lookup h _), rfl⟩,
      offers_given hu (keeps_lookup h _)⟩
  | _ => cases he

theorem exists_items {js : List Json} (he : ∀ j ∈ js, j.isEntry = true) :
    ∃ items, ∀ vs, List.Forall₂ Reads js vs → List.Forall₂ Feed.IsItem vs items := by
  induction js with
  | nil =>
    refine ⟨[], ?_⟩
    rintro _ ⟨⟩
    exact .nil
  | cons j js ih =>
    rw [List.forall_mem_cons] at he
    obtain ⟨item, hi⟩ := exists_item he.1
    obtain ⟨items, his⟩ := ih he.2
    refine ⟨item :: items, ?_⟩
    rintro _ (_ | ⟨hv, hvs⟩)
    exact .cons (hi _ hv) (his _ hvs)

theorem reads_document {j : Json} (he : j.isEntry = true) : Reads j j.document := by
  cases j with
  | object fields => exact .object (keeps_pairs fields)
  | _ => cases he

theorem reads_documents {js : List Json} (he : ∀ j ∈ js, j.isEntry = true) :
    List.Forall₂ Reads js (allDocuments js) := by
  induction js with
  | nil => exact .nil
  | cons j js ih =>
    rw [List.forall_mem_cons] at he
    exact .cons (reads_document he.1) (ih he.2)

/-! The value that a text has as YAML. -/

def isSimple : Json → Bool
  | null | bool _ | int _ | double _ => true
  | _ => false

theorem Simple.isSimple_value (s : Simple) : s.value.isSimple = true := by
  rcases s.word_or_numeral with hw | ⟨n, -, hv⟩
  · have hall : (words.all fun w => w.2.isSimple) = true := rfl
    exact List.all_eq_true.1 hall _ hw
  · rw [Numeral.value?, numberOf] at hv
    split at hv
    · rw [← Option.some.inj hv]
      rfl
    · obtain ⟨x, -, hx⟩ := Option.map_eq_some_iff.1 hv
      rw [← hx]
      rfl

theorem Simple.keeps_form {s : Simple} (hf : s.fits = true) : Keeps s.value s.form := by
  have hs := s.isSimple_value
  obtain ⟨v, hv, hn⟩ := s.exists_value hf
  constructor
  · intro t ht
    rw [ht] at hs
    cases hs
  · intro hj
    rw [Simple.form, hv]
    exact hn hj

theorem Written.keeps_value (w : Written) (hf : w.fits = true) : Keeps w.json w.value := by
  cases w with
  | simple s => exact s.keeps_form hf
  | string l =>
    refine ⟨?_, nofun⟩
    rintro t ⟨⟩
    rfl
  | _ => exact ⟨nofun, nofun⟩

theorem Fields.keeps_pairs (fields : Fields) (hf : fields.fits = true) :
    List.Forall₂ KeepsField fields.json fields.pairs := by
  cases fields with
  | nil => exact .nil
  | cons name before w after more =>
    simp only [Fields.fits, Bool.and_eq_true] at hf
    exact .cons ⟨rfl, w.keeps_value hf.1.1.2⟩ (more.keeps_pairs hf.2)

/-- An entry that is written as JSON is read as one. -/
theorem Written.reads_value (w : Written) (hf : w.fits = true) (he : w.json.isEntry = true) :
    Reads w.json w.value := by
  cases w with
  | simple s =>
    have hs := s.isSimple_value
    rw [Written.json] at he
    cases hj : s.value with
    | object fields =>
      rw [hj] at hs
      cases hs
    | _ =>
      rw [hj] at he
      cases he
  | object gap fields =>
    rw [Written.fits, Bool.and_eq_true] at hf
    exact .object (fields.keeps_pairs hf.2)
  | _ => cases he

theorem Elements.reads_values (elements : Elements) (hf : elements.fits = true)
    (he : ∀ j ∈ elements.json, j.isEntry = true) :
    List.Forall₂ Reads elements.json elements.values := by
  cases elements with
  | nil => exact .nil
  | cons before w after more =>
    simp only [Elements.fits, Bool.and_eq_true] at hf
    rw [Elements.json, List.forall_mem_cons] at he
    exact .cons (w.reads_value hf.1.1.2 he.1) (more.reads_values hf.2 he.2)

theorem Whole.exists_array {w : Whole} {elements : List Json}
    (hj : ofText? w.text = some (.array elements)) :
    ∃ gap inner, w.root = .array gap inner ∧ inner.json = elements := by
  obtain ⟨before, root, after⟩ := w
  have hjson : root.json = .array elements := by
    rw [Whole.ofText?_text] at hj
    exact Option.some.inj hj
  cases root with
  | array gap inner => exact ⟨gap, inner, rfl, Json.array.inj hjson⟩
  | simple s =>
    have hs := s.isSimple_value
    rw [show s.value = .array elements from hjson] at hs
    cases hs
  | _ => cases hjson

end Json

namespace Feed

variable {deepest : Nat} {files : Files} {path : Path} {t : Text}

theorem ofValue_list {vs : List Value} {items : List Item} (h : List.Forall₂ IsItem vs items) :
    ofValue (.list vs) = .ok items := entriesFrom_eq_ok.2 h

/-- A text that fits is read from its file as YAML. -/
theorem read_of_fits {w : Json.Whole} (ho : Document.openAt files path = .ok (Utf8.encode w.text))
    (hf : w.fits deepest = true) :
    Document.read deepest files path = (Yaml.read deepest w.text).mapError .ofFailure := by
  have hd : Utf8.decode? (Utf8.encode w.text) = some w.text := Utf8.decode?_eq_some.2 rfl
  rw [Document.read, ho]
  show Document.ofBytes deepest (Utf8.encode w.text) = _
  rw [Document.ofBytes_of_text hd, Json.unifyLines_of_isClean (w.isClean hf)]

/-- A file that holds a JSON list of entries has the items of that list, in order, if the text fits
and holds no tab. With a tab it is not read. Every such text is that of a tree, so there is something
that may fit. -/
theorem load_of_json {elements : List Json} (hj : Json.ofText? t = some (.array elements))
    (he : ∀ j ∈ elements, j.isEntry = true) (ho : Document.openAt files path = .ok (Utf8.encode t)) :
    (∃ w : Json.Whole, w.text = t) ∧
      ∃ items, ofValue (Json.array elements).document = .ok items ∧
        ∀ w : Json.Whole, w.text = t → w.fits deepest = true →
          ('\t' ∉ t → load deepest files path = .ok items) ∧
          ('\t' ∈ t → ∃ f, load deepest files path = .error f) := by
  obtain ⟨w, hw, -⟩ := Json.ofText?_eq_some.1 hj
  obtain ⟨items, hitems⟩ := Json.exists_items he
  refine ⟨⟨w, hw⟩, items, ofValue_list (hitems _ (Json.reads_documents he)), ?_⟩
  rintro w rfl hf
  obtain ⟨gap, inner, hroot, rfl⟩ := w.exists_array hj
  have hc : w.root.isCollection = true := by rw [hroot]; rfl
  constructor
  · intro ht
    have hinner : inner.fits = true := by
      simp only [Json.Whole.fits, hroot, Json.Written.fits, Bool.and_eq_true] at hf
      exact hf.1.1.2.2
    rw [load, read_of_fits ho hf, w.read hf hc ht, hroot]
    show ofDocument (.ok (.list inner.values)) = .ok items
    rw [ofDocument_eq, mapError_eq_ok]
    exact ofValue_list (hitems _ (inner.reads_values hinner he))
  · intro ht
    obtain ⟨f, hfail⟩ := w.exists_failure hf hc ht
    rw [load, read_of_fits ho hf, hfail]
    exact ⟨_, rfl⟩

def bare (t : Text) (h : t.all (fun c => c != '"' && c != '\\' && 0x20 ≤ c.toNat) = true) :
    Json.Literal where
  pieces := t.pmap .plain (by simpa [and_assoc] using h)
  value := t
  denotes := by
    simp only [List.map_pmap, Json.Piece.number, List.pmap_eq_map, Json.textOfCodes?_map]

/-- A list on several lines, with an escaped letter, a summary that is null and another field. -/
def spread : Json.Whole :=
  let tight : Json.Gap := ⟨[], nofun⟩
  let space : Json.Gap := ⟨[' '], by simp [Json.isSpace]⟩
  let line : Json.Gap := ⟨['\n'], by simp [Json.isSpace]⟩
  let letters : Json.Literal :=
    ⟨[.plain 'a' (by decide), .code '0' '0' '6' '2' 0x62 rfl], "ab", by decide⟩
  let seven : Json.Simple := ⟨ofInt 7, .int 7, by simpa using Json.simple?_ofInt 7 Json.ends_nil⟩
  let fields : Json.Fields :=
    .cons ⟨tight, bare "title" (by decide), space⟩ space (.string letters) tight
      (.cons ⟨line, bare "summary" (by decide), tight⟩ tight (.simple ⟨"null", .null, rfl⟩) tight
        (.cons ⟨space, bare "id" (by decide), tight⟩ space (.simple seven) tight .nil))
  ⟨tight, .array line (.cons tight (.object tight fields) line .nil), line⟩

/-- Files that all hold one text. -/
def holding (t : Text) : Files := { look := fun _ => .ok (), content := fun _ => .ok (Utf8.encode t) }

theorem load_of_json_spread :
    spread.text =
      "[\n\x7b\"title\" : \"a\\u0062\",\n\"summary\":null, \"id\": 7\x7d\n]\n".toList ∧
    Json.ofText? spread.text = some spread.json ∧ spread.fits 2 = true ∧
      load 2 (holding spread.text) (.ofText "items.yaml") = .ok [{ title := "ab" }] := by
  have hj : Json.ofText? spread.text = some spread.json := spread.ofText?_text
  have he : ∀ j ∈ [Json.object [("title", .text "ab"), ("summary", .null), ("id", .int 7)]],
      j.isEntry = true := by
    rw [List.forall_mem_singleton]
    decide +kernel
  have ho : Document.openAt (holding spread.text) (.ofText "items.yaml") =
      .ok (Utf8.encode spread.text) := rfl
  have hf : spread.fits 2 = true := by decide +kernel
  obtain ⟨-, items, hv, hl⟩ := load_of_json hj he ho
  obtain rfl : [{ title := "ab" }] = items := Except.ok.inj hv
  have ht : '\t' ∉ spread.text := by decide +kernel
  exact ⟨by decide +kernel, hj, hf, (hl spread rfl hf).1 ht⟩

/-- A list of one item behind a tab. -/
def tabbed : Json.Whole :=
  let tight : Json.Gap := ⟨[], nofun⟩
  let space : Json.Gap := ⟨[' '], by simp [Json.isSpace]⟩
  let line : Json.Gap := ⟨['\n'], by simp [Json.isSpace]⟩
  let indented : Json.Gap := ⟨['\n', '\t'], by simp [Json.isSpace]⟩
  let fields : Json.Fields :=
    .cons ⟨tight, bare "title" (by decide), tight⟩ space (.string (bare "a" (by decide))) tight .nil
  ⟨tight, .array indented (.cons tight (.object tight fields) line .nil), tight⟩

/-- A tab between two parts is white space in JSON, but nothing in YAML begins with one. -/
theorem load_of_json_tab :
    let t : Text := "[\n\t\x7b\"title\": \"a\"\x7d\n]".toList
    let elements : List Json := [.object [("title", .text "a")]]
    Json.ofText? t = some (.array elements) ∧ (∀ j ∈ elements, j.isEntry = true) ∧
      ofValue (Json.array elements).document = .ok [{ title := "a" }] ∧
      load 2 (holding t) (.ofText "items.yaml") =
        .error (.reported { problem := .malformed (.at (some (.nextToken, none))
          (.cannotStart (some '\t')) { index := 2, line := 1, column := 0 }) }) := by
  intro t elements
  have ht : tabbed.text = t := by decide +kernel
  have hj : Json.ofText? t = some (.array elements) := by
    rw [← ht]
    exact tabbed.ofText?_text
  refine ⟨hj, ?_, by decide +kernel, by decide +kernel⟩
  rw [List.forall_mem_singleton]
  decide +kernel

end Feed

end KeywordSieve
