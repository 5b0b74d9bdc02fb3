import KeywordSieve.Feed.Listing
import KeywordSieve.Proofs.SingleLine
import KeywordSieve.Proofs.Scheduling

/-!
The lines of kept items. Each item stands on a line of its own, whatever characters it holds, and is
read back from there as it was. A filter that has kept items keeps them when they are read again.
-/
namespace KeywordSieve

open Text Query

namespace Feed

variable {v : Value} {item : Item}

theorem Item.readTitle_of_words {t : Text} (h : v.words = .ok t) :
    readTitle (some v) = if trim t = [] then .error .blank else .ok (trim t) := by
  rw [readTitle, h]
  rfl

theorem Item.title_of_readTitle {v? : Option Value} {title : Text}
    (h : readTitle v? = .ok title) : trim title = title ∧ title ≠ [] := by
  cases v? with
  | none => cases h
  | some v =>
    cases hw : v.words with
    | error fault =>
      rw [readTitle, hw] at h
      cases h
    | ok t =>
      rw [readTitle_of_words hw] at h
      split at h
      · cases h
      · next hne =>
        cases h
        exact ⟨trimBoth_eq_self (trimBoth_trimmed _ _), hne⟩

/-- Titles of items that have been read are trimmed, and not empty. -/
theorem title_of_entry (h : entry v = .ok item) : trim item.title = item.title ∧ item.title ≠ [] := by
  cases v with
  | mapping entries =>
    cases hi : Item.ofEntries entries with
    | error faults =>
      rw [entry, hi] at h
      cases h
    | ok read =>
      rw [entry, hi] at h
      cases h
      rw [Item.ofEntries] at hi
      split at hi
      · next ht _ _ =>
        cases hi
        exact Item.title_of_readTitle ht
      · cases hi
  | _ => cases h

theorem Item.isExact_json (item : Item) : item.json.isExact = true := by
  obtain ⟨title, summary, url⟩ := item
  cases url <;> rfl

theorem Item.ofEntries_eq_ok {entries : List (Value × Value)}
    (ht : readTitle (Value.lookup (Field.name .title) entries) = .ok item.title)
    (hs : readOptional (Value.lookup (Field.name .summary) entries) = .ok (some item.summary))
    (hu : readOptional (Value.lookup (Field.name .url) entries) = .ok item.url) :
    ofEntries entries = .ok item := by
  rw [ofEntries, ht, hs, hu]
  rfl

/-- An item with such a title is read from its own fields. -/
theorem entry_json (ht : trim item.title = item.title) (hne : item.title ≠ []) :
    entry item.json.toValue = .ok item := by
  have hr : Item.readTitle (some (.text item.title)) = .ok item.title := by
    rw [Item.readTitle_of_words rfl, ht, if_neg hne]
  have hi : ∀ link, Item.readOptional (some link) = .ok item.url →
      Item.ofEntries [(.text "title", .text item.title), (.text "summary", .text item.summary),
        (.text "url", link)] = .ok item := fun _ hu => Item.ofEntries_eq_ok hr rfl hu
  obtain ⟨title, summary, url⟩ := item
  cases url with
  | none => exact congrArg (Except.mapError Problem.invalid) (hi .null rfl)
  | some url => exact congrArg (Except.mapError Problem.invalid) (hi (.text url) rfl)

/-- Which items are read from a mapping is a matter of their titles. -/
theorem exists_entry_iff :
    (∃ v, entry v = .ok item) ↔ trim item.title = item.title ∧ item.title ≠ [] := by
  constructor
  · rintro ⟨v, h⟩
    exact title_of_entry h
  · rintro ⟨ht, hne⟩
    exact ⟨_, entry_json ht hne⟩

end Feed

namespace Run

/-- The text of lines, each of which is ended. -/
def written (lines : List Text) : Text := lines.flatMap (· ++ ['\n'])

/-- The item on a line. -/
def reread (line : Text) : Option Feed.Item :=
  (Json.ofText? line).bind fun j => (Feed.entry j.toValue).toOption

/-- Lines without line feeds in them are what lies between the line feeds, with nothing behind the
last one. -/
theorem pieces_written {lines : List Text} (h : ∀ line ∈ lines, '\n' ∉ line) :
    pieces '\n' (written lines) = lines ++ [[]] := by
  induction lines with
  | nil => rfl
  | cons line lines ih =>
    rw [List.forall_mem_cons] at h
    rw [written, List.flatMap_cons, List.append_assoc, List.singleton_append, ← written,
      pieces_append_cons _ h.1, ih h.2, List.cons_append]

theorem reread_json {v : Value} {item : Feed.Item} (h : Feed.entry v = .ok item) :
    reread item.json.render = some item := by
  obtain ⟨ht, hne⟩ := Feed.title_of_entry h
  rw [reread, Json.ofText?_render item.isExact_json, Option.bind_some, Feed.entry_json ht hne]
  rfl

/-- Kept items are written on a line each, read back from their lines, and kept again. -/
theorem reread_keptItems (f : Filter) (n m : Nat) (c c' : Pipeline.Circumstances)
    (items : List Feed.Item) (hv : ∀ item ∈ items, ∃ v, Feed.entry v = .ok item)
    (hc : Pool.Complete items.length c.order) :
    let r := Pipeline.run ⟨f, n⟩ c items
    r.keptItems = items.filter (fun item => f.keeps item.subject) ∧
      pieces '\n' (written (r.lines false)) = r.lines false ++ [[]] ∧
      (r.lines false).map reread = r.keptItems.map some ∧
      ∀ back, (r.lines false).map reread = back.map some → Pool.Complete back.length c'.order →
        (Pipeline.run ⟨f, m⟩ c' back).keptItems = back := by
  intro r
  have hkept : r.keptItems = items.filter (fun item => f.keeps item.subject) :=
    Pipeline.keptItems_run ⟨f, n⟩ hc
  have hlines : r.lines false = r.keptItems.map (·.json.render) := rfl
  have hread : (r.lines false).map reread = r.keptItems.map some := by
    rw [hlines, List.map_map]
    apply List.map_congr_left
    intro item hi
    rw [hkept] at hi
    obtain ⟨v, hv⟩ := hv item (List.mem_filter.1 hi).1
    exact reread_json hv
  refine ⟨hkept, pieces_written ?_, hread, ?_⟩
  · intro line hl
    rw [hlines] at hl
    obtain ⟨item, -, rfl⟩ := List.mem_map.1 hl
    exact Json.lineFeed_not_mem_render item.isExact_json
  · intro back hb hc'
    have he : back = items.filter (fun item => f.keeps item.subject) := by
      rw [← hkept]
      exact (List.map_inj_right (fun a b h => Option.some.inj h)).1 (hb.symm.trans hread)
    rw [Pipeline.keptItems_run ⟨f, m⟩ hc', he, List.filter_filter]
    simp

/-- Items with quotes, backslashes, line breaks of several kinds and control characters. -/
def awkward : List Feed.Item :=
  [{ title := "say \"hi\" \\", summary := "one\n\ttwo\x01\u2028" },
    { title := "three", summary := "four" },
    { title := "Two", url := some "https://\u00e9" }]

/-- The last item ends first. -/
theorem reread_keptItems_awkward :
    let p : Pipeline := ⟨Filter.compile? (some "two"), 3⟩
    let r := p.run ⟨"7", 0, 0, [2, 0, 1], {}⟩ awkward
    (∀ item ∈ awkward, ∃ v, Feed.entry v = .ok item) ∧ Pool.Complete awkward.length [2, 0, 1] ∧
      r.lines false =
        [("\x7b\"title\": \"say \\\"hi\\\" \\\\\", " ++
            "\"summary\": \"one\\n\\ttwo\\u0001\u2028\", \"url\": null\x7d").toList,
          "\x7b\"title\": \"Two\", \"summary\": \"\", \"url\": \"https://\u00e9\"\x7d".toList] ∧
      (r.lines false).map reread = r.keptItems.map some ∧
      (p.run ⟨"8", 0, 0, [1, 0], {}⟩ r.keptItems).keptItems = r.keptItems := by
  intro p r
  have hv : ∀ item ∈ awkward, ∃ v, Feed.entry v = .ok item := by
    intro item hi
    have ht : ∀ item ∈ awkward, trim item.title = item.title ∧ item.title ≠ [] := by decide
    exact Feed.exists_entry_iff.2 (ht item hi)
  have hc : Pool.Complete awkward.length [2, 0, 1] := by
    unfold Pool.Complete
    decide
  have hl : r.keptItems.length = 2 := by decide +kernel
  have hc' : Pool.Complete r.keptItems.length [1, 0] := by
    rw [hl]
    unfold Pool.Complete
    decide
  obtain ⟨-, -, hread, hback⟩ :=
    reread_keptItems p.filter 3 3 ⟨"7", 0, 0, [2, 0, 1], {}⟩ ⟨"8", 0, 0, [1, 0], {}⟩ awkward hv hc
  exact ⟨hv, hc, by decide +kernel, hread, hback _ hread hc'⟩

end Run

end KeywordSieve
