import KeywordSieve.Proofs.Sections
import KeywordSieve.Proofs.Writable

/-!
Notices about the values of a mapping, against notices about the settings that it gives. Values are
looked at as they are written, so what has to be converted first draws no notice: a query that is a
list of fragments or bytes, and a number of workers that is not written as an integer. Of all other
values the notices are those of the settings.
-/
namespace KeywordSieve.Settings

open Text Value

variable {document : List (Value × Value)} {s : Settings} {v : Value} {query : Option Text} {n : Nat}

def queryNotices (query : Option Text) : List Notice := (query.map Notice.ofQuery).getD []

/-- The notices about settings that are used. -/
def draws (s : Settings) : List Notice := queryNotices s.keywords ++ workersNotices s.workers

/-- Whether a query is used as it is written. -/
def isPlainQuery : Value → Bool
  | .list _ | .bytes _ => false
  | _ => true

/-- Whether a number of workers is used as it is written. -/
def isPlainCount : Value → Bool
  | .float _ | .text _ | .bytes _ => false
  | _ => true

/-- The notices that a written query draws. -/
def drawnByQuery : Option Value → List Notice
  | some (.text query) => Notice.ofQuery query
  | _ => []

/-- The notices that a written number of workers draws. -/
def drawnByCount : Option Value → List Notice
  | some (.int n) => workersNotices n
  | _ => []

theorem notices_eq (document : List (Value × Value)) : notices document =
    drawnByQuery (written? .keywords document) ++ drawnByCount (written? .workers document) := rfl

theorem workersNotices_eq_nil : workersNotices n = [] ↔ n ≤ manyWorkers := by
  simp [workersNotices]

theorem drawnByQuery_of_read (h : readKeywords v = .ok query) :
    drawnByQuery (some v) = if isPlainQuery v then queryNotices query else [] := by
  cases v with
  | text t =>
    obtain rfl : some t = query := by simpa [readKeywords, words?, words] using h
    rfl
  | null =>
    obtain rfl : none = query := by simpa [readKeywords, words?] using h
    rfl
  | list => rfl
  | bytes => rfl
  | _ => cases h

theorem drawnByCount_of_read (h : readWorkers v = .ok n) :
    drawnByCount (some v) = if isPlainCount v then workersNotices n else [] := by
  obtain ⟨hn, -⟩ := readWorkers_eq_ok.1 h
  cases v with
  | int i =>
    obtain rfl : i = n := Except.ok.inj hn
    rfl
  | bool b =>
    have hb : (if b then 1 else 0 : Int) = n := Except.ok.inj hn
    have hn : n ≤ manyWorkers := by
      rw [manyWorkers]
      split at hb <;> omega
    exact (workersNotices_eq_nil.2 hn).symm
  | float => rfl
  | text => rfl
  | bytes => rfl
  | _ => cases hn

/-- A mapping that gives settings draws the notices about its query if that is used as it is
written, and those about its number of workers likewise. -/
theorem notices_of_valid (h : ofEntries document = .ok s) : notices document =
    (if (written? .keywords document).all isPlainQuery then queryNotices s.keywords else []) ++
      (if (written? .workers document).all isPlainCount then workersNotices s.workers else []) := by
  obtain ⟨-, hk, hw, -, -⟩ := ofEntries_eq_ok.1 h
  rw [notices_eq]
  congr 1
  · cases hq : written? .keywords document with
    | none =>
      rw [hk.of_missing hq]
      rfl
    | some v => exact drawnByQuery_of_read (hk.of_written hq)
  · cases hq : written? .workers document with
    | none =>
      rw [hw.of_missing hq]
      rfl
    | some v => exact drawnByCount_of_read (hw.of_written hq)

/-- What draws notices in a mapping that gives settings can be written. -/
theorem noticesWritable_of_valid (h : ofEntries document = .ok s) :
    noticesWritable document = true := by
  obtain ⟨-, -, hw, -, -⟩ := ofEntries_eq_ok.1 h
  rw [noticesWritable]
  split
  · next i hi =>
    obtain ⟨hn, -, hu⟩ := readWorkers_eq_ok.1 (hw.of_written hi)
    obtain rfl : i = s.workers := Except.ok.inj hn
    have hw : (Value.int s.workers).isWritable = true := by
      rw [isWritable, isTooLong_natCast]
      · rfl
      · exact Nat.lt_of_le_of_lt (Nat.le_trans hu (by decide : mostWorkers ≤ mostDigits))
          (Nat.lt_pow_self (by decide))
    simp [hw]
  · rfl

/-- A mapping that gives settings draws the notices about its query and its number of workers, as far
as these are used as they are written, and so those about the settings unless one of the two is
converted and draws notices then. -/
theorem notices_eq_draws_iff (h : ofEntries document = .ok s) :
    noticesWritable document = true ∧
      notices document =
        (if (written? .keywords document).all isPlainQuery then queryNotices s.keywords else []) ++
        (if (written? .workers document).all isPlainCount then workersNotices s.workers else []) ∧
      (notices document = draws s ↔
        ((written? .keywords document).all isPlainQuery ∨ queryNotices s.keywords = []) ∧
          ((written? .workers document).all isPlainCount ∨ s.workers ≤ manyWorkers)) := by
  refine ⟨noticesWritable_of_valid h, notices_of_valid h, ?_⟩
  rw [notices_of_valid h, draws, ← workersNotices_eq_nil]
  cases (written? .keywords document).all isPlainQuery <;>
    cases (written? .workers document).all isPlainCount <;> simp

/-- A query that is a text draws the notices about it, and a number of workers in quotes none. -/
theorem notices_eq_draws_iff_quoted :
    let document : List (Value × Value) :=
      [(.text "filter", .mapping [(.text "keywords", .text "flood,\"jam")]),
        (.text "pipeline", .mapping [(.text "max_workers", .text "32")])]
    ∃ s, ofEntries document = .ok s ∧ s.workers = 32 ∧ noticesWritable document = true ∧
      notices document = queryNotices s.keywords ∧ notices document ≠ draws s := by
  intro document
  obtain ⟨s, hs, hw⟩ : ∃ s, ofEntries document = .ok s ∧ s.workers = 32 := ⟨_, rfl, rfl⟩
  obtain ⟨hwritable, hn, hiff⟩ := notices_eq_draws_iff hs
  have hquery : (written? .keywords document).all isPlainQuery = true := rfl
  have hcount : (written? .workers document).all isPlainCount = false := rfl
  refine ⟨s, hs, hw, hwritable, by simpa [hquery, hcount] using hn, ?_⟩
  rw [Ne, hiff, hcount, hw]
  simp [manyWorkers]

/-- A list of fragments with an odd quote is used as a query with an odd quote, and draws nothing. -/
theorem notices_of_fragments :
    let document : List (Value × Value) :=
      [(.text "filter", .mapping [(.text "keywords", .list [.text "flood", .text "\"jam"])])]
    ∃ s, ofEntries document = .ok s ∧ s.keywords = some "flood,\"jam".toList ∧
      notices document = [] ∧ draws s = [.oddQuote] := by
  intro document
  exact ⟨_, rfl, rfl, rfl, by decide +kernel⟩

end KeywordSieve.Settings
