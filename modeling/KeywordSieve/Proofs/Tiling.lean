import Mathlib.Data.List.Chain
import KeywordSieve.Proofs.Reading

/-!
The tokens of a query as they are reported, with the offset at which each of them starts. From one
offset to the next they tile the query, and the rules for the tiles determine the whole list: a
tile is a construct where one stands, and else the longest piece in which none starts.
-/
namespace KeywordSieve.Query

open Text Term Override

inductive Kind where
  | phrase | group | plain
  deriving DecidableEq, Repr

structure Lexeme where
  kind : Kind
  value : Text
  negated : Bool
  position : Nat
  deriving DecidableEq, Repr

namespace Token

def kind : Token → Kind
  | phrase .. => .phrase
  | override .. => .group
  | plain _ => .plain

def lexeme (start : Nat) (token : Token) : Lexeme :=
  ⟨token.kind, token.value, token.negated, start⟩

def report (start : Nat) (tokens : List Token) : List Lexeme :=
  (placed start tokens).map fun p => p.2.lexeme p.1

theorem report_cons (start : Nat) (token : Token) (rest : List Token) :
    report start (token :: rest) =
      token.lexeme start :: report (start + token.source.length) rest := rfl

theorem IsConstruct.kind_ne_plain {token : Token} {after : Text} (h : IsConstruct after token) :
    token.kind ≠ .plain := by
  cases h <;> simp [kind]

theorem kind_head_report {start : Nat} {tokens : List Token} :
    (∀ next ∈ (report start tokens).head?, next.kind ≠ .plain) ↔
      ∀ other, tokens.head? ≠ some (.plain other) := by
  cases tokens with
  | nil => simp [report, placed]
  | cons token rest => cases token <;> simp [report_cons, lexeme, kind]

end Token

namespace Lexeme

open Token

def tokenize (raw : Text) : List Lexeme := report 0 (lex raw)

/-- Where a tile ends that stands in front of others. -/
def stop (raw : Text) : List Lexeme → Nat
  | [] => raw.length
  | next :: _ => next.position

/-- Each token with its slice, from its own offset to that of the next one. -/
def slices (raw : Text) : List Lexeme → List (Lexeme × Text)
  | [] => []
  | l :: rest => (l, (raw.take (stop raw rest)).drop l.position) :: slices raw rest

inductive Reports (raw : Text) : Lexeme → Text → Prop where
  | plain {text : Text} {start : Nat} : text ≠ [] →
      (∀ p, start ≤ p → p < start + text.length → ¬ Starts (raw.drop p)) →
      Reports raw ⟨.plain, text, false, start⟩ text
  | phrase {negated : Bool} {q : Char} {body : Text} {start : Nat} :
      isQuote q = true → q ∉ body → body ≠ [] →
      Reports raw ⟨.phrase, body, negated, start⟩
        ((if negated then ['-'] else []) ++ q :: body ++ [q])
  | group {opening body after : Text} {start : Nat} :
      IsOpening opening → IsBody (')' :: after) body →
      raw.drop start = opening ++ body ++ ')' :: after →
      Reports raw ⟨.group, trim body, false, start⟩ (opening ++ body ++ [')'])

/-- The tokens tile the query from an offset on. -/
structure Tiles (raw : Text) (start : Nat) (ls : List Lexeme) : Prop where
  covers : ls = [] → raw.length ≤ start
  starts : ∀ l ∈ ls.head?, l.position = start
  increases : ls.IsChain fun l next => l.position < next.position
  apart : ls.IsChain fun l next => ¬ (l.kind = .plain ∧ next.kind = .plain)
  reports : ∀ tile ∈ slices raw ls, Reports raw tile.1 tile.2

theorem Reports.ne_nil {raw slice : Text} {l : Lexeme} (h : Reports raw l slice) : slice ≠ [] := by
  cases h <;> simp_all

theorem Tiles.nil (raw : Text) : Tiles raw raw.length [] :=
  ⟨fun _ => Nat.le_refl _, by simp, .nil, .nil, by simp [slices]⟩

/-- A first tile that reports its slice, and tiles from its end on. -/
theorem Tiles.cons {pre slice after : Text} {l : Lexeme} {ls : List Lexeme}
    (hpos : l.position = pre.length) (hr : Reports (pre ++ (slice ++ after)) l slice)
    (hap : ∀ next ∈ ls.head?, ¬ (l.kind = .plain ∧ next.kind = .plain))
    (h : Tiles (pre ++ (slice ++ after)) (pre ++ slice).length ls) :
    Tiles (pre ++ (slice ++ after)) pre.length (l :: ls) := by
  have hlen : 0 < slice.length := List.length_pos_iff.2 hr.ne_nil
  have hstop : stop (pre ++ (slice ++ after)) ls = (pre ++ slice).length := by
    cases ls with
    | nil =>
      have hc := h.covers rfl
      simp only [stop, List.length_append] at hc ⊢
      omega
    | cons next rest => exact h.starts next rfl
  refine ⟨by simp, ?_, ?_, ?_, ?_⟩
  · intro m hm
    cases hm
    exact hpos
  · refine List.isChain_cons.2 ⟨?_, h.increases⟩
    intro next hn
    rw [hpos, h.starts next hn, List.length_append]
    omega
  · exact List.isChain_cons.2 ⟨hap, h.apart⟩
  · intro tile ht
    rw [slices, List.mem_cons] at ht
    rcases ht with rfl | ht
    · simp only
      rw [hstop, hpos, ← List.append_assoc, List.take_left, List.drop_left]
      simpa using hr
    · exact h.reports tile ht

/-- The first tile starts where the tiling does, and the others tile from its end on. -/
theorem Tiles.uncons {pre t : Text} {l : Lexeme} {ls : List Lexeme}
    (h : Tiles (pre ++ t) pre.length (l :: ls)) :
    ∃ slice after, t = slice ++ after ∧ l.position = pre.length ∧ Reports (pre ++ t) l slice ∧
      (∀ next ∈ ls.head?, ¬ (l.kind = .plain ∧ next.kind = .plain)) ∧
      Tiles (pre ++ t) (pre ++ slice).length ls := by
  have hpos : l.position = pre.length := h.starts l rfl
  obtain ⟨hinc, hincs⟩ := List.isChain_cons.1 h.increases
  obtain ⟨hap, haps⟩ := List.isChain_cons.1 h.apart
  have hfirst := h.reports (l, ((pre ++ t).take (stop (pre ++ t) ls)).drop l.position)
    (by simp [slices])
  have hrest : ∀ tile ∈ slices (pre ++ t) ls, Reports (pre ++ t) tile.1 tile.2 :=
    fun tile ht => h.reports tile (List.mem_cons_of_mem _ ht)
  obtain ⟨k, hk, hstop⟩ : ∃ k ≤ t.length, stop (pre ++ t) ls = pre.length + k := by
    cases ls with
    | nil => exact ⟨t.length, Nat.le_refl _, List.length_append⟩
    | cons next rest =>
      have hlt := hinc next rfl
      have hn := (hrest (next, ((pre ++ t).take (stop (pre ++ t) rest)).drop next.position)
        (by simp [slices])).ne_nil
      -- the next token has a slice of its own, so it starts inside the query
      have hin : next.position < (pre ++ t).length := by
        rw [ne_eq, List.drop_eq_nil_iff, List.length_take] at hn
        omega
      rw [List.length_append] at hin
      exact ⟨next.position - pre.length, by omega, by rw [stop]; omega⟩
  have hlen : (pre ++ t.take k).length = pre.length + k := by
    rw [List.length_append, List.length_take, Nat.min_eq_left hk]
  refine ⟨t.take k, t.drop k, (List.take_append_drop k t).symm, hpos, ?_, hap, ?_⟩
  · rwa [hstop, hpos, List.take_length_add_append, List.drop_left] at hfirst
  · rw [hlen, ← hstop]
    refine ⟨?_, ?_, hincs, haps, hrest⟩
    · intro hnil
      rw [hnil]
      exact Nat.le_refl _
    · intro next hn
      cases ls with
      | nil => cases hn
      | cons other rest =>
        cases hn
        rfl

/-- Plain text reports itself exactly if no construct starts in it. -/
theorem reports_plain_iff {pre text after : Text} :
    Reports (pre ++ (text ++ after)) ⟨.plain, text, false, pre.length⟩ text ↔
      text ≠ [] ∧ Inert after text := by
  have hd : ∀ p, (pre ++ (text ++ after)).drop (pre.length + p) = (text ++ after).drop p := by
    intro p
    rw [← List.drop_drop, List.drop_left]
  constructor
  · intro h
    cases h with
    | plain hne hs =>
      refine ⟨hne, ?_⟩
      intro p hp
      rw [← hd]
      exact hs _ (by omega) (by omega)
  · rintro ⟨hne, hi⟩
    refine .plain hne ?_
    intro p hlow hhigh
    obtain ⟨k, rfl⟩ := Nat.exists_eq_add_of_le hlow
    rw [hd]
    exact hi k (by omega)

/-- A construct reports its source. -/
theorem reports_of_isConstruct {pre after : Text} {token : Token} (h : IsConstruct after token) :
    Reports (pre ++ (token.source ++ after)) (token.lexeme pre.length) token.source := by
  cases h with
  | phrase hq hb hne => exact .phrase hq hb hne
  | override ho hb => exact .group ho hb (by simp [source])

/-- A reading tiles the query. -/
theorem tiles_of_reads {t : Text} {tokens : List Token} (h : Reads t tokens) (pre : Text) :
    Tiles (pre ++ t) pre.length (report pre.length tokens) := by
  induction h generalizing pre with
  | nil =>
    rw [List.append_nil]
    exact Tiles.nil pre
  | @construct token after rest hk _ ih =>
    have hr := ih (pre ++ token.source)
    rw [List.append_assoc] at hr
    rw [report_cons, ← List.length_append]
    refine Tiles.cons rfl (reports_of_isConstruct hk) ?_ hr
    intro next _ hboth
    exact hk.kind_ne_plain hboth.1
  | @plain text after rest hne hi hh _ ih =>
    have hr := ih (pre ++ text)
    rw [List.append_assoc] at hr
    rw [report_cons, source, ← List.length_append]
    refine Tiles.cons rfl (reports_plain_iff.2 ⟨hne, hi⟩) ?_ hr
    intro next hn hboth
    exact kind_head_report.2 hh next hn hboth.2

/-- Every tiling is a reading. -/
theorem reads_of_tiles {pre t : Text} {ls : List Lexeme} (h : Tiles (pre ++ t) pre.length ls) :
    ∃ tokens, Reads t tokens ∧ ls = report pre.length tokens := by
  induction ls generalizing pre t with
  | nil =>
    have hc := h.covers rfl
    rw [List.length_append] at hc
    have ht : t = [] := List.length_eq_zero_iff.1 (by omega)
    subst ht
    exact ⟨[], .nil, rfl⟩
  | cons l ls ih =>
    obtain ⟨slice, after, rfl, hpos, hr, hap, hrest⟩ := h.uncons
    rw [← List.append_assoc] at hrest
    obtain ⟨tokens, hread, rfl⟩ := ih hrest
    rw [List.length_append] at hap ⊢
    cases hr with
    | @plain text start hne hs =>
      subst hpos
      have hi := (reports_plain_iff.1 (.plain hne hs)).2
      have hh := kind_head_report.1 (fun next hn hk => hap next hn ⟨rfl, hk⟩)
      exact ⟨.plain slice :: tokens, .plain hne hi hh hread, rfl⟩
    | @phrase negated q body start hq hb hne =>
      subst hpos
      exact ⟨.phrase negated q body :: tokens, .construct (.phrase hq hb hne) hread, rfl⟩
    | @group opening body after' start ho hb hd =>
      subst hpos
      rw [List.drop_left] at hd
      have ha : after' = after := by simpa using hd.symm
      subst ha
      exact ⟨.override opening body :: tokens, .construct (.override ho hb) hread, rfl⟩

/-- The reported tokens are the only tiling of the query. -/
theorem tiles_iff_tokenize (raw : Text) (ls : List Lexeme) :
    Tiles raw 0 ls ↔ ls = tokenize raw := by
  constructor
  · intro h
    obtain ⟨tokens, hr, rfl⟩ := @reads_of_tiles [] raw ls h
    rw [tokenize, hr.lex_eq]
    rfl
  · rintro rfl
    exact tiles_of_reads (reads_lex raw) []

end Lexeme

end KeywordSieve.Query
