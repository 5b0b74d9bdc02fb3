import Mathlib.Data.Char
import Mathlib.Data.List.Lex
import KeywordSieve.Proofs.Pairs
import KeywordSieve.Proofs.Sources

/-!
The order of the pairs behind a line for people. Names differ, so they alone decide it: no two
values are ever compared, whether or not they could be, and the line does not depend on the order in
which its fields were set.
-/
namespace KeywordSieve

namespace Text

variable {s t : Text}

theorem isBefore_iff : s.isBefore t = true ↔ s ≤ t := by
  induction s generalizing t with
  | nil => exact iff_of_true rfl (not_lt.1 (List.not_lt_nil t))
  | cons c s ih =>
    cases t with
    | nil => exact iff_of_false Bool.false_ne_true (not_le.2 List.Lex.nil)
    | cons d t =>
      have hlt : c :: s < d :: t ↔ c < d ∨ c = d ∧ s < t := List.cons_lt_cons_iff
      rw [isBefore, Bool.or_eq_true, Bool.and_eq_true, decide_eq_true_iff, beq_iff_eq, ih,
        le_iff_lt_or_eq, le_iff_lt_or_eq, hlt, List.cons.injEq, or_assoc, ← and_or_left]
      rfl

theorem isBefore_trans {u : Text} (h : s.isBefore t = true) (h' : t.isBefore u = true) :
    s.isBefore u = true := by
  rw [isBefore_iff] at *
  exact le_trans h h'

theorem isBefore_total (s t : Text) : (s.isBefore t || t.isBefore s) = true := by
  rw [Bool.or_eq_true, isBefore_iff, isBefore_iff]
  exact le_total s t

theorem lt_of_isBefore (h : s.isBefore t = true) (hne : s ≠ t) : s < t := by
  exact lt_of_le_of_ne (isBefore_iff.1 h) hne

end Text

namespace Log

open Text

namespace Fields

variable {fs gs : Fields} {f g : Text × Value}

theorem nodup_perm (h : fs.Perm gs) : (keys fs).Nodup ↔ (keys gs).Nodup :=
  (h.map Prod.fst).nodup_iff

def InOrder (fs : Fields) : Prop := fs.Pairwise fun f g => f.1.isBefore g.1 = true

/-- Fields whose names differ have but one order by name. -/
theorem InOrder.eq_of_perm (hf : InOrder fs) (hg : InOrder gs) (hp : fs.Perm gs)
    (hn : (keys gs).Nodup) : fs = gs := by
  refine hp.eq_of_pairwise (fun f g hm hm' h h' => ?_) hf hg
  have hname : f.1 = g.1 := le_antisymm (isBefore_iff.1 h) (isBefore_iff.1 h')
  have hvalue := get?_of_mem hn (hp.mem_iff.1 hm)
  rw [hname, get?_of_mem hn hm'] at hvalue
  exact Prod.ext hname (Option.some.inj hvalue).symm

theorem inOrder_mergeSort (fs : Fields) :
    InOrder (fs.mergeSort fun f g => f.1.isBefore g.1) := by
  apply List.pairwise_mergeSort
  · intro f g h
    exact isBefore_trans
  · intro f g
    exact isBefore_total f.1 g.1

theorem InOrder.keys_lt (h : InOrder fs) (hn : (keys fs).Nodup) : (keys fs).Pairwise (· < ·) := by
  have hle : (keys fs).Pairwise fun s t => s.isBefore t = true := List.pairwise_map.2 h
  exact (hle.and hn).imp fun ⟨hst, hne⟩ => lt_of_isBefore hst hne

/-- Fields with the same values under names that differ are the same up to their order. -/
theorem perm_of_get? (hf : (keys fs).Nodup) (hg : (keys gs).Nodup)
    (h : ∀ k, fs.get? k = gs.get? k) : fs.Perm gs := by
  rw [List.perm_ext_iff_of_nodup (List.Nodup.of_map _ hf) (List.Nodup.of_map _ hg)]
  intro f
  rw [mem_iff_get? hf, mem_iff_get? hg, h]

/-- Two pairs are compared by name, and by value if they have the same. The comparison of values
may fail. -/
def pairBefore (before : Value → Value → Except Fault Bool) (f g : Text × Value) :
    Except Fault Bool :=
  if f.1 = g.1 then before f.2 g.2 else .ok (f.1.isBefore g.1)

/-- Puts a pair in front of the first one that it is not behind. -/
def insertPair (before : Value → Value → Except Fault Bool) (f : Text × Value) :
    Fields → Except Fault Fields
  | [] => .ok [f]
  | g :: gs => do
    if ← pairBefore before f g then return f :: g :: gs
    else return g :: (← insertPair before f gs)

def sortPairs (before : Value → Value → Except Fault Bool) : Fields → Except Fault Fields
  | [] => .ok []
  | f :: fs => do insertPair before f (← sortPairs before fs)

/-- A pair under a new name finds its place by names alone. -/
theorem insertPair_eq_ok (before : Value → Value → Except Fault Bool) (ho : InOrder gs)
    (hf : f.1 ∉ keys gs) :
    ∃ hs, insertPair before f gs = .ok hs ∧ InOrder hs ∧ hs.Perm (f :: gs) := by
  induction gs with
  | nil => exact ⟨[f], rfl, List.pairwise_singleton _ _, List.Perm.refl _⟩
  | cons g gs ih =>
    rw [keys_cons, List.mem_cons, not_or] at hf
    obtain ⟨hg, hgs⟩ := List.pairwise_cons.1 ho
    have hpair : pairBefore before f g = .ok (f.1.isBefore g.1) := if_neg hf.1
    rw [insertPair, hpair]
    cases hb : f.1.isBefore g.1 with
    | true =>
      refine ⟨_, rfl, List.pairwise_cons.2 ⟨?_, ho⟩, List.Perm.refl _⟩
      intro h hm
      obtain rfl | hm := List.mem_cons.1 hm
      · exact hb
      · exact isBefore_trans hb (hg h hm)
    | false =>
      obtain ⟨hs, he, hord, hp⟩ := ih hgs hf.2
      have hgf : g.1.isBefore f.1 = true := by
        have htotal := isBefore_total f.1 g.1
        rwa [hb, Bool.false_or] at htotal
      refine ⟨g :: hs, ?_, List.pairwise_cons.2 ⟨?_, hord⟩,
        (hp.cons g).trans (List.Perm.swap f g gs)⟩
      · simp only [bind, Except.bind, he]
        rfl
      · intro h hm
        obtain rfl | hm := List.mem_cons.1 (hp.mem_iff.1 hm)
        · exact hgf
        · exact hg h hm

/-- Pairs whose names differ are sorted by these, and no two values are compared. -/
theorem sortPairs_eq_ok (before : Value → Value → Except Fault Bool) (hn : (keys fs).Nodup) :
    sortPairs before fs = .ok (fs.mergeSort fun f g => f.1.isBefore g.1) := by
  have hsorted : ∃ gs, sortPairs before fs = .ok gs ∧ InOrder gs ∧ gs.Perm fs := by
    induction fs with
    | nil => exact ⟨[], rfl, List.Pairwise.nil, List.Perm.refl _⟩
    | cons f fs ih =>
      rw [keys_cons, List.nodup_cons] at hn
      obtain ⟨gs, hgs, ho, hp⟩ := ih hn.2
      have hnew : f.1 ∉ keys gs := by
        rw [keys, (hp.map Prod.fst).mem_iff]
        exact hn.1
      obtain ⟨hs, he, hord, hp'⟩ := insertPair_eq_ok before ho hnew
      refine ⟨hs, ?_, hord, hp'.trans (hp.cons f)⟩
      rw [sortPairs, hgs]
      exact he
  obtain ⟨gs, hgs, ho, hp⟩ := hsorted
  have hmerge := List.mergeSort_perm fs fun f g => f.1.isBefore g.1
  rw [hgs, ho.eq_of_perm (inOrder_mergeSort fs) (hp.trans hmerge.symm) ((nodup_perm hmerge).2 hn)]

end Fields

namespace Record

variable {r r₁ r₂ : Record} {extra extra₂ context context₂ : Fields} {labels : Labels} {k : Text}

theorem withExtra_perm (hp : extra.Perm extra₂) (hm : r.withExtra extra = .ok r₁) :
    ∃ r₂, r.withExtra extra₂ = .ok r₂ := by
  obtain ⟨hl, hfree, -⟩ := withExtra_eq_ok.1 hm
  exact ⟨_, withExtra_of_free hl fun f hf => hfree f (hp.mem_iff.2 hf)⟩

/-- The order of the fields of a call and of a context has no part in what a record ends up with,
apart from their order. -/
theorem finished_perm (labels : Labels) (hr : r.fields = []) (hx : extra.keys.Nodup)
    (hc : context.keys.Nodup) (hpx : extra.Perm extra₂) (hpc : context.Perm context₂)
    (hm : r.withExtra extra = .ok r₁)
    (hm₂ : r.withExtra extra₂ = .ok r₂) :
    ((r₁.withLabels labels).withContext context).fields.Perm
      ((r₂.withLabels labels).withContext context₂).fields := by
  have hx₂ := (Fields.nodup_perm hpx).1 hx
  have hc₂ := (Fields.nodup_perm hpc).1 hc
  apply Fields.perm_of_get? (nodup_finished labels context hr hm)
    (nodup_finished labels context₂ hr hm₂)
  intro k
  rw [get?_finished_eq hr hx hm, get?_finished_eq hr hx₂ hm₂, Fields.get?_perm hpx hx₂,
    Fields.get?_perm hpc hc₂]

end Record

namespace Line

variable {r r₁ : Record} {fields fields₂ extra extra₂ context context₂ : Fields} {labels : Labels}

/-- A template finds what it shows by name. -/
theorem base_congr (template : Text) (h : ∀ k, fields.get? k = fields₂.get? k) :
    base template { r with fields } = base template { r with fields := fields₂ } := by
  have ht : Record.text { r with fields } = Record.text { r with fields := fields₂ } := by
    simp only [Record.text, h]
    rfl
  have hfill : ∀ room shown template, fillTemplate room (shown ++ fields) template =
      fillTemplate room (shown ++ fields₂) template := by
    intro room shown template
    have hget : (fun k => Fields.get? k (shown ++ fields)) =
        fun k => Fields.get? k (shown ++ fields₂) := by
      funext k
      rw [Fields.get?_append, Fields.get?_append, h]
    rw [fillTemplate, fillTemplate, hget]
  simp only [base, ht, hfill]
  rfl

/-- The pairs of a line for people before they are sorted. -/
def pairs (r : Record) : Fields := r.shownFields.filter (!isLabel ·.1)

theorem nodup_pairs (hn : r.fields.keys.Nodup) : (pairs r).keys.Nodup :=
  Fields.keys_filter_nodup _ (Fields.keys_filter_nodup _ hn)

theorem nodup_sortedFields (hn : r.fields.keys.Nodup) : (sortedFields r).keys.Nodup :=
  (Fields.nodup_perm (List.mergeSort_perm _ _)).2 (nodup_pairs hn)

theorem sortedFields_perm (hp : fields.Perm fields₂) (hn : fields₂.keys.Nodup) :
    sortedFields { r with fields } = sortedFields { r with fields := fields₂ } := by
  have hpairs : (pairs { r with fields }).Perm (pairs { r with fields := fields₂ }) :=
    (hp.filter _).filter _
  exact (Fields.inOrder_mergeSort _).eq_of_perm (Fields.inOrder_mergeSort _)
    ((List.mergeSort_perm _ _).trans (hpairs.trans (List.mergeSort_perm _ _).symm))
    (nodup_sortedFields hn)

/-- In which order fields were given cannot be seen in a line for people. -/
theorem keyValue_congr (template : Text) (hp : fields.Perm fields₂) (hn : fields₂.keys.Nodup) :
    keyValue template { r with fields } = keyValue template { r with fields := fields₂ } := by
  rw [keyValue_eq, keyValue_eq, base_congr template fun k => Fields.get?_perm hp hn, checkPairs,
    checkPairs, sortedFields_perm hp hn]

theorem exists_keyValue (r : Record) : (∃ line, keyValue defaultTemplate r = .ok line) ↔
    (∃ message, r.text = .ok message) ∧ (∃ clock, Time.clock r.created = .ok clock) ∧
      ∀ f ∈ sortedFields r, f.2.IsDisplayable r.room.text := by
  simp only [keyValue_eq_ok, base_default, bind_eq_ok, mapError_eq_ok, pure_eq_ok]
  constructor
  · rintro ⟨line, front, ⟨message, hm, clock, hc, -⟩, hd, -⟩
    exact ⟨⟨message, hm⟩, ⟨clock, hc⟩, hd⟩
  · rintro ⟨⟨message, hm⟩, ⟨clock, hc⟩, hd⟩
    exact ⟨_, _, ⟨message, hm, clock, hc, rfl⟩, hd, rfl⟩

theorem base_default_of_text (ht : Record.text { r with fields } = r.text) :
    base defaultTemplate { r with fields } = base defaultTemplate r := by
  rw [base_default, base_default, ht]
  rfl

/-- What a line for people shows comes from the call, and else from the context. -/
theorem mem_sortedFields (hr : r.fields = []) (hx : extra.keys.Nodup)
    (hm : r.withExtra extra = .ok r₁) (key : Text) (v : Value) :
    (key, v) ∈ sortedFields ((r₁.withLabels labels).withContext context) ↔ isShown key = true ∧
      (extra.get? key).or (if Record.isClosed key then none else context.get? key) = some v := by
  have hn := Record.nodup_finished labels context hr hm
  rw [Fields.mem_iff_get? (nodup_sortedFields hn), get?_sortedFields hn]
  cases hs : isShown key with
  | false => simp
  | true =>
    have hlabel : key ≠ "service".toList ∧ key ≠ "environment".toList := by
      constructor <;>
      · rintro rfl
        revert hs
        decide
    rw [Record.get?_finished labels context hr hx hm hlabel.1 hlabel.2]
    simp

/-- No part of a record is shown as a field. -/
theorem isReserved_of_mem_sortedFields (hr : r.fields = []) (hx : extra.keys.Nodup)
    (hm : r.withExtra extra = .ok r₁) {f : Text × Value}
    (hf : f ∈ sortedFields ((r₁.withLabels labels).withContext context)) :
    isReserved f.1 = false := by
  obtain ⟨-, hsource⟩ := (mem_sortedFields hr hx hm f.1 f.2).1 hf
  obtain hcall | ⟨-, hcontext⟩ := Option.or_eq_some_iff.1 hsource
  · exact (Record.withExtra_eq_ok.1 hm).2.1 _ (Fields.mem_of_get? hcall)
  · cases hc : Record.isClosed f.1 with
    | true =>
      rw [hc] at hcontext
      cases hcontext
    | false =>
      rw [Record.isClosed, Bool.or_eq_false_iff] at hc
      exact hc.1

/-- The line of a record does not depend on the order in which its call and its context have their
fields. Behind what the record has without any, it tells each field of a name that is shown, that of
the call before that of the context. The names increase; however values are compared, and even if
they cannot be, sorting whole pairs has the same result. There is a line unless the message or the
time of the record has no text, or one of the fields that are shown. -/
theorem keyValue_of_perm (labels : Labels) (hr : r.fields = []) (hx : extra.keys.Nodup)
    (hc : context.keys.Nodup) (hg : messageOperation ∉ extra.keys) (hpx : extra.Perm extra₂)
    (hpc : context.Perm context₂) (hm : r.withExtra extra = .ok r₁) :
    let written (r : Record) (context : Fields) := (r.withLabels labels).withContext context
    ∃ r₂ fields, r.withExtra extra₂ = .ok r₂ ∧
      (∀ template,
        keyValue template (written r₂ context₂) = keyValue template (written r₁ context) ∧
        ∀ line, keyValue template (written r₁ context) = .ok line ↔
          ∃ front, base template (written r₁ context) = .ok front ∧
            (∀ f ∈ fields, f.2.IsDisplayable r.room.text) ∧ front ++ tail fields = line) ∧
      base defaultTemplate (written r₁ context) = base defaultTemplate r ∧
      ((∃ line, keyValue defaultTemplate (written r₁ context) = .ok line) ↔
        (∃ message, r.text = .ok message) ∧ (∃ clock, Time.clock r.created = .ok clock) ∧
          ∀ f ∈ fields, f.2.IsDisplayable r.room.text) ∧
      (r.arguments = [] → Time.HasStamp r.created →
        (∀ f ∈ fields, f.2.IsDisplayable r.room.text) →
          ∃ line, keyValue defaultTemplate (written r₁ context) = .ok line) ∧
      fields.keys.Pairwise (· < ·) ∧
      (∀ key v, (key, v) ∈ fields ↔ isShown key = true ∧
        (extra.get? key).or (if Record.isClosed key then none else context.get? key) = some v) ∧
      (∀ f ∈ fields, isReserved f.1 = false) ∧
      ∀ before, Fields.sortPairs before (pairs (written r₁ context)) = .ok fields ∧
        Fields.sortPairs before (pairs (written r₂ context₂)) = .ok fields := by
  intro written
  obtain ⟨r₂, hm₂⟩ := Record.withExtra_perm hpx hm
  have hn := Record.nodup_finished labels context hr hm
  have hn₂ := Record.nodup_finished labels context₂ hr hm₂
  have hperm := Record.finished_perm labels hr hx hc hpx hpc hm hm₂
  have hdone : written r₁ context = { r with fields := (written r₁ context).fields } :=
    Record.finished_eq hm
  have hdone₂ : written r₂ context₂ = { r with fields := (written r₂ context₂).fields } :=
    Record.finished_eq hm₂
  have hroom : (written r₁ context).room = r.room := by rw [hdone]
  have htext : (written r₁ context).text = r.text := Record.text_finished labels context hr hx hg hm
  have hsorted : sortedFields (written r₂ context₂) = sortedFields (written r₁ context) := by
    rw [hdone, hdone₂]
    exact (sortedFields_perm hperm hn₂).symm
  have hexists : (∃ line, keyValue defaultTemplate (written r₁ context) = .ok line) ↔
      (∃ message, r.text = .ok message) ∧ (∃ clock, Time.clock r.created = .ok clock) ∧
        ∀ f ∈ sortedFields (written r₁ context), f.2.IsDisplayable r.room.text := by
    have hcreated : (written r₁ context).created = r.created := by rw [hdone]
    rw [exists_keyValue, htext, hcreated, hroom]
  refine ⟨r₂, sortedFields (written r₁ context), hm₂, fun template => ⟨?_, fun line => ?_⟩, ?_,
    hexists, ?_, ?_, mem_sortedFields hr hx hm,
    fun f hf => isReserved_of_mem_sortedFields hr hx hm hf, fun before => ⟨?_, ?_⟩⟩
  · rw [hdone, hdone₂]
    exact (keyValue_congr template hperm hn₂).symm
  · rw [keyValue_eq_ok, hroom]
  · rw [hdone]
    apply base_default_of_text
    rw [← hdone, htext]
  · intro ha hcreated hd
    refine hexists.2 ⟨⟨r.message, ?_⟩, Time.exists_clock hcreated, hd⟩
    rw [Record.text, hr, ha]
    rfl
  · exact (Fields.inOrder_mergeSort _).keys_lt (nodup_sortedFields hn)
  · exact Fields.sortPairs_eq_ok before (nodup_pairs hn)
  · rw [← hsorted]
    exact Fields.sortPairs_eq_ok before (nodup_pairs hn₂)

/-- Fields of several types, set in two orders. -/
theorem keyValue_of_perm_mixed :
    let r : Record := { logger := "test", level := 20, message := "Done", created := 1 }
    let extra : Fields := [("b", .null), ("a", .list [.int 1]), ("_c", .int 2), ("d", .text "x y")]
    let context : Fields := [("a", .int 3), ("B", .bool true), ("message", .null)]
    let line : Text := "1970-01-01 00:00:00 [INFO] test: Done B=true a=[1] b=null d=\"x y\""
    ∃ r₁ r₂, r.withExtra extra = .ok r₁ ∧ r.withExtra extra.reverse = .ok r₂ ∧
      keyValue defaultTemplate ((r₁.withLabels {}).withContext context) = .ok line ∧
      keyValue defaultTemplate ((r₂.withLabels {}).withContext context.reverse) = .ok line := by
  intro r extra context line
  obtain ⟨r₁, hm⟩ : ∃ r₁, r.withExtra extra = .ok r₁ :=
    ⟨_, Record.withExtra_of_free (by decide) (by decide)⟩
  obtain ⟨r₂, fields, hm₂, htemplates, hbase, -, -, -, -, -, hsort⟩ :=
    keyValue_of_perm {} rfl (by decide) (by decide) (by decide)
      extra.reverse_perm.symm context.reverse_perm.symm hm
  obtain ⟨hsame, hline⟩ := htemplates defaultTemplate
  have hclock : Time.clock r.created = .ok "1970-01-01 00:00:00".toList := by decide +kernel
  let sorted : Fields :=
    [("B", .bool true), ("a", .list [.int 1]), ("b", .null), ("d", .text "x y")]
  have hfields : fields = sorted := by
    have hfirst := (hsort fun _ _ => .error .scopeField).1
    obtain ⟨-, -, rfl⟩ := Record.withExtra_eq_ok.1 hm
    exact (Except.ok.inj hfirst).symm
  rw [hfields] at hline
  have hfront : base defaultTemplate ((r₁.withLabels {}).withContext context) =
      .ok "1970-01-01 00:00:00 [INFO] test: Done".toList := by
    rw [hbase, base_default, hclock]
    rfl
  have hl := (hline line).2 ⟨_, hfront, by decide, by decide⟩
  rw [hl] at hsame
  exact ⟨r₁, r₂, hm, hm₂, hl, hsame⟩

/-- A message that does not take its argument, an integer of too many digits and lists inside each
other leave a record without a line. -/
theorem keyValue_unwritten :
    let r : Record := { logger := "test", level := 20, message := "Done", created := 1 }
    let filled : Record := { r with message := "%d", arguments := [.text "x"] }
    let long : Fields := [("n", .int Value.overlong)]
    let deep : Fields := [("n", Value.nested 901)]
    filled.withExtra [] = .ok filled ∧
      keyValue defaultTemplate filled = .error (.template (.notNumber 'd' "str")) ∧
      (∃ r', r.withExtra long = .ok r' ∧
        keyValue defaultTemplate r' = .error (.unwritable .digits)) ∧
      ∃ r', r.withExtra deep = .ok r' ∧
        keyValue defaultTemplate r' = .error (.unwritable .depth) := by
  intro r filled long deep
  have hlong : ∃ r', r.withExtra long = .ok r' ∧
      keyValue defaultTemplate r' = .error (.unwritable .digits) :=
    ⟨_, Record.withExtra_of_free (by decide) (by decide), by decide +kernel⟩
  have hdeep : ∃ r', r.withExtra deep = .ok r' ∧
      keyValue defaultTemplate r' = .error (.unwritable .depth) :=
    ⟨_, Record.withExtra_of_free (by decide) (by decide), by decide +kernel⟩
  exact ⟨Record.withExtra_of_free (by decide) (by decide), by decide +kernel, hlong, hdeep⟩

end Line

end Log

end KeywordSieve
