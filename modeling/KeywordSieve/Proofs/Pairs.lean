import KeywordSieve.Proofs.Constructs
import KeywordSieve.Proofs.Identity
import KeywordSieve.Proofs.Writable

/-!
The pairs behind a line for people. A written text that holds a space stands in double quotes, so
the pairs of two records are read alike only if they are the same, or if one value is written like
another one with the beginning of a further pair behind it. That takes a double quote in one of the
two values, for the quotes inside a text are written as they are.
-/
namespace KeywordSieve.Log

open Text

namespace Fields

variable {fs gs : Fields} {key : Text} {v : Value}

/-- The order of fields does not matter to what they are. -/
theorem get?_perm (h : fs.Perm gs) (hn : keys gs |>.Nodup) : fs.get? key = gs.get? key := by
  cases hf : fs.get? key with
  | none =>
    have hk : key ∉ keys gs := by
      rw [keys, ← (h.map Prod.fst).mem_iff]
      exact get?_eq_none.1 hf
    exact (get?_eq_none.2 hk).symm
  | some v => exact (get?_of_mem hn (h.mem_iff.1 (mem_of_get? hf))).symm

end Fields

namespace Line

variable {fs gs fields : Fields} {t u v w key rest after template line : Text} {r r' : Record}

/-- A name without the characters that divide a line. -/
def IsName (key : Text) : Prop := ' ' ∉ key ∧ '=' ∉ key ∧ '"' ∉ key

/-- Texts under such names. -/
def AreTexts (fields : Fields) : Prop := ∀ f ∈ fields, IsName f.1 ∧ ∃ t, f.2 = .text t

def start (key : Text) : Text := ' ' :: key ++ ['=']

/-- The value `w` is written like `v` with the beginning of a further pair behind it. -/
def RunsInto (v key w : Text) : Prop := valueText (.text v) ++ start key <+: valueText (.text w)

theorem tail_cons (f : Text × Value) (fields : Fields) :
    tail (f :: fields) = start f.1 ++ (valueText f.2 ++ tail fields) := by
  simp [tail, start]

theorem valueText_cases (t : Text) : valueText (.text t) = '"' :: t ++ ['"'] ∨
    valueText (.text t) = t ∧ ' ' ∉ t ∧ '=' ∉ t ∧ ',' ∉ t := by
  rw [valueText]
  split
  · exact Or.inl rfl
  · next h =>
    rw [not_or, not_or] at h
    exact Or.inr ⟨rfl, h⟩

theorem valueText_of_space (h : ' ' ∈ valueText (.text t)) :
    valueText (.text t) = '"' :: t ++ ['"'] := by
  obtain hq | ⟨hp, hs, -⟩ := valueText_cases t
  · exact hq
  · rw [hp] at h
    exact absurd h hs

/-- A text that is written in quotes cannot be taken for one that is not, for it holds a character
that asks for quotes. -/
theorem valueText_ne_of_plain (hv : ' ' ∉ v ∧ '=' ∉ v ∧ ',' ∉ v)
    (hw : valueText (.text w) = '"' :: w ++ ['"']) : v ≠ valueText (.text w) := by
  rintro rfl
  rw [hw] at hv
  have hn : ¬ (' ' ∈ w ∨ '=' ∈ w ∨ ',' ∈ w) := by simpa using hv
  rw [valueText, if_neg hn] at hw
  have hl := congrArg List.length hw
  simp only [List.length_append, List.length_cons, List.length_nil] at hl
  omega

/-- Two texts are written alike only if they are the same. -/
theorem valueText_injective (h : valueText (.text v) = valueText (.text w)) : v = w := by
  obtain hv | ⟨hv, hplain⟩ := valueText_cases v
  · obtain hw | ⟨hw, hplain⟩ := valueText_cases w
    · simpa [hv, hw] using h
    · exact absurd (hw ▸ h.symm) (valueText_ne_of_plain hplain hv)
  · obtain hw | ⟨hw, -⟩ := valueText_cases w
    · exact absurd (hv ▸ h) (valueText_ne_of_plain hplain hw)
    · rw [← hv, ← hw, h]

/-- A piece of the line that ends in a double quote holds the beginning of the pair that it begins
with, for no name holds a double quote. -/
theorem start_isPrefix (hk : IsName key) (hq : '"' ∈ u) (h : u ++ after = start key ++ rest) :
    start key <+: u := by
  obtain ⟨more, hu, -⟩ | ⟨more, hu, -⟩ := List.append_eq_append_iff.1 h
  · have hm : '"' ∈ start key := by simp [hu, hq]
    simp [start, hk.2.2] at hm
  · exact ⟨more, hu.symm⟩

/-- Where one value ends and the other one goes on, it goes on with the beginning of a pair. -/
theorem runsInto_of_append (hn : ∀ f ∈ fs, IsName f.1) (hu : u ≠ [])
    (hw : valueText (.text w) = valueText (.text v) ++ u) (h : tail fs = u ++ after) :
    ∃ key ∈ fs.keys, RunsInto v key w := by
  cases fs with
  | nil => simp [tail, hu] at h
  | cons f fs =>
    rw [tail_cons] at h
    have hspace : ' ' ∈ u := by
      obtain ⟨c, u, rfl⟩ := List.exists_cons_of_ne_nil hu
      obtain rfl : ' ' = c := by simpa [start] using congrArg List.head? h
      exact List.mem_cons_self
    have hquoted := valueText_of_space (t := w) (by simp [hw, hspace])
    have hq : '"' ∈ u := by
      have hl : u.getLast? = some '"' := by
        have hl := congrArg List.getLast? (hw.symm.trans hquoted)
        rwa [List.getLast?_append_of_ne_nil _ hu, List.getLast?_concat] at hl
      exact List.mem_of_getLast? hl
    obtain ⟨more, hm⟩ := start_isPrefix (hn f List.mem_cons_self) hq h.symm
    exact ⟨f.1, List.mem_cons_self, more, by rw [hw, ← hm, List.append_assoc]⟩

/-- A value runs into a pair only by a double quote. -/
theorem RunsInto.quote (h : RunsInto v key w) : '"' ∈ v ∨ '"' ∈ w := by
  obtain ⟨more, hm⟩ := h
  have hw := valueText_of_space (t := w) (by simp [← hm, start])
  rw [hw] at hm
  obtain hv | ⟨hv, -⟩ := valueText_cases v
  · rw [hv] at hm
    have hm : v ++ '"' :: (start key ++ more) = w ++ ['"'] := by simpa using hm
    obtain ⟨inner, rfl, hi⟩ | ⟨inner, -, hi⟩ := List.append_eq_append_iff.1 hm
    · cases inner with
      | nil => simp [start] at hi
      | cons c inner =>
        obtain rfl : '"' = c := by simpa using congrArg List.head? hi
        exact Or.inr (by simp)
    · have hl : 1 = inner.length + (key.length + (more.length + 1) + 1 + 1) := by
        simpa [start] using congrArg List.length hi
      omega
  · rw [hv] at hm
    cases v with
    | nil => simp [start] at hm
    | cons c v =>
      obtain rfl : c = '"' := by simpa using congrArg List.head? hm
      exact Or.inl List.mem_cons_self

/-- Under one name, a value of `gs` is written like that of `fs` with the beginning of a further pair
of `fs` behind it, and one of the two values holds a double quote. -/
def Forges (fs gs : Fields) : Prop :=
  ∃ name v w key, (name, .text v) ∈ fs ∧ (name, .text w) ∈ gs ∧ key ∈ fs.keys ∧
    RunsInto v key w ∧ ('"' ∈ v ∨ '"' ∈ w)

theorem Forges.mono {fs' gs' : Fields} (h : Forges fs gs) (hf : fs ⊆ fs') (hg : gs ⊆ gs') :
    Forges fs' gs' := by
  obtain ⟨name, v, w, key, hv, hw, hk, hr⟩ := h
  exact ⟨name, v, w, key, hf hv, hg hw, List.map_subset _ hf hk, hr⟩

/-- Where a pair of one list ends before that of the other under the same name, the second one
forges what follows the first. -/
theorem forges_of_append (hn : ∀ f ∈ fs, IsName f.1) (hu : u ≠ [])
    (hw : valueText (.text w) = valueText (.text v) ++ u) (h : tail fs = u ++ tail gs) :
    Forges ((key, .text v) :: fs) ((key, .text w) :: gs) := by
  obtain ⟨further, hk, hr⟩ := runsInto_of_append hn hu hw h
  exact ⟨key, v, w, further, List.mem_cons_self, List.mem_cons_self, List.mem_cons_of_mem _ hk, hr,
    hr.quote⟩

/-- Under one name, two values with pairs behind them are read alike only if they are the same, or
if one of them goes on where the other one ends. -/
theorem value_eq_or_forges (key : Text) (hf : ∀ f ∈ fs, IsName f.1) (hg : ∀ g ∈ gs, IsName g.1)
    (h : valueText (.text v) ++ tail fs = valueText (.text w) ++ tail gs) :
    v = w ∧ tail fs = tail gs ∨ Forges ((key, .text v) :: fs) ((key, .text w) :: gs) ∨
      Forges ((key, .text w) :: gs) ((key, .text v) :: fs) := by
  obtain ⟨u, hw, ht⟩ | ⟨u, hv, ht⟩ := List.append_eq_append_iff.1 h
  · by_cases hu : u = []
    · subst hu
      exact Or.inl ⟨valueText_injective (by simpa using hw.symm), ht⟩
    · exact Or.inr (Or.inl (forges_of_append hf hu hw ht))
  · by_cases hu : u = []
    · subst hu
      exact Or.inl ⟨valueText_injective (by simpa using hv), ht.symm⟩
    · exact Or.inr (Or.inr (forges_of_append hg hu hv ht))

/-- Two lists of pairs that are written alike are the same, unless one forges the other. -/
theorem eq_or_forges (hf : AreTexts fs) (hg : AreTexts gs) (h : tail fs = tail gs) :
    fs = gs ∨ Forges fs gs ∨ Forges gs fs := by
  induction fs generalizing gs with
  | nil =>
    cases gs with
    | nil => exact Or.inl rfl
    | cons g gs => simp [tail] at h
  | cons f fs ih =>
    cases gs with
    | nil => simp [tail] at h
    | cons g gs =>
      obtain ⟨name, fv⟩ := f
      obtain ⟨name', gv⟩ := g
      obtain ⟨⟨hname, v, hv⟩, hfs⟩ := List.forall_mem_cons.1 hf
      obtain ⟨⟨hname', w, hw⟩, hgs⟩ := List.forall_mem_cons.1 hg
      dsimp only at hname hv hname' hw
      subst hv hw
      have h : name ++ '=' :: (valueText (.text v) ++ tail fs) =
          name' ++ '=' :: (valueText (.text w) ++ tail gs) := by
        simpa [tail_cons, start] using h
      obtain rfl : name = name' := by
        rw [← takeWhile_ne_append hname.2.1, h, takeWhile_ne_append hname'.2.1]
      have h : valueText (.text v) ++ tail fs = valueText (.text w) ++ tail gs := by simpa using h
      obtain ⟨rfl, ht⟩ | hforges := value_eq_or_forges name (fun f hm => (hfs f hm).1)
        (fun g hm => (hgs g hm).1) h
      · obtain rfl | hforges := ih hfs hgs ht
        · exact Or.inl rfl
        · have hs := fun f (fs : Fields) => List.subset_cons_self f fs
          exact Or.inr (hforges.imp (·.mono (hs _ _) (hs _ _)) (·.mono (hs _ _) (hs _ _)))
      · exact Or.inr hforges

/-- A line with what troubles its record below it. -/
def withTrouble (r : Record) (line : Text) : Text :=
  match r.trouble with
  | none => line
  | some trouble =>
    (if line.getLast? = some '\n' then line else line ++ ['\n']) ++ trouble.message

def base (template : Text) (r : Record) : Except Fault Text := do
  let template := if template.isEmpty then "%(message)s".toList else template
  if !Template.hasNamed template then .error (.invalidTemplate template)
  let message ← r.text
  let time ← timeFields template r
  return withTrouble r
    (← fillTemplate r.room.template (parts r message ++ time ++ r.fields) template)

/-- Fails if one of the pairs behind a line cannot be written. -/
def checkPairs (r : Record) : Except Fault Unit :=
  Fault.check ((sortedFields r).findSome? fun f => f.2.displayRefusal? r.room.text)

theorem checkPairs_eq_ok {u : Unit} :
    checkPairs r = .ok u ↔ ∀ f ∈ sortedFields r, f.2.IsDisplayable r.room.text := by
  rw [checkPairs, check_eq_ok, List.findSome?_eq_none_iff]
  exact forall₂_congr fun f _ => Value.displayRefusal?_eq_none f.2 r.room.text

/-- The line is its front with the pairs behind it, if all of them can be written. -/
theorem keyValue_eq (template : Text) (r : Record) :
    keyValue template r = base template r >>= fun front =>
      (fun _ => front ++ tail (sortedFields r)) <$> checkPairs r := by
  rw [keyValue, base]
  generalize (if template.isEmpty then "%(message)s".toList else template) = template
  cases hn : Template.hasNamed template with
  | false => rfl
  | true =>
    cases r.text with
    | error fault => rfl
    | ok message =>
      cases timeFields template r with
      | error fault => rfl
      | ok time =>
        simp only [bind, Except.bind]
        cases fillTemplate r.room.template (parts r message ++ time ++ r.fields) template with
        | error fault => rfl
        | ok line =>
          show (Fault.check _ >>= fun _ => _) = (fun _ => _) <$> checkPairs r
          rw [checkPairs]
          cases Fault.check ((sortedFields r).findSome? fun f => f.2.displayRefusal? r.room.text) <;>
            rfl

theorem keyValue_eq_ok : keyValue template r = .ok line ↔ ∃ front, base template r = .ok front ∧
    (∀ f ∈ sortedFields r, f.2.IsDisplayable r.room.text) ∧
      front ++ tail (sortedFields r) = line := by
  simp only [keyValue_eq, bind_eq_ok, map_eq_ok, checkPairs_eq_ok]
  constructor
  · rintro ⟨front, hf, -, hd, hl⟩
    exact ⟨front, hf, hd, hl⟩
  · rintro ⟨front, hf, hd, hl⟩
    exact ⟨front, hf, (), hd, hl⟩

/-- A slot that names a text and has no flags shows the text as it is. -/
theorem fillPieces_slot (room : Nat) {lookup : Text → Option Value} (whole : Option Value)
    (index : Nat) (pieces : List Piece) (hk : lookup key = some (.text t)) :
    Template.fillPieces room (.named lookup whole)
      (.slot { key := some key, stage := .flags } 's' index :: pieces) =
      (t ++ ·) <$> Template.fillPieces room (.named lookup none) pieces := by
  have hs : Template.Source.settle (.named lookup whole) { key := some key, stage := .flags } =
      .ok ({}, .named lookup (some (.text t))) := by
    simp [Template.Source.settle, Template.Source.select, hk, bind, Except.bind]
    rfl
  have hfill : Template.Fit.fill {} { body := t } = .ok t := by
    simp [Template.Fit.fill, padLeft, Template.Fit.widest]
  have hshape : Template.convert room {} 's' index (.text t) = .ok { body := t } := rfl
  simp only [Template.fillPieces, hs, bind, Except.bind]
  simp [Template.Source.next, hshape, hfill, Functor.map, Except.map]
  rfl

theorem fillPieces_literal (room : Nat) (source : Template.Source) (c : Char)
    (pieces : List Piece) :
    Template.fillPieces room source (.literal c :: pieces) =
      (c :: ·) <$> Template.fillPieces room source pieces := by
  rw [Template.fillPieces]

theorem parse_default : Piece.parse defaultTemplate =
    let slot (name : Text) := Piece.slot { key := some name, stage := .flags } 's'
    [slot "asctime" 10, .literal ' ', .literal '[', slot "levelname" 25, .literal ']', .literal ' ',
      slot "name" 35, .literal ':', .literal ' ', slot "message" 48] := by
  decide +kernel

/-- The default template shows time, level, logger and message. -/
theorem fill_default (room : Nat) {lookup : Text → Option Value} {whole : Option Value}
    {clock level logger message : Text} (hclock : lookup "asctime" = some (.text clock))
    (hlevel : lookup "levelname" = some (.text level)) (hlogger : lookup "name" = some (.text logger))
    (hmessage : lookup "message" = some (.text message)) :
    Template.fill room (.named lookup whole) defaultTemplate =
      .ok (clock ++ " [" ++ level ++ "] " ++ logger ++ ": " ++ message) := by
  have hnil : Template.fillPieces room (.named lookup none) [] = .ok [] := rfl
  rw [Template.fill, parse_default]
  simp only [fillPieces_slot room _ _ _ hclock, fillPieces_slot room _ _ _ hlevel,
    fillPieces_slot room _ _ _ hlogger, fillPieces_slot room _ _ _ hmessage, fillPieces_literal,
    hnil]
  simp [Functor.map, Except.map]

/-- What stands in front of the pairs: no field of the record has a part in it. -/
theorem base_default (r : Record) : base defaultTemplate r = do
    let message ← r.text
    let clock ← (Time.clock r.created).mapError .time
    return withTrouble r
      (clock ++ " [" ++ levelName r.level ++ "] " ++ r.logger ++ ": " ++ message) := by
  have hfill : ∀ message clock,
      fillTemplate r.room.template
        (parts r message ++ [("asctime".toList, .text clock)] ++ r.fields) defaultTemplate =
          .ok (clock ++ " [" ++ levelName r.level ++ "] " ++ r.logger ++ ": " ++ message) := by
    intro message clock
    rw [fillTemplate, fill_default]
    all_goals simp [parts]
  have hempty : defaultTemplate.isEmpty = false := rfl
  have hnamed : Template.hasNamed defaultTemplate = true := by decide +kernel
  have htime : occurs timeSlot defaultTemplate = true := by decide +kernel
  revert hfill hempty hnamed htime
  generalize defaultTemplate = template
  intro hfill hempty hnamed htime
  rw [base]
  simp only [hempty, hnamed, timeFields, htime, Bool.false_eq_true, Bool.not_true, ↓reduceIte]
  cases r.text with
  | error fault => rfl
  | ok message =>
    cases Time.clock r.created with
    | error fault => rfl
    | ok clock =>
      show (fillTemplate r.room.template
        (parts r message ++ [("asctime".toList, .text clock)] ++ r.fields) template >>=
          fun line => pure (withTrouble r line)) = _
      rw [hfill]
      rfl

/-- Fields that are in order are written in that order. -/
theorem sortedFields_of_pairwise (hs : r.shownFields.filter (!isLabel ·.1) = fields)
    (ho : fields.Pairwise fun f g => f.1.isBefore g.1 = true) : sortedFields r = fields := by
  rw [sortedFields, hs, List.mergeSort_of_pairwise ho]

/-- The line for people of a record that nothing troubles. -/
theorem keyValue_default {clock message : Text} (hc : Time.clock r.created = .ok clock)
    (hm : r.text = .ok message) (ht : r.trouble = none)
    (hs : r.shownFields.filter (!isLabel ·.1) = fields)
    (ho : fields.Pairwise fun f g => f.1.isBefore g.1 = true)
    (hd : ∀ f ∈ fields, f.2.IsDisplayable r.room.text) :
    keyValue defaultTemplate r =
      .ok (clock ++ " [" ++ levelName r.level ++ "] " ++ r.logger ++ ": " ++ message ++
        tail fields) := by
  have hfront : base defaultTemplate r =
      .ok (clock ++ " [" ++ levelName r.level ++ "] " ++ r.logger ++ ": " ++ message) := by
    have hclock : (Time.clock r.created).mapError Fault.time = .ok clock := mapError_eq_ok.2 hc
    rw [base_default, hm, hclock]
    simp [withTrouble, ht, bind, Except.bind, pure, Except.pure]
  have hsorted := sortedFields_of_pairwise hs ho
  exact keyValue_eq_ok.2 ⟨_, hfront, by rwa [hsorted], by rw [hsorted]⟩

/-- Whether a line for people shows a field of some name. -/
def isShown (key : Text) : Bool := !isHidden key && !isLabel key

theorem sortedFields_subset (r : Record) : sortedFields r ⊆ r.fields := by
  intro f hf
  rw [sortedFields, List.mem_mergeSort, Record.shownFields] at hf
  exact (List.mem_filter.1 (List.mem_filter.1 hf).1).1

/-- Sorting and leaving out fields changes no value of a field that is shown. -/
theorem get?_sortedFields (hn : r.fields.keys.Nodup) (key : Text) :
    (sortedFields r).get? key = if isShown key then r.fields.get? key else none := by
  have hfilter := Fields.get?_filter (!isLabel ·) r.shownFields key
  have hshown := Fields.get?_filter (!isHidden ·) r.fields key
  have hperm := List.mergeSort_perm (r.shownFields.filter (!isLabel ·.1))
    fun a b => a.1.isBefore b.1
  rw [sortedFields, Fields.get?_perm hperm
    (Fields.keys_filter_nodup _ (Fields.keys_filter_nodup _ hn)), hfilter, Record.shownFields, hshown,
    isShown]
  cases isHidden key <;> cases isLabel key <;> rfl

/-- The fields of a record behind a call are those of the call. -/
theorem fields_of_call (hr : r.fields = []) (hn : fs.keys.Nodup) (hm : r.withExtra fs = .ok r') :
    sortedFields r' ⊆ fs ∧ ∀ key, isShown key = true → (sortedFields r').get? key = fs.get? key := by
  constructor
  · intro f hf
    exact (Record.mem_withExtra hr hn hm f).1 (sortedFields_subset _ hf)
  · intro key hk
    rw [get?_sortedFields (Record.nodup_withExtra hr hm), if_pos hk, Record.get?_withExtra hr hn hm]

/-- Two records that begin alike, with texts as the fields of their calls, have the same line only if
they show the same fields, or if a value of the one forges fields of the other. -/
theorem shown_eq_or_forges {r₁ r₂ r₁' r₂' : Record} (hr₁ : r₁.fields = []) (hr₂ : r₂.fields = [])
    (hf : AreTexts fs) (hg : AreTexts gs) (hfn : fs.keys.Nodup) (hgn : gs.keys.Nodup)
    (hm₁ : r₁.withExtra fs = .ok r₁') (hm₂ : r₂.withExtra gs = .ok r₂')
    (hb : base template r₁' = base template r₂') (hl₁ : keyValue template r₁' = .ok line)
    (hl₂ : keyValue template r₂' = .ok line) :
    (∀ key, isShown key = true → fs.get? key = gs.get? key) ∨ Forges fs gs ∨ Forges gs fs := by
  obtain ⟨hfs, hfget⟩ := fields_of_call hr₁ hfn hm₁
  obtain ⟨hgs, hgget⟩ := fields_of_call hr₂ hgn hm₂
  obtain ⟨front, hfront, -, hline⟩ := keyValue_eq_ok.1 hl₁
  obtain ⟨front', hfront', -, rfl⟩ := keyValue_eq_ok.1 hl₂
  obtain rfl : front = front' := Except.ok.inj (hfront.symm.trans (hb.trans hfront'))
  have htail : tail (sortedFields r₁') = tail (sortedFields r₂') := List.append_cancel_left hline
  obtain hsame | hforges := eq_or_forges (fun f h => hf f (hfs h)) (fun g h => hg g (hgs h)) htail
  · refine Or.inl fun key hk => ?_
    rw [← hfget key hk, hsame, hgget key hk]
  · exact Or.inr (hforges.imp (·.mono hfs hgs) (·.mono hgs hfs))

/-- The value of `a` in the one call is written like those of `a` and `b` in the other one. -/
theorem shown_eq_or_forges_quotes :
    let r : Record := { logger := "test", level := 20, message := "Done", created := 1 }
    let fs : Fields := [("a", .text "\"1\""), ("b", .text "\"2\"")]
    let gs : Fields := [("a", .text "1\" b=\"2")]
    ∃ r₁ r₂ line, r.withExtra fs = .ok r₁ ∧ r.withExtra gs = .ok r₂ ∧
      keyValue defaultTemplate r₁ = .ok line ∧ keyValue defaultTemplate r₂ = .ok line ∧
      (Forges fs gs ∨ Forges gs fs) := by
  intro r fs gs
  have hclock : Time.clock r.created = .ok "1970-01-01 00:00:00".toList := by decide +kernel
  have hm₁ : r.withExtra fs = .ok { r with fields := fs } :=
    Record.withExtra_of_free (by decide) (by decide)
  have hm₂ : r.withExtra gs = .ok { r with fields := gs } :=
    Record.withExtra_of_free (by decide) (by decide)
  have hs₁ : (Record.shownFields { r with fields := fs }).filter (!isLabel ·.1) = fs := by rfl
  have hs₂ : (Record.shownFields { r with fields := gs }).filter (!isLabel ·.1) = gs := by rfl
  have hl₁ := keyValue_default (r := { r with fields := fs }) hclock rfl rfl hs₁ (by decide)
    (by decide)
  have hl₂ := keyValue_default (r := { r with fields := gs }) hclock rfl rfl hs₂ (by decide)
    (by decide)
  have htail : tail gs = tail fs := by decide
  rw [htail] at hl₂
  have hb : base defaultTemplate { r with fields := fs } =
      base defaultTemplate { r with fields := gs } := by
    rw [base_default, base_default]
    rfl
  have hf : AreTexts fs := by simp [fs, AreTexts, IsName]
  have hg : AreTexts gs := by simp [gs, AreTexts, IsName]
  obtain hsame | hforges :=
    shown_eq_or_forges rfl rfl hf hg (by decide) (by decide) hm₁ hm₂ hb hl₁ hl₂
  · have hmissing : fs.get? "b".toList = none := hsame _ (by decide)
    cases hmissing
  · exact ⟨_, _, _, hm₁, hm₂, hl₁, hl₂, hforges⟩

/-- Two calls have the same line although one has a field less: the value of its other field is read
as both, or the field that it lacks has a hidden name. -/
theorem keyValue_ambiguous :
    let r : Record := { logger := "test", level := 20, message := "Done", created := 1 }
    let line (fs : Fields) := r.withExtra fs >>= keyValue defaultTemplate
    let bare : Text := "1970-01-01 00:00:00 [INFO] test: Done"
    line [("a", .text "\"1\""), ("b", .text "\"2\"")] = .ok (bare ++ " a=\"1\" b=\"2\"") ∧
      line [("a", .text "1\" b=\"2")] = .ok (bare ++ " a=\"1\" b=\"2\"") ∧
      line [("_a", .text "1")] = .ok bare ∧ line [] = .ok bare := by
  intro r line bare
  have hclock : Time.clock r.created = .ok "1970-01-01 00:00:00".toList := by decide +kernel
  have hfront : "1970-01-01 00:00:00" ++ " [" ++ levelName 20 ++ "] " ++ "test" ++ ": " ++ "Done" =
      bare := by decide
  have hline : ∀ fs fields : Fields, r.withExtra fs = .ok { r with fields := fs } →
      Record.text { r with fields := fs } = .ok "Done".toList →
      (Record.shownFields { r with fields := fs }).filter (!isLabel ·.1) = fields →
      (fields.Pairwise fun f g => f.1.isBefore g.1 = true) →
      (∀ f ∈ fields, f.2.IsDisplayable r.room.text) →
      line fs = .ok (bare ++ tail fields) := by
    intro fs fields hm ht hs ho hd
    have hl := keyValue_default (r := { r with fields := fs }) hclock ht rfl hs ho hd
    rw [hfront] at hl
    simp only [line, hm, bind, Except.bind, hl]
  refine ⟨?_, ?_, ?_, ?_⟩
  · exact hline _ [("a", .text "\"1\""), ("b", .text "\"2\"")]
      (Record.withExtra_of_free (by decide) (by decide)) rfl (by rfl) (by decide) (by decide)
  · exact hline _ [("a", .text "1\" b=\"2")]
      (Record.withExtra_of_free (by decide) (by decide)) rfl (by rfl) (by decide) (by decide)
  · exact hline _ [] (Record.withExtra_of_free (by decide) (by decide)) rfl (by rfl)
      List.Pairwise.nil nofun
  · exact hline _ [] (Record.withExtra_of_free (by decide) (by decide)) rfl (by rfl)
      List.Pairwise.nil nofun

end Line

end KeywordSieve.Log
