import KeywordSieve.Proofs.Denoting
import KeywordSieve.Proofs.Encoding
import KeywordSieve.Proofs.Leaving
import KeywordSieve.Proofs.Lexing
import KeywordSieve.Proofs.Rendering

/-!
The tree that the tokens of a JSON text compose, and the value that it denotes. Each collection is
composed of as many parts as the text has, and is closed where the text closes it. Nothing is composed
where a tab between two parts breaks the tokens off.
-/
namespace KeywordSieve.Yaml.Tokens

variable {k kind : Token.Kind} {ks more : List Token.Kind} {t : Token} {ts rest rest' : List Token}
  {most depth deepest : Nat} {position : Position} {items : List Node} {entries : List (Node × Node)}

/-! Tokens by their kinds. -/

theorem pass?_of_ne (h : ts.map Token.kind = k :: ks) (hk : k ≠ kind) : pass? kind ts = none := by
  obtain ⟨t, rest, rfl, ht, -⟩ := List.map_eq_cons_iff.1 h
  rw [pass?, ht, if_neg hk]

theorem exists_pass (h : ts.map Token.kind = k :: ks) : ∃ t rest, pass? k ts = some (t, rest) ∧
    rest.map Token.kind = ks := by
  obtain ⟨t, rest, rfl, ht, hrest⟩ := List.map_eq_cons_iff.1 h
  exact ⟨t, rest, by rw [pass?, ht, if_pos rfl], hrest⟩

theorem at?_of_kinds (h : ts.map Token.kind = k :: ks) (kinds : List Token.Kind) :
    at? kinds ts = kinds.contains k := by
  obtain ⟨t, rest, rfl, ht, -⟩ := List.map_eq_cons_iff.1 h
  rw [at?, ht]

def isOpening : Token.Kind → Bool
  | .scalar _ => true
  | .flowSequenceStart => true
  | .flowMappingStart => true
  | _ => false

theorem ne_of_isOpening (hk : isOpening k = true) (hkind : isOpening kind = false) : k ≠ kind := by
  rintro rfl
  rw [hk] at hkind
  cases hkind

theorem at?_of_isOpening (h : ts.map Token.kind = k :: ks) (hk : isOpening k = true)
    (stops : List Token.Kind) (hs : (stops.all fun stop => !isOpening stop) = true) :
    at? stops ts = false := by
  rw [at?_of_kinds h, ← Bool.not_eq_true]
  intro hc
  have hn := List.all_eq_true.1 hs k (List.contains_iff_mem.1 hc)
  rw [hk] at hn
  cases hn

theorem orEmpty_of_isOpening (h : ts.map Token.kind = k :: ks) (hk : isOpening k = true)
    (stops : List Token.Kind) (hs : (stops.all fun stop => !isOpening stop) = true) (mark : Mark)
    (read : Reader Node) : orEmpty stops mark read ts = read ts := by
  rw [orEmpty, at?_of_isOpening h hk stops hs, if_neg (by decide)]

/-! A node by its first token. -/

theorem node_scalar {s : Scalar} (ht : t.kind = .scalar s) :
    node most depth position (t :: rest) = .ok (.scalar t.start s, rest) := by
  obtain ⟨kind, start, stop⟩ := t
  cases ht
  cases depth with
  | zero => rfl
  | succ depth => rw [node.eq_def]

theorem node_sequence (ht : t.kind = .flowSequenceStart)
    (h : ∀ readPart, flowItems t.start (node most depth .flow) readPart true most rest =
      .ok (items, rest')) :
    node most (depth + 1) position (t :: rest) = .ok (.sequence t.start items, rest') := by
  rw [node.eq_def]
  simp only [ht, h]
  rfl

theorem node_mapping (ht : t.kind = .flowMappingStart)
    (h : flowEntries t.start (node most depth .flow) true most rest = .ok (entries, rest')) :
    node most (depth + 1) position (t :: rest) = .ok (.mapping t.start entries, rest') := by
  rw [node.eq_def]
  simp only [ht, h]
  rfl

/-! A part of a flow collection by its first token. -/

theorem comma_of_kinds {first : Bool} (h : ts.map Token.kind = Json.commaKinds first ++ more)
    (context : Context) (start : Mark) (problem : Text → Problem) :
    ∃ rest, comma first context start problem ts = .ok rest ∧ rest.map Token.kind = more := by
  cases first with
  | true => exact ⟨ts, rfl, h⟩
  | false =>
    obtain ⟨t, rest, hp, hrest⟩ := exists_pass h
    exact ⟨rest, by rw [comma, if_neg (by decide), hp], hrest⟩

/-- Neither the end of a collection nor a key is in front of a part, be it behind a comma. -/
theorem pass?_of_first {first : Bool} (h : ts.map Token.kind = Json.commaKinds first ++ k :: more)
    (hk : k ≠ kind) (hkind : kind ≠ .flowEntry) : pass? kind ts = none := by
  cases first with
  | true => exact pass?_of_ne h hk
  | false => exact pass?_of_ne h hkind.symm

/-- An element is read behind its comma. -/
theorem flowItems_cons {first : Bool} (h : ts.map Token.kind = Json.commaKinds first ++ k :: more)
    (hk : isOpening k = true) (start : Mark) :
    ∃ ts', ts'.map Token.kind = k :: more ∧ ∀ read readPart fuel,
      flowItems start read readPart first (fuel + 1) ts = (do
        let (item, rest) ← read ts'
        let (items, rest) ← flowItems start read readPart false fuel rest
        return (item :: items, rest)) := by
  have hend : k ≠ .flowSequenceEnd := ne_of_isOpening hk rfl
  have hkey : k ≠ .key := ne_of_isOpening hk rfl
  obtain ⟨ts', hc, hts'⟩ := comma_of_kinds h .flowSequence start .noSequenceEnd
  refine ⟨ts', hts', fun read readPart fuel => ?_⟩
  rw [flowItems, pass?_of_first h hend (by decide)]
  simp only [hc, bind, Except.bind, pass?_of_ne hts' hend, pass?_of_ne hts' hkey]

/-- The name of a field is read behind its comma, and then its value behind the colon. -/
theorem flowEntries_cons {first : Bool} {s : Scalar}
    (h : ts.map Token.kind = Json.commaKinds first ++ .key :: .scalar s :: .value :: k :: more)
    (hk : isOpening k = true) (start : Mark) :
    ∃ m ts', ts'.map Token.kind = k :: more ∧ ∀ fuel,
      flowEntries start (node most depth .flow) first (fuel + 1) ts = (do
        let (value, rest) ← node most depth .flow ts'
        let (entries, rest) ← flowEntries start (node most depth .flow) false fuel rest
        return ((.scalar m s, value) :: entries, rest)) := by
  obtain ⟨ts₁, hc, hts₁⟩ := comma_of_kinds h .flowMapping start .noMappingEnd
  obtain ⟨t, ts₂, hp, hts₂⟩ := exists_pass hts₁
  obtain ⟨name, ts₃, rfl, hname, hts₃⟩ := List.map_eq_cons_iff.1 hts₂
  obtain ⟨colon, ts', hcolon, hts'⟩ := exists_pass hts₃
  refine ⟨name.start, ts', hts', fun fuel => ?_⟩
  rw [flowEntries, pass?_of_first h (by decide) (by decide)]
  have hend : pass? .flowMappingEnd ts₁ = none := pass?_of_ne hts₁ (by decide)
  simp only [hc, bind, Except.bind, hend, hp,
    orEmpty_of_isOpening hts₂ rfl [.value, .flowEntry, .flowMappingEnd] rfl, node_scalar hname,
    valueOf, hcolon, orEmpty_of_isOpening hts' hk [.flowEntry, .flowMappingEnd] rfl]

/-! The root of the one document. -/

theorem ending_of_streamEnd (h : ts.map Token.kind = [.streamEnd]) (start : Mark) :
    ending start ts = .ok () := by
  obtain ⟨t, rest, rfl, ht, -⟩ := List.map_eq_cons_iff.1 h
  have hn : pass? .documentEnd (t :: rest) = none := pass?_of_ne h (by decide)
  have hd : documentStart? (t :: rest) = .ok none := by
    simp [documentStart?, ht, at?]
  simp only [ending, hn, hd]
  rfl

theorem ofTokens?_of_root {first : Token} {n : Node} (h : ts.map Token.kind = k :: more)
    (hk : isOpening k = true) (hn : node (ts.length + 1) deepest .block ts = .ok (n, rest))
    (hrest : rest.map Token.kind = [.streamEnd]) :
    Node.ofTokens? deepest (first :: ts) = .ok (some n) := by
  obtain ⟨t, rest', rfl, ht, -⟩ := List.map_eq_cons_iff.1 h
  have hdirective : atDirective (t :: rest') = false := by
    obtain ⟨kind, start, stop⟩ := t
    cases ht
    cases kind <;> first | rfl | cases hk
  have hat := at?_of_isOpening h hk [.documentStart, .streamEnd] rfl
  have hroot : root deepest false (t :: rest') = .ok (n, rest) := hn
  simp only [Node.ofTokens?, List.drop_succ_cons, List.drop_zero, hdirective, hat, hroot, bind,
    Except.bind, ending_of_streamEnd hrest]
  rfl

end KeywordSieve.Yaml.Tokens

namespace KeywordSieve.Json

open Text Yaml Yaml.Tokens Yaml.Node

/-- The value of a word or number that is not too long. -/
def Simple.form (s : Simple) : Value :=
  match Form.ofPlain s.text with
  | .ok (.value v) => v
  | _ => .null

mutual

/-- The value that a JSON text has as YAML. Of several fields with one name the last counts. -/
def Written.value : Written → Value
  | .simple s => s.form
  | .string s => .text s.value
  | .array _ elements => .list elements.values
  | .object _ fields => .mapping (Value.setAll fields.pairs)

def Elements.values : Elements → List Value
  | .nil => []
  | .cons _ w _ more => w.value :: more.values

def Fields.pairs : Fields → List (Value × Value)
  | .nil => []
  | .cons name _ w _ more => (.text name.literal.value, w.value) :: more.pairs

end

theorem denotes_simple {s : Simple} {start : Mark} (hf : s.fits = true) :
    Denotes (scalar start (.plain s.text)) s.form := by
  obtain ⟨v, hv, -⟩ := s.exists_value hf
  apply denotes_scalar
  rw [Form.of, hv, Simple.form, hv]

theorem textOf_map (t : Text) : textOf (t.map Char.toNat) = .ok (.text t) := by
  have hn : ((t.map Char.toNat).any fun n => 0xd800 ≤ n && n < 0xe000) = false := by
    rw [List.any_eq_false]
    intro n hn
    obtain ⟨c, -, rfl⟩ := List.mem_map.1 hn
    have hc := Utf8.valid_toNat c
    simp only [Bool.and_eq_true, decide_eq_true_eq]
    omega
  have hm : (t.map Char.toNat).map Char.ofNat = t := by
    rw [List.map_map]
    exact (List.map_congr_left fun c _ => Char.ofNat_toNat c).trans (List.map_id t)
  rw [textOf, hn, hm]
  rfl

/-- No code of a string that fits is half of a character. -/
theorem Piece.exists_char (p : Piece) (hf : p.fits = true) : ∃ c : Char, c.toNat = p.number := by
  cases p with
  | plain c _ => exact ⟨c, rfl⟩
  | letter _ c _ => exact ⟨c, rfl⟩
  | code a b c d n h =>
    have hn := (Quoted.hexNumber_of_hexCode? h []).2
    apply Utf8.exists_toNat
    simp only [Piece.fits, Bool.not_eq_true', Bool.and_eq_false_iff, decide_eq_false_iff_not] at hf
    simp only [Piece.number]
    omega

theorem exists_chars (ps : List Piece) (hf : ∀ p ∈ ps, p.fits = true) :
    ∃ t : Text, t.map Char.toNat = ps.map Piece.number := by
  induction ps with
  | nil => exact ⟨[], rfl⟩
  | cons p ps ih =>
    rw [List.forall_mem_cons] at hf
    obtain ⟨c, hc⟩ := p.exists_char hf.1
    obtain ⟨t, ht⟩ := ih hf.2
    exact ⟨c :: t, by rw [List.map_cons, List.map_cons, hc, ht]⟩

theorem textOf_codes {s : Literal} (hf : s.fits = true) : textOf s.codes = .ok (.text s.value) := by
  obtain ⟨t, ht⟩ := exists_chars s.pieces (List.all_eq_true.1 hf)
  have hv := s.denotes
  rw [← ht, textOfCodes?_map] at hv
  cases hv
  rw [Literal.codes, ← ht, textOf_map]

theorem denotes_literal {s : Literal} {start : Mark} (hf : s.fits = true) :
    Denotes (scalar start (.verbatim s.codes)) (.text s.value) := by
  apply denotes_scalar
  rw [Form.of, textOf_codes hf]
  rfl

theorem Name.literal_fits {name : Name} (h : name.fits = true) : name.literal.fits = true := by
  simp only [Name.fits, Bool.and_eq_true] at h
  exact h.1.1.2

/-- The name of a field as a key. -/
theorem denotesEntry_literal {s : Literal} {n : Node} {v : Value} (m : Mark) (hf : s.fits = true)
    (hn : Denotes n v) :
    DenotesEntry (scalar m (.verbatim s.codes), n) (.text s.value, v) := by
  have hform : Form.of (.verbatim s.codes) = .ok (.value (.text s.value)) := by
    rw [Form.of, textOf_codes hf]
    rfl
  refine ⟨rfl, fun start => ?_, hn⟩
  simp only [keyValue, hform, scalarValue]

theorem Written.exists_kinds (w : Written) :
    ∃ k ks, w.kinds = k :: ks ∧ isOpening k = true := by
  cases w <;> exact ⟨_, _, rfl, rfl⟩

/-! A value and the parts of a collection are composed from their tokens. -/

variable {ts : List Token} {more : List Token.Kind} {most depth fuel deepest : Nat}

mutual

/-- The tokens of a value that fits compose a node that denotes it. -/
theorem Written.exists_node (w : Written) (hf : w.fits = true) {most depth : Nat}
    (position : Position) (hd : w.nesting ≤ depth) (hm : w.kinds.length ≤ most) {ts : List Token}
    {more : List Token.Kind} (hts : ts.map Token.kind = w.kinds ++ more) :
    ∃ n rest, node most depth position ts = .ok (n, rest) ∧ rest.map Token.kind = more ∧
      Denotes n w.value :=
  match w with
  | .simple s => by
    obtain ⟨t, rest, rfl, ht, hrest⟩ := List.map_eq_cons_iff.1 hts
    exact ⟨_, rest, node_scalar ht, hrest, denotes_simple hf⟩
  | .string s => by
    obtain ⟨t, rest, rfl, ht, hrest⟩ := List.map_eq_cons_iff.1 hts
    exact ⟨_, rest, node_scalar ht, hrest, denotes_literal hf⟩
  | .array gap elements => by
    rw [Written.fits, Bool.and_eq_true] at hf
    obtain ⟨depth, rfl⟩ := Nat.exists_eq_add_of_le' (Nat.le_trans (Nat.le_add_left 1 _) hd)
    rw [Written.nesting, Nat.add_le_add_iff_right] at hd
    simp only [Written.kinds, List.length_append, List.length_cons, List.length_nil] at hm
    rw [Written.kinds, List.append_assoc, List.append_assoc] at hts
    obtain ⟨t, rest, rfl, ht, hrest⟩ := List.map_eq_cons_iff.1 hts
    obtain ⟨items, rest', hitems, hrest', hdenotes⟩ := elements.exists_items hf.2 true t.start hd
      (show (elements.kinds true).length ≤ most by omega)
      (show (elements.kinds true).length < most by omega) hrest
    exact ⟨_, rest', node_sequence ht hitems, hrest', denotes_sequence hdenotes⟩
  | .object gap fields => by
    rw [Written.fits, Bool.and_eq_true] at hf
    obtain ⟨depth, rfl⟩ := Nat.exists_eq_add_of_le' (Nat.le_trans (Nat.le_add_left 1 _) hd)
    rw [Written.nesting, Nat.add_le_add_iff_right] at hd
    simp only [Written.kinds, List.length_append, List.length_cons, List.length_nil] at hm
    rw [Written.kinds, List.append_assoc, List.append_assoc] at hts
    obtain ⟨t, rest, rfl, ht, hrest⟩ := List.map_eq_cons_iff.1 hts
    obtain ⟨entries, rest', hentries, hrest', hdenotes⟩ := fields.exists_entries hf.2 true t.start
      hd (show (fields.kinds true).length ≤ most by omega)
      (show (fields.kinds true).length < most by omega) hrest
    exact ⟨_, rest', node_mapping ht hentries, hrest', denotes_mapping hdenotes⟩

theorem Elements.exists_items (elements : Elements) (hf : elements.fits = true)
    {most depth fuel : Nat} (first : Bool) (start : Mark) (hd : elements.nesting ≤ depth)
    (hm : (elements.kinds first).length ≤ most) (hfuel : (elements.kinds first).length < fuel)
    {ts : List Token} {more : List Token.Kind}
    (hts : ts.map Token.kind = elements.kinds first ++ ([.flowSequenceEnd] ++ more)) :
    ∃ items rest, (∀ readPart, flowItems start (node most depth .flow) readPart first fuel ts =
      .ok (items, rest)) ∧ rest.map Token.kind = more ∧
      List.Forall₂ Denotes items elements.values :=
  match elements with
  | .nil => by
    obtain ⟨fuel, rfl⟩ := Nat.exists_eq_add_of_le' (Nat.lt_of_le_of_lt (Nat.zero_le _) hfuel)
    obtain ⟨t, rest, hp, hrest⟩ := exists_pass hts
    refine ⟨[], rest, fun readPart => ?_, hrest, .nil⟩
    rw [flowItems, hp]
  | .cons before w after others => by
    simp only [Elements.fits, Bool.and_eq_true] at hf
    obtain ⟨⟨⟨-, hw⟩, -⟩, hothers⟩ := hf
    rw [Elements.nesting, Nat.max_le] at hd
    obtain ⟨fuel, rfl⟩ := Nat.exists_eq_add_of_le' (Nat.lt_of_le_of_lt (Nat.zero_le _) hfuel)
    obtain ⟨k, ks, hk, hopening⟩ := w.exists_kinds
    simp only [Elements.kinds, List.length_append] at hm hfuel
    have hone : 1 ≤ w.kinds.length := by simp [hk]
    have hts' : ts.map Token.kind = commaKinds first ++ k :: (ks ++ (others.kinds false ++
        ([.flowSequenceEnd] ++ more))) := by
      rw [hts, Elements.kinds, hk]
      simp
    obtain ⟨ts', hkinds, hstep⟩ := flowItems_cons hts' hopening start
    obtain ⟨n, rest, hn, hrest, hdenotes⟩ := w.exists_node hw .flow hd.1
      (show w.kinds.length ≤ most by omega) (hkinds.trans (by rw [hk]; rfl))
    obtain ⟨items, rest', hitems, hrest', hall⟩ := others.exists_items hothers false start hd.2
      (show (others.kinds false).length ≤ most by omega)
      (show (others.kinds false).length < fuel by omega) hrest
    refine ⟨n :: items, rest', fun readPart => ?_, hrest', .cons hdenotes hall⟩
    rw [hstep, hn]
    simp only [bind, Except.bind, hitems]
    rfl

theorem Fields.exists_entries (fields : Fields) (hf : fields.fits = true)
    {most depth fuel : Nat} (first : Bool) (start : Mark) (hd : fields.nesting ≤ depth)
    (hm : (fields.kinds first).length ≤ most) (hfuel : (fields.kinds first).length < fuel)
    {ts : List Token} {more : List Token.Kind}
    (hts : ts.map Token.kind = fields.kinds first ++ ([.flowMappingEnd] ++ more)) :
    ∃ entries rest, flowEntries start (node most depth .flow) first fuel ts =
      .ok (entries, rest) ∧ rest.map Token.kind = more ∧
      List.Forall₂ DenotesEntry entries fields.pairs :=
  match fields with
  | .nil => by
    obtain ⟨fuel, rfl⟩ := Nat.exists_eq_add_of_le' (Nat.lt_of_le_of_lt (Nat.zero_le _) hfuel)
    obtain ⟨t, rest, hp, hrest⟩ := exists_pass hts
    refine ⟨[], rest, ?_, hrest, .nil⟩
    rw [flowEntries, hp]
  | .cons name before w after others => by
    simp only [Fields.fits, Bool.and_eq_true] at hf
    obtain ⟨⟨⟨⟨hname, -⟩, hw⟩, -⟩, hothers⟩ := hf
    rw [Fields.nesting, Nat.max_le] at hd
    obtain ⟨fuel, rfl⟩ := Nat.exists_eq_add_of_le' (Nat.lt_of_le_of_lt (Nat.zero_le _) hfuel)
    obtain ⟨k, ks, hk, hopening⟩ := w.exists_kinds
    simp only [Fields.kinds, List.length_append, List.length_cons] at hm hfuel
    have hts' : ts.map Token.kind = commaKinds first ++ .key ::
        .scalar (.verbatim name.literal.codes) :: .value :: k :: (ks ++ (others.kinds false ++
          ([.flowMappingEnd] ++ more))) := by
      rw [hts, Fields.kinds, hk]
      simp
    obtain ⟨m, ts', hkinds, hstep⟩ := flowEntries_cons hts' hopening start
    obtain ⟨n, rest, hn, hrest, hdenotes⟩ := w.exists_node hw .flow hd.1
      (show w.kinds.length ≤ most by omega) (hkinds.trans (by rw [hk]; rfl))
    obtain ⟨entries, rest', hentries, hrest', hall⟩ := others.exists_entries hothers false start
      hd.2 (show (others.kinds false).length ≤ most by omega)
      (show (others.kinds false).length < fuel by omega) hrest
    refine ⟨_, rest', ?_, hrest', .cons (denotesEntry_literal m (Name.literal_fits hname) hdenotes)
      hall⟩
    rw [hstep, hn]
    simp only [bind, Except.bind, hentries]
    rfl

end

/-- A text that fits and holds no tab is read as YAML as the value of its array or object. -/
theorem Whole.read (w : Whole) (hf : w.fits deepest = true) (hc : w.root.isCollection = true)
    (ht : '\t' ∉ w.text) : Yaml.read deepest w.text = .ok w.root.value := by
  obtain ⟨ts, htokens, hkinds⟩ := Lexer.exists_tokens fun _ h => (w.meets hf hc h).passes ht
  have hroot : w.root.fits = true ∧ w.root.nesting ≤ deepest := by
    simp only [Whole.fits, Bool.and_eq_true, decide_eq_true_eq] at hf
    exact ⟨hf.1.1.2, hf.2⟩
  have hmost : w.root.kinds.length ≤ ts.length + 1 := by
    have hlength := congrArg List.length hkinds
    simp only [List.length_map, List.length_append] at hlength
    omega
  obtain ⟨n, rest, hn, hrest, hdenotes⟩ :=
    w.root.exists_node hroot.1 .block hroot.2 hmost hkinds
  obtain ⟨k, ks, hk, hopening⟩ := w.root.exists_kinds
  rw [hk, List.cons_append] at hkinds
  have htree : Node.ofTokens? deepest (tokens w.text) = .ok (some n) := by
    rw [htokens]
    exact ofTokens?_of_root hkinds hopening hn hrest
  rw [Yaml.read, unprintable?_of_isClean deepest (w.isClean hf)]
  simp only [htree, bind, Except.bind, hdenotes.value]

mutual

theorem Written.streamEnd_not_mem (w : Written) : .streamEnd ∉ w.kinds :=
  match w with
  | .simple _ => by simp [Written.kinds]
  | .string _ => by simp [Written.kinds]
  | .array _ elements => by simp [Written.kinds, elements.streamEnd_not_mem true]
  | .object _ fields => by simp [Written.kinds, fields.streamEnd_not_mem true]

theorem Elements.streamEnd_not_mem (elements : Elements) (first : Bool) :
    .streamEnd ∉ elements.kinds first :=
  match elements with
  | .nil => List.not_mem_nil
  | .cons _ w _ more => by
    cases first <;>
      simp [Elements.kinds, commaKinds, w.streamEnd_not_mem, more.streamEnd_not_mem false]

theorem Fields.streamEnd_not_mem (fields : Fields) (first : Bool) :
    .streamEnd ∉ fields.kinds first :=
  match fields with
  | .nil => List.not_mem_nil
  | .cons _ _ w _ more => by
    cases first <;>
      simp [Fields.kinds, commaKinds, w.streamEnd_not_mem, more.streamEnd_not_mem false]

end

/-- A text that holds a tab is not read, wherever between its parts the tab is. -/
theorem Whole.exists_failure (w : Whole) (hf : w.fits deepest = true)
    (hc : w.root.isCollection = true) (ht : '\t' ∈ w.text) :
    ∃ f, Yaml.read deepest w.text = .error f := by
  obtain ⟨out, last, mark, htokens, hlast, hout⟩ :=
    Lexer.exists_broken fun _ h => (w.meets hf hc h).sticks ht
  apply Yaml.exists_failure
  rw [htokens, List.forall_mem_cons, List.forall_mem_append, List.forall_mem_singleton, hlast]
  refine ⟨nofun, fun token hm hk => ?_, nofun⟩
  have hkind : token.kind ∈ w.root.kinds := hout.subset (List.mem_map_of_mem hm)
  rw [hk] at hkind
  exact w.root.streamEnd_not_mem hkind

end KeywordSieve.Json
