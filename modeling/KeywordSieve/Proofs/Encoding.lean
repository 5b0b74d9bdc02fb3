import KeywordSieve.Proofs.Undecodable

/-!
The bytes of a text. Decoding accepts the bytes that encode some text and no others, and gives that
text. A character is decoded byte by byte: its first byte tells how many follow, and with the second
one it is certain that the form is the shortest one and that the code point is that of a character.
-/
namespace KeywordSieve.Utf8

variable {position n : Nat} {b : UInt8} {bytes tail rest : List UInt8} {p : Pending} {t : Text}
  {c : Char}

def encode (t : Text) : List UInt8 := t.flatMap String.utf8EncodeChar

theorem encode_cons (c : Char) (t : Text) : encode (c :: t) = String.utf8EncodeChar c ++ encode t :=
  rfl

/-- What the first byte of a character promises, and the range that it leaves to the second one. -/
inductive Leads (b : UInt8) (p : Pending) : Prop
  | two : 0xc2 ≤ b.toNat → b.toNat < 0xe0 → p.missing = 1 → p.bits = b.toNat - 0xc0 →
    p.low.toNat = 0x80 → p.high.toNat = 0xbf → Leads b p
  | three : 0xe0 ≤ b.toNat → b.toNat < 0xf0 → p.missing = 2 → p.bits = b.toNat - 0xe0 →
    (b.toNat = 0xe0 ∧ p.low.toNat = 0xa0 ∨ b.toNat ≠ 0xe0 ∧ p.low.toNat = 0x80) →
    (b.toNat = 0xed ∧ p.high.toNat = 0x9f ∨ b.toNat ≠ 0xed ∧ p.high.toNat = 0xbf) → Leads b p
  | four : 0xf0 ≤ b.toNat → b.toNat < 0xf5 → p.missing = 3 → p.bits = b.toNat - 0xf0 →
    (b.toNat = 0xf0 ∧ p.low.toNat = 0x90 ∨ b.toNat ≠ 0xf0 ∧ p.low.toNat = 0x80) →
    (b.toNat = 0xf4 ∧ p.high.toNat = 0x8f ∨ b.toNat ≠ 0xf4 ∧ p.high.toNat = 0xbf) → Leads b p

/-- The bytes that are missing from a sequence that has begun, and the number that all bits make. -/
inductive Completes : Pending → List UInt8 → Nat → Prop
  | last {p : Pending} {b : UInt8} {n : Nat} : p.missing = 1 → p.low.toNat ≤ b.toNat →
    b.toNat ≤ p.high.toNat → (p.extend b).bits = n → Completes p [b] n
  | more {p : Pending} {b : UInt8} {tail : List UInt8} {n : Nat} : p.missing ≠ 1 →
    p.low.toNat ≤ b.toNat → b.toNat ≤ p.high.toNat → Completes (p.extend b) tail n →
    Completes p (b :: tail) n

section

variable (p : Pending) (b : UInt8)

theorem bytes_extend : (p.extend b).bytes ≠ [] := List.concat_ne_nil b p.bytes

theorem bits_extend : (p.extend b).bits = p.bits * 0x40 + b.toNat % 0x40 := rfl

theorem missing_extend : (p.extend b).missing = p.missing - 1 := rfl

theorem low_extend : (p.extend b).low.toNat = 0x80 := rfl

theorem high_extend : (p.extend b).high.toNat = 0xbf := rfl

end

theorem begin?_cases (b : UInt8) :
    (b.toNat < 0xc2 ∨ 0xf5 ≤ b.toNat) ∧ begin? b = none ∨
      ∃ p, begin? b = some p ∧ p.bytes = [b] ∧ Leads b p := by
  have he : ∀ k : UInt8, b = k ↔ b.toNat = k.toNat := fun k => UInt8.toNat_inj.symm
  simp only [begin?, UInt8.lt_iff_toNat_lt, he, UInt8.reduceToNat]
  split_ifs
  · exact Or.inl ⟨by omega, rfl⟩
  · exact Or.inr ⟨_, rfl, rfl, .two (by omega) (by omega) rfl (by dsimp only; omega) rfl rfl⟩
  · exact Or.inr ⟨_, rfl, rfl, .three (by omega) (by omega) rfl (by dsimp only; omega)
      (.inl ⟨‹_›, rfl⟩) (.inr ⟨by omega, rfl⟩)⟩
  · exact Or.inr ⟨_, rfl, rfl, .three (by omega) (by omega) rfl (by dsimp only; omega)
      (.inr ⟨by omega, rfl⟩) (.inl ⟨‹_›, rfl⟩)⟩
  · exact Or.inr ⟨_, rfl, rfl, .three (by omega) (by omega) rfl (by dsimp only; omega)
      (.inr ⟨by omega, rfl⟩) (.inr ⟨by omega, rfl⟩)⟩
  · exact Or.inr ⟨_, rfl, rfl, .four (by omega) (by omega) rfl (by dsimp only; omega)
      (.inl ⟨‹_›, rfl⟩) (.inr ⟨by omega, rfl⟩)⟩
  · exact Or.inr ⟨_, rfl, rfl, .four (by omega) (by omega) rfl (by dsimp only; omega)
      (.inr ⟨by omega, rfl⟩) (.inr ⟨by omega, rfl⟩)⟩
  · exact Or.inr ⟨_, rfl, rfl, .four (by omega) (by omega) rfl (by dsimp only; omega)
      (.inr ⟨by omega, rfl⟩) (.inl ⟨‹_›, rfl⟩)⟩
  · exact Or.inl ⟨by omega, rfl⟩

theorem decodeFrom_ascii (hb : b.toNat < 0x80) : decodeFrom position none (b :: rest) =
    (fun (t, held) => (Char.ofNat b.toNat :: t, held)) <$> decodeFrom (position + 1) none rest := by
  have hlt : b < 0x80 := UInt8.lt_iff_toNat_lt.2 hb
  rw [decodeFrom, if_pos hlt]

theorem decodeFrom_begin (hb : 0x80 ≤ b.toNat) : decodeFrom position none (b :: rest) =
    match begin? b with
    | some p => decodeFrom (position + 1) (some p) rest
    | none => .error { byte := b, position, length := 1, cause := .start } := by
  have hlt : ¬ b < 0x80 := by
    rw [UInt8.lt_iff_toNat_lt]
    exact Nat.not_lt.2 hb
  rw [decodeFrom]
  exact if_neg hlt

/-- A byte in the range that is left to it continues the sequence, or ends it with its character. -/
theorem decodeFrom_next (hl : p.low.toNat ≤ b.toNat) (hu : b.toNat ≤ p.high.toNat) :
    decodeFrom position (some p) (b :: rest) =
      if p.missing = 1 then
        (fun (t, held) => (Char.ofNat (p.extend b).bits :: t, held)) <$>
          decodeFrom (position + 1) none rest
      else decodeFrom (position + 1) (some (p.extend b)) rest := by
  have hb : ¬ (b < p.low ∨ p.high < b) := by
    simp only [UInt8.lt_iff_toNat_lt]
    omega
  rw [decodeFrom, if_neg hb]

/-- A sequence that is completed becomes its character, whatever follows it. -/
theorem decodeFrom_completes (h : Completes p tail n) (position : Nat) (rest : List UInt8) :
    decodeFrom position (some p) (tail ++ rest) =
      (fun (t, held) => (Char.ofNat n :: t, held)) <$>
        decodeFrom (position + tail.length) none rest := by
  induction h generalizing position with
  | last hm hl hu hn =>
    rw [List.cons_append, decodeFrom_next hl hu, if_pos hm, hn]
    rfl
  | more hm hl hu _ ih =>
    rw [List.cons_append, decodeFrom_next hl hu, if_neg hm, ih, List.length_cons, Nat.add_assoc,
      Nat.add_comm 1]

/-- Nothing is held back at the end only if a sequence that has begun is completed. -/
theorem exists_completes (hp : p.bytes ≠ [])
    (h : decodeFrom position (some p) bytes = .ok (t, [])) :
    ∃ tail n rest, bytes = tail ++ rest ∧ Completes p tail n := by
  induction bytes generalizing position p with
  | nil =>
    rw [decodeFrom, Except.ok.injEq, Prod.mk.injEq] at h
    exact absurd h.2 hp
  | cons b bytes ih =>
    by_cases hb : b < p.low ∨ p.high < b
    · rw [decodeFrom, if_pos hb] at h
      split at h
      · simp at h
      · cases h
    · simp only [UInt8.lt_iff_toNat_lt, not_or, Nat.not_lt] at hb
      by_cases hm : p.missing = 1
      · exact ⟨[b], _, bytes, rfl, .last hm hb.1 hb.2 rfl⟩
      · rw [decodeFrom_next hb.1 hb.2, if_neg hm] at h
        obtain ⟨tail, n, rest, rfl, hc⟩ := ih (bytes_extend p b) h
        exact ⟨b :: tail, n, rest, rfl, .more hm hb.1 hb.2 hc⟩

theorem Completes.eq_last (h : Completes p tail n) (hm : p.missing = 1) :
    ∃ b, tail = [b] ∧ p.low.toNat ≤ b.toNat ∧ b.toNat ≤ p.high.toNat ∧
      p.bits * 0x40 + b.toNat % 0x40 = n := by
  cases h with
  | last _ hl hu hn => exact ⟨_, rfl, hl, hu, hn⟩
  | more hm' => exact absurd hm hm'

theorem Completes.eq_more (h : Completes p tail n) (hm : p.missing ≠ 1) :
    ∃ b rest, tail = b :: rest ∧ p.low.toNat ≤ b.toNat ∧ b.toNat ≤ p.high.toNat ∧
      Completes (p.extend b) rest n := by
  cases h with
  | last hm' => exact absurd hm' hm
  | more _ hl hu hr => exact ⟨_, _, rfl, hl, hu, hr⟩

/-- Behind the second byte of a sequence no range but the general one is left. -/
theorem Completes.extend_last {d : UInt8} (hm : (p.extend b).missing = 1)
    (hd : 0x80 ≤ d.toNat ∧ d.toNat ≤ 0xbf) (hn : ((p.extend b).extend d).bits = n) :
    Completes (p.extend b) [d] n := by
  refine .last hm ?_ ?_ hn
  · rw [low_extend]
    exact hd.1
  · rw [high_extend]
    exact hd.2

theorem Completes.extend_more {d : UInt8} (hm : (p.extend b).missing ≠ 1)
    (hd : 0x80 ≤ d.toNat ∧ d.toNat ≤ 0xbf) (ht : Completes ((p.extend b).extend d) tail n) :
    Completes (p.extend b) (d :: tail) n := by
  refine .more hm ?_ ?_ ht
  · rw [low_extend]
    exact hd.1
  · rw [high_extend]
    exact hd.2

theorem exists_toNat (h : n < 0xd800 ∨ 0xdfff < n ∧ n < 0x110000) : ∃ c : Char, c.toNat = n := by
  refine ⟨Char.ofNat n, ?_⟩
  rw [Char.ofNat, dif_pos h]
  rfl

theorem ofNat_eq (h : n = b.toNat) : UInt8.ofNat n = b := by
  subst h
  exact UInt8.ofNat_toNat

/-- A sequence that is completed encodes a character. -/
theorem Leads.exists_char (hp : Leads b p) (h : Completes p tail n) :
    ∃ c, String.utf8EncodeChar c = b :: tail := by
  simp only [String.utf8EncodeChar, Char.toNat_val]
  cases hp with
  | two hl hu hm hbits hlow hhigh =>
    obtain ⟨b1, rfl, hl1, hu1, hn⟩ := h.eq_last hm
    obtain ⟨c, hc⟩ := exists_toNat (n := n) (by omega)
    refine ⟨c, ?_⟩
    rw [if_neg (by omega), if_pos (by omega), ofNat_eq (b := b) (by omega),
      ofNat_eq (b := b1) (by omega)]
  | three hl hu hm hbits hlow hhigh =>
    obtain ⟨b1, rest, rfl, hl1, hu1, h⟩ := h.eq_more (by omega)
    obtain ⟨b2, rfl, hl2, hu2, hn⟩ := h.eq_last (by rw [missing_extend, hm])
    rw [bits_extend] at hn
    rw [low_extend] at hl2
    rw [high_extend] at hu2
    obtain ⟨c, hc⟩ := exists_toNat (n := n) (by omega)
    refine ⟨c, ?_⟩
    rw [if_neg (by omega), if_neg (by omega), if_pos (by omega), ofNat_eq (b := b) (by omega),
      ofNat_eq (b := b1) (by omega), ofNat_eq (b := b2) (by omega)]
  | four hl hu hm hbits hlow hhigh =>
    obtain ⟨b1, rest, rfl, hl1, hu1, h⟩ := h.eq_more (by omega)
    obtain ⟨b2, rest, rfl, hl2, hu2, h⟩ := h.eq_more (by rw [missing_extend]; omega)
    obtain ⟨b3, rfl, hl3, hu3, hn⟩ := h.eq_last (by rw [missing_extend, missing_extend, hm])
    rw [bits_extend, bits_extend] at hn
    rw [low_extend] at hl2 hl3
    rw [high_extend] at hu2 hu3
    obtain ⟨c, hc⟩ := exists_toNat (n := n) (by omega)
    refine ⟨c, ?_⟩
    rw [if_neg (by omega), if_neg (by omega), if_neg (by omega), ofNat_eq (b := b) (by omega),
      ofNat_eq (b := b1) (by omega), ofNat_eq (b := b2) (by omega), ofNat_eq (b := b3) (by omega)]

theorem valid_toNat (c : Char) : c.toNat < 0xd800 ∨ 0xdfff < c.toNat ∧ c.toNat < 0x110000 := c.valid

theorem toNat_ofNat (h : n < 0x100) : (UInt8.ofNat n).toNat = n := Nat.mod_eq_of_lt h

/-- A character beyond ASCII is encoded by a sequence that is begun and completed. -/
theorem exists_leads (h : 0x80 ≤ c.toNat) : ∃ b tail, String.utf8EncodeChar c = b :: tail ∧
    (0xc2 ≤ b.toNat ∧ b.toNat < 0xf5) ∧ ∀ p, Leads b p → Completes p tail c.toNat := by
  have hv := valid_toNat c
  have h1 := toNat_ofNat (n := c.toNat % 64 + 128) (by omega)
  have h2 := toNat_ofNat (n := c.toNat / 64 % 64 + 128) (by omega)
  have h3 := toNat_ofNat (n := c.toNat / 4096 % 64 + 128) (by omega)
  simp only [String.utf8EncodeChar, Char.toNat_val]
  rw [if_neg (by omega)]
  split
  · have hb := toNat_ofNat (n := c.toNat / 64 % 32 + 192) (by omega)
    refine ⟨_, _, rfl, by omega, ?_⟩
    intro p hp
    cases hp with
    | two hl hu hm hbits hlow hhigh =>
      refine .last hm (by omega) (by omega) ?_
      rw [bits_extend]
      omega
    | three => omega
    | four => omega
  split
  · have hb := toNat_ofNat (n := c.toNat / 4096 % 16 + 224) (by omega)
    refine ⟨_, _, rfl, by omega, ?_⟩
    intro p hp
    cases hp with
    | two => omega
    | three hl hu hm hbits hlow hhigh =>
      refine .more (by omega) (by omega) (by omega) (.extend_last ?_ (by omega) ?_)
      · rw [missing_extend, hm]
      · rw [bits_extend, bits_extend]
        omega
    | four => omega
  · have hb := toNat_ofNat (n := c.toNat / 262144 % 8 + 240) (by omega)
    refine ⟨_, _, rfl, by omega, ?_⟩
    intro p hp
    cases hp with
    | two => omega
    | three => omega
    | four hl hu hm hbits hlow hhigh =>
      refine .more (by omega) (by omega) (by omega)
        (.extend_more ?_ (by omega) (.extend_last ?_ (by omega) ?_))
      · rw [missing_extend]
        omega
      · rw [missing_extend, missing_extend, hm]
      · rw [bits_extend, bits_extend, bits_extend]
        omega

/-- The bytes of a character are decoded to it, whatever follows them. -/
theorem decodeFrom_char (position : Nat) (c : Char) (rest : List UInt8) :
    ∃ next, decodeFrom position none (String.utf8EncodeChar c ++ rest) =
      (fun (t, held) => (c :: t, held)) <$> decodeFrom next none rest := by
  by_cases h : c.toNat < 0x80
  · have hc : String.utf8EncodeChar c = [UInt8.ofNat c.toNat] := by
      simp only [String.utf8EncodeChar, Char.toNat_val]
      rw [if_pos (by omega)]
    have hb := toNat_ofNat (n := c.toNat) (by omega)
    refine ⟨position + 1, ?_⟩
    rw [hc, List.cons_append, decodeFrom_ascii (by omega), hb, Char.ofNat_toNat]
    rfl
  · obtain ⟨b, tail, hc, hb, hp⟩ := exists_leads (Nat.not_lt.1 h)
    rcases begin?_cases b with ⟨hn, -⟩ | ⟨p, hbegin, -, hlead⟩
    · omega
    · refine ⟨position + 1 + tail.length, ?_⟩
      rw [hc, List.cons_append, decodeFrom_begin (by omega), hbegin]
      exact (decodeFrom_completes (hp p hlead) _ rest).trans (by rw [Char.ofNat_toNat])

/-- Bytes that are decoded begin with those of a character. -/
theorem exists_char (h : decodeFrom position none (b :: bytes) = .ok (t, [])) :
    ∃ c rest, b :: bytes = String.utf8EncodeChar c ++ rest := by
  by_cases hb : b.toNat < 0x80
  · obtain ⟨c, hc⟩ := exists_toNat (n := b.toNat) (by omega)
    refine ⟨c, bytes, ?_⟩
    simp only [String.utf8EncodeChar, Char.toNat_val]
    rw [if_pos (by omega), ofNat_eq hc]
    rfl
  · rw [decodeFrom_begin (Nat.not_lt.1 hb)] at h
    rcases begin?_cases b with ⟨-, hn⟩ | ⟨p, hbegin, hbytes, hlead⟩
    · rw [hn] at h
      cases h
    · rw [hbegin] at h
      obtain ⟨tail, n, rest, rfl, hc⟩ := exists_completes (by simp [hbytes]) h
      obtain ⟨c, hchar⟩ := hlead.exists_char hc
      exact ⟨c, rest, by rw [hchar, List.cons_append]⟩

/-- What encodes a text is decoded as that text. -/
theorem decodeFrom_encode (position : Nat) (t : Text) :
    decodeFrom position none (encode t) = .ok (t, []) := by
  induction t generalizing position with
  | nil => rfl
  | cons c t ih =>
    obtain ⟨next, hd⟩ := decodeFrom_char position c (encode t)
    rw [encode_cons, hd, ih]
    rfl

/-- Nothing else is decoded. -/
theorem eq_encode (h : decodeFrom position none bytes = .ok (t, [])) : bytes = encode t := by
  induction hn : bytes.length using Nat.strongRecOn generalizing position bytes t with
  | ind n ih =>
    cases bytes with
    | nil =>
      cases h
      rfl
    | cons b bytes =>
      obtain ⟨c, rest, hb⟩ := exists_char h
      obtain ⟨next, hd⟩ := decodeFrom_char position c rest
      rw [hb, hd] at h
      obtain ⟨t, rfl, hr⟩ := decodeFrom_cons h
      have hlength : rest.length < n := by
        have hc := String.length_utf8EncodeChar c
        have hpos := Char.utf8Size_pos c
        rw [hb, List.length_append] at hn
        omega
      rw [hb, encode_cons, ih _ hlength hr rfl]

/-- Exactly the bytes of a text are decoded, and to that text. -/
theorem decode?_eq_some : decode? bytes = some t ↔ bytes = encode t := by
  rw [decode?, decodePart]
  constructor
  · intro h
    split at h
    · next hd =>
      cases h
      exact eq_encode hd
    · cases h
  · rintro rfl
    rw [decodeFrom_encode]

end KeywordSieve.Utf8
