import KeywordSieve.Yaml.Value
import KeywordSieve.Proofs.Success

/-!
What the readers of tokens leave. It is always the end of what they were given, so the one that reads
a document sees the end of the stream only behind everything else. Where the tokens break off there
is no such end, and nothing is read from them.
-/
namespace KeywordSieve.Yaml

namespace Tokens

variable {α : Type} {kind : Token.Kind} {stops : List Token.Kind} {t : Token}
  {ts rest : List Token} {mark start : Mark} {read readPart : Reader Node} {most depth fuel deepest : Nat}
  {position : Position}

/-- What a reader leaves is the end of what it was given. -/
def Leaves (read : Reader α) : Prop := ∀ ts a rest, read ts = .ok (a, rest) → rest <:+ ts

theorem refuse_ne_ok {context : Option (Context × Option Mark)} {problem : Text → Problem} {a : α} :
    refuse context problem ts ≠ .ok a := by
  cases ts with
  | nil => exact nofun
  | cons t ts =>
    rw [refuse]
    split <;> exact nofun

theorem pass?_suffix (h : pass? kind ts = some (t, rest)) : rest <:+ ts := by
  cases ts with
  | nil => cases h
  | cons u ts =>
    rw [pass?] at h
    split at h
    · cases h
      exact List.suffix_cons _ _
    · cases h

theorem leaves_orEmpty (hr : Leaves read) (stops : List Token.Kind) (mark : Mark) :
    Leaves (orEmpty stops mark read) := by
  intro ts n rest h
  rw [orEmpty] at h
  split at h
  · cases h
    exact List.suffix_refl _
  · exact hr _ _ _ h

theorem leaves_valueOf (hr : Leaves read) (stops : List Token.Kind) :
    Leaves (valueOf stops read) := by
  intro ts n rest h
  rw [valueOf] at h
  split at h
  · next hp => exact (leaves_orEmpty hr _ _ _ _ _ h).trans (pass?_suffix hp)
  · cases h
    exact List.suffix_refl _

theorem leaves_blockItems (hr : Leaves read) (indented : Bool) (start : Mark) (fuel : Nat) :
    Leaves (blockItems indented start read fuel) := by
  induction fuel with
  | zero =>
    rintro ts _ _ ⟨⟩
    exact List.suffix_refl _
  | succ fuel ih =>
    intro ts items rest h
    rw [blockItems] at h
    split at h
    · next hp =>
      simp only [bind_eq_ok] at h
      obtain ⟨⟨n, rest₁⟩, hn, ⟨items₁, rest₂⟩, hitems, h⟩ := h
      cases h
      exact (ih _ _ _ hitems).trans ((leaves_orEmpty hr _ _ _ _ _ hn).trans (pass?_suffix hp))
    · split at h
      · split at h
        · next hp =>
          cases h
          exact pass?_suffix hp
        · exact absurd h refuse_ne_ok
      · cases h
        exact List.suffix_refl _

theorem leaves_blockEntries (hr : Leaves read) (start : Mark) (fuel : Nat) :
    Leaves (blockEntries start read fuel) := by
  induction fuel with
  | zero =>
    rintro ts _ _ ⟨⟩
    exact List.suffix_refl _
  | succ fuel ih =>
    intro ts entries rest h
    rw [blockEntries] at h
    dsimp only at h
    split at h
    · next hp =>
      simp only [bind_eq_ok] at h
      obtain ⟨⟨key, rest₁⟩, hkey, ⟨value, rest₂⟩, hvalue, ⟨entries₁, rest₃⟩, hentries, h⟩ := h
      cases h
      exact (ih _ _ _ hentries).trans ((leaves_valueOf hr _ _ _ _ hvalue).trans
        ((leaves_orEmpty hr _ _ _ _ _ hkey).trans (pass?_suffix hp)))
    · next hp =>
      cases h
      exact pass?_suffix hp
    · exact absurd h refuse_ne_ok

theorem comma_suffix {first : Bool} {context : Context} {problem : Text → Problem}
    (h : comma first context start problem ts = .ok rest) : rest <:+ ts := by
  rw [comma] at h
  split at h
  · cases h
    exact List.suffix_refl _
  · split at h
    · next hp =>
      cases h
      exact pass?_suffix hp
    · exact absurd h refuse_ne_ok

theorem leaves_flowItems (hr : Leaves read) (hp : Leaves readPart) (start : Mark) (first : Bool)
    (fuel : Nat) : Leaves (flowItems start read readPart first fuel) := by
  induction fuel generalizing first with
  | zero =>
    rintro ts _ _ ⟨⟩
    exact List.suffix_refl _
  | succ fuel ih =>
    intro ts items rest h
    rw [flowItems] at h
    split at h
    · next hend =>
      cases h
      exact pass?_suffix hend
    · obtain ⟨ts', hcomma, h⟩ := bind_eq_ok.1 h
      refine List.IsSuffix.trans ?_ (comma_suffix hcomma)
      split at h
      · next hend =>
        cases h
        exact pass?_suffix hend
      · next hkey =>
        simp only [bind_eq_ok] at h
        obtain ⟨⟨key, rest₁⟩, hk, ⟨value, rest₂⟩, hvalue, ⟨items₁, rest₃⟩, hitems, h⟩ := h
        cases h
        exact (ih _ _ _ _ hitems).trans ((leaves_valueOf hp _ _ _ _ hvalue).trans
          ((leaves_orEmpty hp _ _ _ _ _ hk).trans (pass?_suffix hkey)))
      · simp only [bind_eq_ok] at h
        obtain ⟨⟨n, rest₁⟩, hn, ⟨items₁, rest₂⟩, hitems, h⟩ := h
        cases h
        exact (ih _ _ _ _ hitems).trans (hr _ _ _ hn)

theorem leaves_flowEntries (hr : Leaves read) (start : Mark) (first : Bool) (fuel : Nat) :
    Leaves (flowEntries start read first fuel) := by
  induction fuel generalizing first with
  | zero =>
    rintro ts _ _ ⟨⟩
    exact List.suffix_refl _
  | succ fuel ih =>
    intro ts entries rest h
    rw [flowEntries] at h
    split at h
    · next hend =>
      cases h
      exact pass?_suffix hend
    · obtain ⟨ts', hcomma, h⟩ := bind_eq_ok.1 h
      refine List.IsSuffix.trans ?_ (comma_suffix hcomma)
      split at h
      · next hend =>
        cases h
        exact pass?_suffix hend
      · next hkey =>
        simp only [bind_eq_ok] at h
        obtain ⟨⟨key, rest₁⟩, hk, ⟨value, rest₂⟩, hvalue, ⟨entries₁, rest₃⟩, hentries, h⟩ := h
        cases h
        exact (ih _ _ _ _ hentries).trans ((leaves_valueOf hr _ _ _ _ hvalue).trans
          ((leaves_orEmpty hr _ _ _ _ _ hk).trans (pass?_suffix hkey)))
      · simp only [bind_eq_ok] at h
        obtain ⟨⟨key, rest₁⟩, hk, ⟨entries₁, rest₂⟩, hentries, h⟩ := h
        cases h
        exact (ih _ _ _ _ hentries).trans (hr _ _ _ hk)

theorem leaves_tooDeep : Leaves tooDeep := by
  intro ts n rest h
  unfold tooDeep at h
  split at h
  · cases h
    exact List.suffix_cons _ _
  · cases h

theorem suffix_of_parts {read : Reader α} {make : α → Node} {n : Node} (hr : Leaves read)
    (h : (read ts >>= fun p => pure (make p.1, p.2)) = .ok (n, rest)) : rest <:+ ts := by
  obtain ⟨p, hp, h⟩ := bind_eq_ok.1 h
  cases h
  exact hr _ _ _ hp

/-- By induction on the depth and on the fuel: no reader of nodes goes back. -/
theorem leaves_node (most depth : Nat) (position : Position) :
    Leaves (node most depth position) := by
  -- the parts of a pair in a list are nested two levels below the list
  induction depth using Nat.strongRecOn generalizing position with
  | _ depth ih =>
    cases depth with
    | zero =>
      rw [show node most 0 position = tooDeep from funext fun _ => by rw [node]]
      exact leaves_tooDeep
    | succ depth =>
      have hread : ∀ position, Leaves (node most depth position) := ih depth (Nat.lt_succ_self _)
      intro ts n rest h
      rw [node.eq_def] at h
      dsimp only at h
      split at h
      · exact absurd h refuse_ne_ok
      · next t ts =>
        have hbehind : ts <:+ t :: ts := List.suffix_cons t ts
        split at h
        · cases h
          exact hbehind
        · refine (suffix_of_parts (leaves_flowItems (hread _) ?_ _ _ _) h).trans hbehind
          cases depth with
          | zero => exact leaves_tooDeep
          | succ depth => exact ih depth (by omega) .flow
        · exact (suffix_of_parts (leaves_flowEntries (hread _) _ _ _) h).trans hbehind
        · split at h
          · exact (suffix_of_parts (leaves_blockItems (hread _) _ _ _) h).trans hbehind
          · exact absurd h refuse_ne_ok
        · split at h
          · exact (suffix_of_parts (leaves_blockEntries (hread _) _ _) h).trans hbehind
          · exact absurd h refuse_ne_ok
        · split at h
          · exact suffix_of_parts (leaves_blockItems (hread _) _ _ _) h
          · exact absurd h refuse_ne_ok
        · exact absurd h refuse_ne_ok

/-! A document. -/

theorem directives_suffix {seen : Bool} (h : directives seen ts = .ok rest) : rest <:+ ts := by
  induction ts generalizing seen with
  | nil =>
    cases h
    exact List.suffix_refl _
  | cons t ts ih =>
    have hbehind : ts <:+ t :: ts := List.suffix_cons t ts
    rw [directives] at h
    split at h
    · exact (ih h).trans hbehind
    · split at h
      · cases h
      · split at h
        · cases h
        · exact (ih h).trans hbehind
    · cases h
      exact List.suffix_refl _

theorem exists_of_at? (h : at? [kind] ts = true) : ∃ t ∈ ts, t.kind = kind := by
  cases ts with
  | nil => cases h
  | cons t ts => exact ⟨t, List.mem_cons_self, by simpa [at?] using h⟩

theorem documentStart?_suffix {start : Token}
    (h : documentStart? ts = .ok (some (start, rest))) : rest <:+ ts := by
  have hdrop : ts.dropWhile (·.kind == .documentEnd) <:+ ts := List.dropWhile_suffix _
  rw [documentStart?] at h
  split at h
  · cases h
  · obtain ⟨ts', hd, h⟩ := bind_eq_ok.1 h
    split at h
    · next hp =>
      cases h
      exact (pass?_suffix hp).trans ((directives_suffix hd).trans hdrop)
    · exact absurd h refuse_ne_ok

/-- Without a document there is just the end of the stream. -/
theorem streamEnd_of_none (h : documentStart? ts = .ok none) : ∃ t ∈ ts, t.kind = .streamEnd := by
  have hdrop : ts.dropWhile (·.kind == .documentEnd) <:+ ts := List.dropWhile_suffix _
  rw [documentStart?] at h
  split at h
  · next hend =>
    obtain ⟨t, ht, hk⟩ := exists_of_at? hend
    exact ⟨t, hdrop.subset ht, hk⟩
  · obtain ⟨ts', -, h⟩ := bind_eq_ok.1 h
    split at h
    · cases h
    · exact absurd h refuse_ne_ok

theorem streamEnd_of_ending (h : ending start ts = .ok ()) : ∃ t ∈ ts, t.kind = .streamEnd := by
  rw [ending] at h
  obtain ⟨o, ho, h⟩ := bind_eq_ok.1 h
  split at h
  · obtain ⟨t, ht, hk⟩ := streamEnd_of_none ho
    refine ⟨t, ?_, hk⟩
    split at ht
    · next hp => exact (pass?_suffix hp).subset ht
    · exact ht
  · cases h

theorem leaves_root (deepest : Nat) (explicit : Bool) : Leaves (root deepest explicit) := by
  intro ts n rest h
  rw [root] at h
  split at h
  · cases h
    exact List.suffix_refl _
  · exact leaves_node _ _ _ _ _ _ h

/-- Tokens that are read as a document, or as none, have the end of the stream among them. -/
theorem streamEnd_of_ofTokens? {n? : Option Node} (h : Node.ofTokens? deepest ts = .ok n?) :
    ∃ t ∈ ts, t.kind = .streamEnd := by
  have hdrop : ts.drop 1 <:+ ts := List.drop_suffix 1 ts
  have hroot : ∀ {explicit n rest rest'}, root deepest explicit rest = .ok (n, rest') → rest <:+ ts →
      ending n.start rest' = .ok () → ∃ t ∈ ts, t.kind = .streamEnd := by
    intro explicit n rest rest' hr hs he
    obtain ⟨t, ht, hk⟩ := streamEnd_of_ending he
    exact ⟨t, ((leaves_root _ explicit _ _ _ hr).trans hs).subset ht, hk⟩
  rw [Node.ofTokens?] at h
  split at h
  · obtain ⟨o, ho, h⟩ := bind_eq_ok.1 h
    split at h
    · obtain ⟨t, ht, hk⟩ := streamEnd_of_none ho
      exact ⟨t, hdrop.subset ht, hk⟩
    · simp only [bind_eq_ok] at h
      obtain ⟨⟨n, rest⟩, hr, ⟨⟩, he, -⟩ := h
      exact hroot hr ((documentStart?_suffix ho).trans hdrop) he
  · simp only [bind_eq_ok] at h
    obtain ⟨⟨n, rest⟩, hr, ⟨⟩, he, -⟩ := h
    exact hroot hr hdrop he

end Tokens

/-- A text of which the tokens have no end is not read. -/
theorem exists_failure {deepest : Nat} {t : Text} (h : ∀ token ∈ tokens t, token.kind ≠ .streamEnd) :
    ∃ f, read deepest t = .error f := by
  cases hr : read deepest t with
  | error f => exact ⟨f, rfl⟩
  | ok v =>
    rw [read] at hr
    split at hr
    · cases hr
    · obtain ⟨n?, hn, -⟩ := bind_eq_ok.1 hr
      obtain ⟨token, ht, hk⟩ := Tokens.streamEnd_of_ofTokens? hn
      exact absurd hk (h token ht)

end KeywordSieve.Yaml
