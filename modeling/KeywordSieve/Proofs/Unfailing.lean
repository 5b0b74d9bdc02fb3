import KeywordSieve.Proofs.Entries
import KeywordSieve.Proofs.Moves
import KeywordSieve.Proofs.Pairs
import KeywordSieve.Run

/-!
Calls that cannot fail. What keeps a record of scalars from being written drops the record, in either
format and without a writer, so calls of scalars in a context of scalars all return. The calls of a
run are such, and so the run has a result in such a context.
-/
namespace KeywordSieve

open Text

namespace Log

variable {context : Fields} {c : Call} {m : Moment} {r : Record} {fault : Fault}

namespace Line

theorem displayRefusal?_scalar {room : Nat} {v : Value} {why : Value.WriteFault}
    (h : v.isScalar = true) (hv : v.displayRefusal? room = some why) : why = .digits := by
  cases v with
  | int n =>
    rw [Value.displayRefusal?, Value.refusal?] at hv
    · split at hv
      · exact (Option.some_inj.1 hv).symm
      · cases hv
    all_goals exact nofun
  | null | bool b | float x | text t => cases hv
  | _ => cases h

/-- A plain record that has no line for people is dropped. -/
theorem endsCall_keyValue_of_isPlain (h : r.IsPlain) (he : keyValue defaultTemplate r = .error fault) :
    fault.endsCall = false := by
  rw [keyValue_eq, base_default, h.text] at he
  cases ht : Time.clock r.created with
  | error why =>
    rw [ht] at he
    cases he
    rfl
  | ok clock =>
    rw [ht] at he
    have he : (fun _ => _) <$> checkPairs r = .error fault := he
    rw [checkPairs] at he
    cases hf : (sortedFields r).findSome? fun f => f.2.displayRefusal? r.room.text with
    | none =>
      rw [hf] at he
      cases he
    | some why =>
      rw [hf] at he
      cases he
      obtain ⟨f, hm, hv⟩ := List.exists_of_findSome?_eq_some hf
      obtain rfl := displayRefusal?_scalar (h.scalar f (sortedFields_subset r hm)) hv
      rfl

theorem endsCall_render_of_isPlain {format : LogFormat} (h : r.IsPlain)
    (he : render format r = .error fault) : fault.endsCall = false := by
  cases format with
  | json => exact endsCall_json_of_isPlain h he
  | keyValue => exact endsCall_keyValue_of_isPlain h he

end Line

namespace Journal

variable {j : Journal}

theorem ofText_isOk {entry : Text → Entry} {text : Except Fault Text}
    (h : ∀ fault, text = .error fault → fault.endsCall = false) :
    ∃ entries, Entry.ofText entry text = .ok entries := by
  cases text with
  | ok t => exact ⟨_, rfl⟩
  | error fault =>
    rw [Entry.ofText, h fault rfl]
    exact ⟨_, rfl⟩

/-- By induction on the list: if the whole fails, one of its steps does. -/
theorem exists_of_mapM_eq_error {α β ε : Type} {f : α → Except ε β} {xs : List α} {e : ε}
    (h : xs.mapM f = .error e) : ∃ x ∈ xs, f x = .error e := by
  induction xs with
  | nil => cases h
  | cons x xs ih =>
    rw [List.mapM_cons, bind_eq_error] at h
    rcases h with hx | ⟨y, -, h⟩
    · exact ⟨x, List.mem_cons_self, hx⟩
    · rw [bind_eq_error] at h
      rcases h with hxs | ⟨ys, -, h⟩
      · obtain ⟨x', hm, hx'⟩ := ih hxs
        exact ⟨x', List.mem_cons_of_mem _ hm, hx'⟩
      · exact absurd h pure_ne_error

theorem mapM_isOk {α β ε : Type} {f : α → Except ε β} {xs : List α}
    (h : ∀ x ∈ xs, ∃ y, f x = .ok y) : ∃ ys, xs.mapM f = .ok ys := by
  cases hm : xs.mapM f with
  | ok ys => exact ⟨ys, rfl⟩
  | error e =>
    obtain ⟨x, hx, he⟩ := exists_of_mapM_eq_error hm
    obtain ⟨y, hy⟩ := h x hx
    rw [hy] at he
    cases he

theorem endsCall_of_ofText {entry : Text → Entry} {text : Except Fault Text}
    (h : Entry.ofText entry text = .error fault) : fault.endsCall = true := by
  cases text with
  | ok t => cases h
  | error f =>
    rw [Entry.ofText] at h
    split at h
    · next he =>
      cases h
      exact he
    · cases h

/-- Whatever the context, such a call ends with no fault but values that are nested too deep. -/
theorem endsCall_of_log (hl : Value.isTooLong c.level = false) (h : c.IsPlain)
    (he : j.log context m c = .error fault) : fault.endsCall = true := by
  obtain ⟨fs, hf, hfree⟩ := h.exists_fields
  rw [log] at he
  split at he
  · rw [c.record_eq hl hf hfree] at he
    have he : j.write context (c.recordWith m fs) = .error fault := he
    rw [write] at he
    split at he
    · rw [writeBare] at he
      split at he
      · cases he
      · exact endsCall_of_ofText he
    · obtain ⟨w, -, hw⟩ := exists_of_mapM_eq_error (map_eq_error.1 he)
      exact endsCall_of_ofText hw
  · cases he

theorem endsCall_of_logAll {cs : List Call}
    (h : ∀ c ∈ cs, Value.isTooLong c.level = false ∧ c.IsPlain)
    (he : (j.logAll context m cs).2 = some fault) : fault.endsCall = true := by
  induction cs with
  | nil => cases he
  | cons c cs ih =>
    rw [List.forall_mem_cons] at h
    rw [logAll] at he
    cases hlog : j.log context m c with
    | error f =>
      rw [hlog] at he
      cases he
      exact endsCall_of_log h.1.1 h.1.2 hlog
    | ok entries =>
      rw [hlog] at he
      exact ih h.2 he

/-- A call of scalars in a context of scalars returns, whatever becomes of its record. -/
theorem log_isOk (hl : Value.isTooLong c.level = false) (h : c.IsPlain) (hc : context.AreScalar) :
    ∃ entries, j.log context m c = .ok entries := by
  obtain ⟨fs, hf, hfree⟩ := h.exists_fields
  rw [log]
  cases j.isEnabled c.level with
  | false => exact ⟨_, rfl⟩
  | true =>
    rw [if_pos rfl, c.record_eq hl hf hfree]
    show ∃ entries, j.write context (c.recordWith m fs) = .ok entries
    rw [write]
    split
    · rw [writeBare]
      split
      · exact ⟨_, rfl⟩
      · refine ofText_isOk fun fault he => ?_
        rw [Call.text_recordWith hfree] at he
        cases he
    · have hplain := fun labels => c.isPlain_dressed m labels hfree hc
      have hwrite : ∀ w ∈ j.writers, ∃ entries,
          w.write context (c.recordWith m fs) = .ok entries := fun w _ =>
        ofText_isOk fun fault he => Line.endsCall_render_of_isPlain (hplain w.labels) he
      obtain ⟨lines, hlines⟩ := mapM_isOk hwrite
      rw [hlines]
      exact ⟨_, rfl⟩

/-- All of some such calls are made. -/
theorem logAll_snd {cs : List Call} (h : ∀ c ∈ cs, Value.isTooLong c.level = false ∧ c.IsPlain)
    (hc : context.AreScalar) : (j.logAll context m cs).2 = none := by
  induction cs with
  | nil => rfl
  | cons c cs ih =>
    rw [List.forall_mem_cons] at h
    obtain ⟨entries, hlog⟩ := log_isOk (j := j) (m := m) h.1.1 h.1.2 hc
    rw [logAll, hlog]
    exact ih h.2

end Journal

def runId : Text := "run_id"

theorem Fields.AreScalar.set_runId (h : context.AreScalar) (id : Text) :
    (context.set runId (.text id)).AreScalar := by
  intro f hf
  rcases Fields.mem_set hf with hf | rfl
  · exact h f hf
  · rfl

/-- Behind a scope the context is what it was, and the token of the scope is used. -/
theorem Scope.leave_enter (scope : Scope) (context : Context) :
    let left := ((scope.enter context).1.leave (scope.enter context).2).2
    left.fields = context.fields ∧ left.saved = context.saved ++ [none] := by
  have hs : (context.push scope.added).2.saved[(context.push scope.added).1]? =
      some (some context.fields) := by
    rw [Context.saved_push, Context.push_token, List.getElem?_concat_length]
  obtain ⟨c, hp, hf, hc⟩ := Context.pop?_of_saved hs
  simp only [enter, leave, hp, Option.getD_some]
  refine ⟨hf, ?_⟩
  rw [hc, Context.saved_push, Context.push_token, List.set_append_right _ _ (Nat.le_refl _),
    Nat.sub_self]
  rfl

end Log

namespace Pipeline

open Log (runId)

/-- A run logs its calls with its identifier in the context, which it leaves as it was. -/
theorem perform_eq (p : Pipeline) (j : Log.Journal) (context : Log.Context) (c : Circumstances)
    (items : List Feed.Item) :
    ∃ left : Log.Context, left.fields = context.fields ∧ left.saved = context.saved ++ [none] ∧
      p.perform j context c items =
        let out := j.logAll (context.fields.set runId (.text c.id)) ⟨c.started, c.room⟩
          (p.calls items (p.run c items))
        (out.2.elim (.ok (p.run c items)) .error, out.1, left) := by
  obtain ⟨hfields, hsaved⟩ := Log.Scope.leave_enter { added := [(runId, .text c.id)] } context
  refine ⟨_, hfields, hsaved, ?_⟩
  have hinside : (context.push [(runId, .text c.id)]).2.fields =
      context.fields.set runId (.text c.id) := Log.Context.fields_push _ _
  rw [← hinside]
  rfl

/-- The calls of a run give scalars under free names. -/
theorem isPlain_calls (p : Pipeline) (items : List Feed.Item) (r : Run) :
    ∀ call ∈ p.calls items r, Value.isTooLong call.level = false ∧ call.IsPlain := by
  intro call hm
  simp only [calls, List.mem_append, List.mem_cons, List.mem_map, List.not_mem_nil, or_false] at hm
  rcases hm with (rfl | ⟨e, he, rfl⟩) | rfl
  · exact ⟨(by decide : Value.isTooLong 20 = false), .of_fields rfl (List.all_eq_true.1 rfl)
      (by decide : ∀ k ∈ ["event".toList, "item_count", "max_workers"], _)⟩
  · exact ⟨(by decide : Value.isTooLong 10 = false), .of_fields rfl (List.all_eq_true.1 rfl)
      (by decide : ∀ k ∈ ["event".toList, "decision", "reason", "overridden"], _)⟩
  · exact ⟨(by decide : Value.isTooLong 20 = false), .of_fields rfl (List.all_eq_true.1 rfl)
      (by decide : ∀ k ∈ ["event".toList, "duration_seconds", "total_items", "kept_count",
        "excluded_count", "overridden_count", "unmatched_count"], _)⟩

/-- A run has one result, whatever its log, unless values of the context are nested too deep. -/
theorem perform_cases (p : Pipeline) (j : Log.Journal) (context : Log.Context) (c : Circumstances)
    (items : List Feed.Item) :
    (p.perform j context c items).1 = .ok (p.run c items) ∨
      ∃ fault, fault.endsCall = true ∧ (p.perform j context c items).1 = .error fault := by
  obtain ⟨left, -, -, h⟩ := perform_eq p j context c items
  have hends : ∀ fault, (j.logAll (context.fields.set runId (.text c.id)) ⟨c.started, c.room⟩
      (p.calls items (p.run c items))).2 = some fault → fault.endsCall = true := fun _ he =>
    Log.Journal.endsCall_of_logAll (isPlain_calls p items (p.run c items)) he
  rw [h]
  revert hends
  generalize j.logAll (context.fields.set runId (.text c.id)) ⟨c.started, c.room⟩
    (p.calls items (p.run c items)) = out
  obtain ⟨entries, fault⟩ := out
  intro hends
  cases fault with
  | none => exact Or.inl rfl
  | some fault => exact Or.inr ⟨fault, hends fault rfl, rfl⟩

/-- A run has a result in a context of scalars. -/
theorem perform_ok (p : Pipeline) (j : Log.Journal) (context : Log.Context) (c : Circumstances)
    (items : List Feed.Item) (hc : context.fields.AreScalar) :
    (p.perform j context c items).1 = .ok (p.run c items) := by
  obtain ⟨left, -, -, h⟩ := perform_eq p j context c items
  have hlog := Log.Journal.logAll_snd (j := j) (m := ⟨c.started, c.room⟩)
    (isPlain_calls p items (p.run c items)) (hc.set_runId c.id)
  rw [h]
  show Option.elim (j.logAll _ _ _).2 _ _ = _
  rw [hlog]
  rfl

end Pipeline

end KeywordSieve
