import ProviderRoles.Proofs.Plan.Path
import ProviderRoles.Proofs.Store.Faults

/-! Calls amid those of others. What the others do comes in as calls that they may make, any number
of them before, between and after the calls of the one who is looked at. Entries that none of the
others' calls is about stay as they are for that one. -/
namespace ProviderRoles

/-- The address of the entry that a call can change. -/
def Call.target? : Call → Option String
  | .get .. | .list .. => none
  | .create m | .update m => some (Store.addressOf m)
  | .delete kind key => some (Store.address kind key)

theorem Call.address_of_target {c : Call} {k : String} (target : c.target? = some k) :
    ∃ key, k = Store.address c.kind key := by
  cases c with
  | get kind key => contradiction
  | list kind selector => contradiction
  | create m => exact ⟨m.key, (Option.some.inj target).symm⟩
  | update m => exact ⟨m.key, (Option.some.inj target).symm⟩
  | delete kind key => exact ⟨key, (Option.some.inj target).symm⟩

namespace Store

variable {others : Call → Prop} {s t u : Store} {k : String}

theorem after_append (s : Store) (xs ys : List Turn) :
    s.after (xs ++ ys) = (s.after xs).after ys := by
  induction xs generalizing s with
  | nil => rfl
  | cons x xs ih => exact ih _

theorem Reachable.after (h : s.Reachable) (turns : List Turn) : (s.after turns).Reachable := by
  obtain ⟨start, earlier, fresh, rfl⟩ := h
  exact ⟨start, earlier ++ turns, fresh, (after_append ..).symm⟩

theorem get?_perform_of_ne {birth : Birth} {c : Call} (other : c.target? ≠ some k) :
    (s.perform birth c).2.objects.get? k = s.objects.get? k := by
  have elsewhere : ∀ m : Manifest, some (addressOf m) ≠ some k →
      (s.write m).2.objects.get? k = s.objects.get? k := by
    intro m differs
    rw [get?_write, if_neg fun same => differs (congrArg some same.symm)]
  have effect := effect_perform birth s c
  generalize s.perform birth c = done at effect ⊢
  cases effect with
  | refused e => rfl
  | got there => rfl
  | listed => rfl
  | created named vacant => exact elsewhere _ other
  | updated named there fresh => exact elsewhere _ other
  | deleted there =>
    rw [SortedMap.get?_erase, if_neg fun same => other (congrArg some same.symm)]

theorem perform_of_read {birth : Birth} {c : Call} (reads : c.target? = none) :
    (s.perform birth c).2 = s := by
  cases c with
  | get kind key | list kind selector => rfl
  | create m | update m | delete kind key => contradiction

theorem serve_of_read {meet : Nat → Circumstance} {c : Call} (reads : c.target? = none)
    (w : Store × Nat) : (serve meet c w).2.1 = w.1 := by
  obtain ⟨birth, done | ⟨e, failed | failed⟩⟩ := serve_cases meet c w.1 w.2
  · rw [done, perform_of_read reads]
  · rw [failed]
  · rw [failed, perform_of_read reads]

/-- `t` is what others can have made of `s`. -/
def Meanwhile (others : Call → Prop) (s t : Store) : Prop :=
  ∃ turns : List Turn, (∀ x ∈ turns, others x.call) ∧ t = s.after turns

theorem Meanwhile.refl : Meanwhile others s s := ⟨[], by simp, rfl⟩

theorem Meanwhile.trans (h : Meanwhile others s t) (h' : Meanwhile others t u) :
    Meanwhile others s u := by
  obtain ⟨xs, may, rfl⟩ := h
  obtain ⟨ys, may', rfl⟩ := h'
  refine ⟨xs ++ ys, fun x mem => ?_, (after_append ..).symm⟩
  rcases List.mem_append.1 mem with mem | mem
  · exact may x mem
  · exact may' x mem

theorem meanwhile_perform {c : Call} (birth : Birth) (may : others c) :
    Meanwhile others s (s.perform birth c).2 := by
  refine ⟨[⟨birth, c⟩], fun x mem => ?_, rfl⟩
  cases List.mem_singleton.1 mem
  exact may

theorem Meanwhile.mono {more : Call → Prop} (h : Meanwhile others s t)
    (theirs : ∀ c, others c → more c) : Meanwhile more s t := by
  obtain ⟨turns, may, rfl⟩ := h
  exact ⟨turns, fun x mem => theirs _ (may x mem), rfl⟩

theorem Meanwhile.reachable (h : Meanwhile others s t) (reachable : s.Reachable) :
    t.Reachable := by
  obtain ⟨turns, _, rfl⟩ := h
  exact reachable.after turns

/-- Nobody else does anything. -/
def nobody : Call → Prop := fun _ => False

theorem Meanwhile.eq_of_nobody (h : Meanwhile nobody s t) : t = s := by
  obtain ⟨turns, may, rfl⟩ := h
  cases turns with
  | nil => rfl
  | cons x turns => exact (may x List.mem_cons_self).elim

/-- No call of the others is about the entry at `k`. -/
def Spares (others : Call → Prop) (k : String) : Prop := ∀ c, others c → c.target? ≠ some k

theorem spares_nobody : Spares nobody k := fun _ may => may.elim

theorem Meanwhile.get? (h : Meanwhile others s t) (spared : Spares others k) :
    t.objects.get? k = s.objects.get? k := by
  obtain ⟨turns, may, rfl⟩ := h
  induction turns generalizing s with
  | nil => rfl
  | cons x turns ih =>
    obtain ⟨first, rest⟩ := List.forall_mem_cons.1 may
    exact (ih rest).trans (get?_perform_of_ne (spared _ first))

/-- Calls that got their replies from `s` one after the other and left `s'`, with the others going
on in between. -/
inductive Amid (others : Call → Prop) : Store → List Completed → Store → Prop where
  | done {s s' : Store} : Meanwhile others s s' → Amid others s [] s'
  | call {s t s' : Store} {c : Call} {calls : List Completed} (birth : Birth) :
      Meanwhile others s t → Amid others (t.perform birth c).2 calls s' →
      Amid others s (⟨c, (t.perform birth c).1⟩ :: calls) s'

variable {s' : Store} {calls : List Completed}

theorem amid_nil (h : Amid others s [] s') : Meanwhile others s s' := by
  cases h with
  | done later => exact later

theorem amid_cons {c : Call} {reply : Except StoreError c.Reply}
    (h : Amid others s (⟨c, reply⟩ :: calls) s') :
    ∃ t birth, Meanwhile others s t ∧ reply = (t.perform birth c).1 ∧
      Amid others (t.perform birth c).2 calls s' := by
  cases h with
  | call birth before later => exact ⟨_, birth, before, rfl, later⟩

theorem Amid.after (h : Amid others t calls s') (before : Meanwhile others s t) :
    Amid others s calls s' := by
  cases h with
  | done later => exact .done (before.trans later)
  | call birth between later => exact .call birth (before.trans between) later

theorem amid_get {kind : String} {key : ObjectKey} {reply : Except StoreError Manifest}
    (h : Amid others s (⟨.get kind key, reply⟩ :: calls) s') :
    ∃ t, Meanwhile others s t ∧ reply = t.get kind key ∧ Amid others t calls s' := by
  obtain ⟨t, _, before, read, later⟩ := amid_cons h
  exact ⟨t, before, read, later⟩

theorem amid_list {kind : String} {selector : Selector}
    {reply : Except StoreError (List Manifest)}
    (h : Amid others s (⟨.list kind selector, reply⟩ :: calls) s') :
    ∃ t, Meanwhile others s t ∧ reply = .ok (t.list kind selector) ∧ Amid others t calls s' := by
  obtain ⟨t, _, before, read, later⟩ := amid_cons h
  exact ⟨t, before, read, later⟩

theorem amid_append {xs ys : List Completed} (h : Amid others s (xs ++ ys) s') :
    ∃ t, Amid others s xs t ∧ Amid others t ys s' := by
  induction xs generalizing s with
  | nil => exact ⟨s, .done .refl, h⟩
  | cons x xs ih =>
    cases h with
    | call birth before later =>
      obtain ⟨t, first, rest⟩ := ih later
      exact ⟨t, .call birth before first, rest⟩

/-- The calls may themselves be such as others make. -/
theorem Amid.meanwhile {more : Call → Prop} (h : Amid others s calls s')
    (theirs : ∀ c, others c → more c) (own : ∀ x ∈ calls, more x.call) :
    Meanwhile more s s' := by
  induction h with
  | done later => exact later.mono theirs
  | call birth before _ ih =>
    obtain ⟨first, rest⟩ := List.forall_mem_cons.1 own
    exact (before.mono theirs).trans ((meanwhile_perform birth first).trans (ih rest))

/-- A run of several actors, as one of them sees it. -/
theorem amid_completed {ι : Type} [DecidableEq ι] {i : ι} {moves : List (ι × Turn)}
    (may : ∀ move ∈ moves, move.1 ≠ i → others move.2.call) :
    Amid others s (s.completed i moves) (s.after (turnsOf moves)) := by
  induction moves generalizing s with
  | nil => exact .done .refl
  | cons move moves ih =>
    obtain ⟨j, x⟩ := move
    obtain ⟨first, rest⟩ := List.forall_mem_cons.1 may
    by_cases mine : j = i
    · simp only [completed, if_pos mine]
      exact .call x.birth .refl (ih rest)
    · simp only [completed, if_neg mine]
      exact (ih rest).after (meanwhile_perform x.birth (first mine))

theorem amid_exec {α : Type} (births : Nat → Birth) (p : Plan α) (w : Store × Nat) :
    ∃ calls, p.Ends calls (p.exec (serve (calm births)) w).1 ∧
      Amid nobody w.1 calls (p.exec (serve (calm births)) w).2.1 := by
  induction p generalizing w with
  | done a => exact ⟨[], .done a, .done .refl⟩
  | note n next ih =>
    obtain ⟨calls, ends, amid⟩ := ih w
    exact ⟨calls, .note ends, amid⟩
  | call c next ih =>
    obtain ⟨s, n⟩ := w
    obtain ⟨calls, ends, amid⟩ :=
      ih (s.perform (births n) c).1 ((s.perform (births n) c).2, n + 1)
    exact ⟨_, .call _ ends, .call (births n) .refl amid⟩

end Store

end ProviderRoles
