import ProviderRoles.Proofs.Apply.Course
import ProviderRoles.Proofs.Apply.Settling
import ProviderRoles.Proofs.Plan.Amid

/-! Applications at a store that others write at other addresses. The entry at its address, as it
was in the beginning, decides what an application does. -/
namespace ProviderRoles.Apply

open Store

variable {others : Call → Prop} {owner : Uid} {o current m : Manifest} {s t u s' : Store}
  {k : String} {calls : List Completed} {result : Except ApplyError Manifest}

/-- Whether there is something to do about `o` where `e` lies. -/
def pending (owner : Uid) (o : Manifest) (e : Option Manifest) : Bool := e.all (due owner o)

/-- Whether there is, and the store will not have it. -/
def blocked (owner : Uid) (o : Manifest) (e : Option Manifest) : Bool :=
  o.metadata.name.isEmpty && pending owner o e

/-- `o` is settled, and what else has changed is due to others. If nothing was to be done, all is. -/
structure Settles (others : Call → Prop) (owner : Uid) (o : Manifest) (s s' : Store) : Prop where
  settled : Settled owner o (s.objects.get? (addressOf o)) (s'.objects.get? (addressOf o))
  rest : ∀ k, k ≠ addressOf o → Spares others k → s'.objects.get? k = s.objects.get? k
  quiet : pending owner o (s.objects.get? (addressOf o)) = false → Meanwhile others s s'

/-- What comes of an application of `o` for its owner. -/
inductive Applied (others : Call → Prop) (owner : Uid) (o : Manifest) (s : Store) :
    Except ApplyError Manifest → Store → Prop
  | settles {result : Except ApplyError Manifest} {s' : Store} :
      blocked owner o (s.objects.get? (addressOf o)) = false →
      (∀ e, result = .error e → e.isNotControllable = true) →
      Settles others owner o s s' → Applied others owner o s result s'
  | nameless {s' : Store} : blocked owner o (s.objects.get? (addressOf o)) = true →
      Meanwhile others s s' → Applied others owner o s (.error (.store (Store.nameless o))) s'

theorem Settled.not_pending {e e' : Option Manifest} (h : Settled owner o e e')
    (equal : Manifest.contentMatches o o = true) : pending owner o e' = false := by
  cases e' with
  | none => cases h
  | some m => exact h.not_due equal

variable (spared : Spares others (addressOf o))
include spared

theorem applied_of_idle (there : s.objects.get? (addressOf o) = some current)
    (nothing : due owner o current = false)
    (conflict : ∀ e, result = .error e → e.isNotControllable = true)
    (h : Meanwhile others s s') : Applied others owner o s result s' := by
  have free : blocked owner o (s.objects.get? (addressOf o)) = false := by
    rw [blocked, pending, there, Option.all_some, nothing, Bool.and_false]
  refine .settles free conflict ⟨?_, fun k _ spared' => h.get? spared', fun _ => h⟩
  rw [h.get? spared, there]
  exact .kept nothing

theorem settles_write (here : addressOf m = addressOf o)
    (something : pending owner o (s.objects.get? (addressOf o)) = true)
    (before : Meanwhile others s t)
    (written : Settled owner o (s.objects.get? (addressOf o)) (some (t.write m).1))
    (later : Meanwhile others (t.write m).2 s') : Settles others owner o s s' := by
  constructor
  · have stored := get?_write_self t m
    rw [here] at stored
    rwa [later.get? spared, stored]
  · intro k other spared'
    rw [later.get? spared', get?_write, here, if_neg other, before.get? spared']
  · intro nothing
    rw [something] at nothing
    contradiction

theorem applied_of_write {w : Except StoreError Manifest × Store}
    (something : pending owner o (s.objects.get? (addressOf o)) = true)
    (before : Meanwhile others s t)
    (refused : o.metadata.name.isEmpty = true → w = (.error (Store.nameless o), t))
    (done : o.metadata.name.isEmpty = false → ∃ m, addressOf m = addressOf o ∧
      Settled owner o (s.objects.get? (addressOf o)) (some (t.write m).1) ∧
      w = (.ok (t.write m).1, (t.write m).2))
    (later : Meanwhile others w.2 s') : Applied others owner o s (w.1.mapError .store) s' := by
  cases named : o.metadata.name.isEmpty with
  | true =>
    have stuck : blocked owner o (s.objects.get? (addressOf o)) = true := by
      rw [blocked, named, something]
      rfl
    cases refused named
    exact .nameless stuck (before.trans later)
  | false =>
    have free : blocked owner o (s.objects.get? (addressOf o)) = false := by
      rw [blocked, named, Bool.false_and]
    obtain ⟨m, here, written, rfl⟩ := done named
    refine .settles free (fun e failed => by contradiction) ?_
    exact settles_write spared here something before written later

theorem applied_of_missing {reply : Except StoreError Manifest}
    (vacant : s.objects.get? (addressOf o) = none) (before : Meanwhile others s u)
    (h : Amid others u [⟨.create (unversioned o), reply⟩] s') :
    Applied others owner o s (reply.mapError .store) s' := by
  obtain ⟨t, birth, between, rfl, ended⟩ := amid_cons h
  have first := before.trans between
  have still := (first.get? spared).trans vacant
  refine applied_of_write spared ?_ first (fun nameless => ?_) (fun named => ?_) (amid_nil ended)
  · rw [vacant]
    rfl
  · exact create_nameless (m := unversioned o) birth nameless
  · refine ⟨born birth (unversioned o), rfl, ?_, ?_⟩
    · rw [vacant]
      exact .created rfl
    · exact create_vacant (m := unversioned o) birth named still

theorem applied_of_different {reply : Except StoreError Manifest}
    (there : s.objects.get? (addressOf o) = some current) (something : due owner o current = true)
    (before : Meanwhile others s u)
    (h : Amid others u [⟨.update (adopt current o), reply⟩] s') :
    Applied others owner o s (reply.mapError .store) s' := by
  obtain ⟨t, birth, between, rfl, ended⟩ := amid_cons h
  have first := before.trans between
  have still := (first.get? spared).trans there
  refine applied_of_write spared ?_ first (fun nameless => ?_) (fun named => ?_) (amid_nil ended)
  · rw [there]
    exact something
  · exact update_nameless (m := adopt current o) nameless
  · refine ⟨inheriting current (adopt current o), rfl, ?_, ?_⟩
    · rw [there]
      exact .overwritten something rfl
    · exact update_fresh (m := adopt current o) named still isFresh_adopt

/-- An application comes to what it would come to without the others. -/
theorem Course.applied (course : Course o [Guard.controllableBy owner] calls result)
    (h : Amid others s calls s') : Applied others owner o s result s' := by
  have found : ∀ {t : Store} {m : Manifest}, Meanwhile others s t →
      .ok m = t.get o.kind o.key → s.objects.get? (addressOf o) = some m := by
    intro t m before read
    exact (before.get? spared).symm.trans (get_eq_ok_iff.1 read.symm)
  cases course with
  | missing reply _ =>
    obtain ⟨t, before, read, write⟩ := amid_get h
    have vacant := (before.get? spared).symm.trans (vacant_of_get read.symm).1
    exact applied_of_missing spared vacant before write
  | unread other =>
    obtain ⟨t, _, read, _⟩ := amid_get h
    rw [(vacant_of_get read.symm).2] at other
    contradiction
  | refused refusal =>
    obtain ⟨t, before, read, ended⟩ := amid_get h
    obtain ⟨foreign, rfl⟩ := all_controllableBy_error refusal
    refine applied_of_idle spared (found before read) (not_due_of_refused foreign) ?_
      (before.trans (amid_nil ended))
    intro e failed
    cases failed
    rfl
  | equal _ equal =>
    obtain ⟨t, before, read, ended⟩ := amid_get h
    refine applied_of_idle spared (found before read) (not_due_of_equal equal) ?_
      (before.trans (amid_nil ended))
    intro e failed
    contradiction
  | different reply allowed different =>
    obtain ⟨t, before, read, write⟩ := amid_get h
    have something := due_iff.2 ⟨all_controllableBy_iff.1 allowed, different⟩
    exact applied_of_different spared (found before read) something before write

end ProviderRoles.Apply
