import ProviderRoles.Reconcile.Basic

/-! Plans at a server that answers at once. Nothing is ever given up there, so a run is a result
and a final state, and a plan in two parts runs part by part. -/
namespace ProviderRoles

namespace Plan

variable {σ α β : Type} (serve : (c : Call) → σ → Except StoreError c.Reply × σ)

/-- The result of a plan and the state it leaves. -/
def exec : Plan α → σ → α × σ
  | .done a, s => (a, s)
  | .note _ next, s => next.exec s
  | .call c next, s => (next (serve c s).1).exec (serve c s).2

theorem exec_bind (p : Plan α) (f : α → Plan β) (s : σ) :
    (p.bind f).exec serve s = (f (p.exec serve s).1).exec serve (p.exec serve s).2 := by
  induction p generalizing s with
  | done a => rfl
  | note n next ih => exact ih s
  | call c next ih => exact ih _ _

@[simp] theorem exec_bind' (p : Plan α) (f : α → Plan β) (s : σ) :
    (p >>= f).exec serve s = (f (p.exec serve s).1).exec serve (p.exec serve s).2 :=
  exec_bind serve p f s

@[simp] theorem exec_pure (a : α) (s : σ) : (pure a : Plan α).exec serve s = (a, s) := rfl

@[simp] theorem exec_note (n : Note) (p : Plan α) (s : σ) :
    (note n p).exec serve s = p.exec serve s := rfl

@[simp] theorem exec_log (e : Event) (s : σ) : (Plan.log e).exec serve s = ((), s) := rfl

theorem exec_call (c : Call) (next : Except StoreError c.Reply → Plan α) (s : σ) :
    (call c next).exec serve s = (next (serve c s).1).exec serve (serve c s).2 := rfl

theorem exec_get (α : Type) [Resource α] (key : ObjectKey) (s : σ) :
    (Client.get α key).exec serve s =
      ((serve (.get (Resource.kind α) key) s).1.bind (Client.typed α),
        (serve (.get (Resource.kind α) key) s).2) := rfl

theorem exec_list (α : Type) [Resource α] (selector : Selector) (s : σ) :
    (Client.list α selector).exec serve s =
      ((serve (.list (Resource.kind α) selector) s).1.bind (·.mapM (Client.typed α)),
        (serve (.list (Resource.kind α) selector) s).2) := rfl

/-- No run at such a server is given up. -/
theorem run_immediate (limit : Option Nat) (p : Plan α) {elapsed : Nat}
    (within : limit.any (· < elapsed) = false) (s : σ) :
    (p.run (Server.immediate serve) limit elapsed s).result = some (p.exec serve s).1 ∧
    (p.run (Server.immediate serve) limit elapsed s).state = (p.exec serve s).2 := by
  induction p generalizing s with
  | done a => exact ⟨rfl, rfl⟩
  | note n next ih => exact ih s
  | call c next ih =>
    have soon : limit.any (· < elapsed + (Server.immediate serve c s).delay) = false := within
    simp only [run, soon, Bool.false_eq_true, ↓reduceIte]
    exact ih _ _

end Plan

namespace Reconciler

/-! A reconcile is a run of its plan, given up or not. -/

theorem state_reconcile {σ : Type} (r : Reconciler) (serve : Server σ) (key : ObjectKey) (s : σ) :
    (r.reconcile serve key s).state =
      ((r.plan key).run serve (some r.timing.timeout.toNat) 0 s).state := by
  rw [reconcile]
  split <;> rfl

theorem calls_reconcile {σ : Type} (r : Reconciler) (serve : Server σ) (key : ObjectKey) (s : σ) :
    (r.reconcile serve key s).calls =
      ((r.plan key).run serve (some r.timing.timeout.toNat) 0 s).calls := by
  rw [reconcile]
  split <;> rfl

variable {σ : Type} (serve : (c : Call) → σ → Except StoreError c.Reply × σ)

theorem reconcile_immediate (r : Reconciler) (key : ObjectKey) (s : σ) :
    (r.reconcile (Server.immediate serve) key s).result = ((r.plan key).exec serve s).1 ∧
    (r.reconcile (Server.immediate serve) key s).state = ((r.plan key).exec serve s).2 := by
  have within : (some r.timing.timeout.toNat).any (· < 0) = false := by simp
  obtain ⟨result, state⟩ := Plan.run_immediate serve _ (r.plan key) within s
  simp only [reconcile, result]
  exact ⟨trivial, state⟩

end Reconciler

end ProviderRoles
