import ProviderRoles.Proofs.Reconcile.Agenda
import ProviderRoles.Proofs.Reconcile.Convergence

/-! Reconciling twice in a row. The second time finds the same agenda, and nothing to do for it that
the first time has not done or failed to do. -/
namespace ProviderRoles

open Apply Store

namespace Reconciler

variable {s s' s'' : Store} {calls calls' : List Completed} {ending ending' : Ending}
  {plan : Agenda}

/-- Going through an agenda once more changes nothing. -/
theorem Execution.again (h : Execution nobody s s' plan calls ending)
    (apart : plan.roles.Pairwise fun a b => a.address ≠ b.address)
    (h' : Execution nobody s' s'' plan calls' ending') : ending' = ending ∧ s'' = s' := by
  cases h with
  | idle _ _ =>
    cases h' with
    | idle _ ended => exact ⟨rfl, ended.eq_of_nobody⟩
  | working _ visits amid =>
    cases h' with
    | working _ visits' amid' =>
      have worked := visits.worked apart (fun _ _ => spares_nobody) (fun _ _ => rfl) amid
      obtain ⟨same, still⟩ := worked.quiet visits' amid'
      exact ⟨by rw [same], still⟩

/-- A reconcile right after another one ends as that did and leaves the store as it is, versions
and counter included, whatever the first one met: roles that others control, objects that do not
decode, roles that cannot be written. The roles may have any owners, as long as no two of them are
kept at one address. -/
theorem reconcile_idempotent (r : Reconciler) (reachable : s.Reachable) {key : ObjectKey}
    (apart : ∀ m revision, s.get (Resource.kind Revision) key = .ok m →
      m.toResource Revision = .ok revision →
      (r.render revision (controlledBy s.definitions revision.metadata.uid)).Pairwise
        fun a b => a.address ≠ b.address)
    (births births' : Nat → Birth) :
    let first := r.reconcile (Server.immediate (serve (calm births))) key (s, 0)
    let second := r.reconcile (Server.immediate (serve (calm births'))) key (first.state.1, 0)
    second.result = first.result ∧ second.state.1 = first.state.1 := by
  intro first second
  obtain ⟨calls, ending, execution, result, roles⟩ :=
    execution_reconcile r reachable key births
  obtain ⟨calls', ending', execution', result', _⟩ :=
    execution_reconcile r (roles.reachable reachable) key births'
  rw [agenda_kept reachable roles] at execution'
  have different : (agenda r.render key s).roles.Pairwise fun a b => a.address ≠ b.address := by
    rcases roles_agenda r.render key s with none | ⟨m, revision, there, decoded, rendered⟩
    · rw [none]
      exact .nil
    · rw [rendered]
      exact apart m revision there decoded
  obtain ⟨same, still⟩ := execution.again different execution'
  refine ⟨?_, still⟩
  rw [result, result', same]

end Reconciler

/-- The first reconcile creates two roles and leaves the third to its owner. The second one does
nothing. -/
theorem installation_reconciled_twice :
    let r : Reconciler := ⟨Render.roles, {}, by decide⟩
    let births : Nat → Birth := fun _ => ⟨⟨"new"⟩, .epoch⟩
    let first := r.reconcile (Server.immediate (serve (calm births))) (.cluster "p")
      (new.after installation, 0)
    let second := r.reconcile (Server.immediate (serve (calm births))) (.cluster "p")
      (first.state.1, 0)
    first.result = .ok .done ∧ first.state.1.counter = (new.after installation).counter + 2 ∧
      second.result = .ok .done ∧ second.state.1 = first.state.1 := by
  intro r births first second
  have reachable : (new.after installation).Reachable := ⟨new, installation, .inl rfl, rfl⟩
  obtain ⟨same, still⟩ := r.reconcile_idempotent reachable
    (fun m revision _ _ => Render.pairwise_roles revision _) births births
  have done : first.result = .ok .done ∧
      first.state.1.counter = (new.after installation).counter + 2 := by decide +kernel
  exact ⟨done.1, done.2, same.trans done.1, still⟩

end ProviderRoles
