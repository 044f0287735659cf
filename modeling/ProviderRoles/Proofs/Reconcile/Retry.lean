import ProviderRoles.Proofs.Reconcile.Convergence

/-! Trying again after failures. An attempt that meets faults leaves a store from which an
undisturbed reconcile ends where it would have ended without the attempt. -/
namespace ProviderRoles

open Apply Store

/-- An attempt to reconcile, and what its calls meet. -/
structure Attempt where
  reconciler : Reconciler
  meet : Nat → Circumstance

/-- The store that an attempt leaves behind. -/
def Attempt.leave (key : ObjectKey) (s : Store) (a : Attempt) : Store :=
  (a.reconciler.reconcile (Server.immediate (serve a.meet)) key (s, 0)).state.1

variable {s s' : Store} {key : ObjectKey} {revision : Revision}

theorem target_kept (addressed : s.Addressed)
    (progress : Progress revision.metadata.uid (Reconciler.target s revision) s s') :
    Reconciler.target s' revision = Reconciler.target s revision := by
  rw [Reconciler.target, Reconciler.definitions_kept progress addressed, Reconciler.target]

theorem progress_trans_target {s'' : Store}
    (h : Progress revision.metadata.uid (Reconciler.target s revision) s s')
    (h' : Progress revision.metadata.uid (Reconciler.target s revision) s' s'') :
    Progress revision.metadata.uid (Reconciler.target s revision) s s'' :=
  h.trans (Render.apart_roles _ _) (fun _ => contentMatches_wanted) h'

/-- One more attempt, whatever has been settled so far. -/
theorem progress_leave (addressed : s.Addressed) (ready : Ready s key revision)
    (progress : Progress revision.metadata.uid (Reconciler.target s revision) s s')
    {a : Attempt} (default : a.reconciler.render = Render.roles) :
    Progress revision.metadata.uid (Reconciler.target s revision) s (a.leave key s') := by
  have ready' := Reconciler.ready_kept progress addressed ready
  have step := Reconciler.exec_plan_faulty ready' a.meet 0 default
  rw [target_kept addressed progress] at step
  have state := (a.reconciler.reconcile_immediate (serve a.meet) key (s', 0)).2
  rw [Attempt.leave, state]
  exact progress_trans_target progress step

theorem progress_attempts (addressed : s.Addressed) (ready : Ready s key revision)
    {attempts : List Attempt} (default : ∀ a ∈ attempts, a.reconciler.render = Render.roles)
    (progress : Progress revision.metadata.uid (Reconciler.target s revision) s s') :
    Progress revision.metadata.uid (Reconciler.target s revision) s
      (attempts.foldl (Attempt.leave key) s') := by
  -- Every attempt is measured against `s`, where the first one began.
  induction attempts generalizing s' with
  | nil => exact progress
  | cons a attempts ih =>
    obtain ⟨first, others⟩ := List.forall_mem_cons.1 default
    exact ih others (progress_leave addressed ready progress first)

/-- After any number of attempts that met faults, an undisturbed reconcile comes to an end, and
it leaves what it would have left without them: the same entries, with the same fields, but for
their versions, and for what the store has given to a role when that was created. -/
theorem retry_heals (reachable : s.Reachable) (ready : Ready s key revision)
    {attempts : List Attempt} (default : ∀ a ∈ attempts, a.reconciler.render = Render.roles)
    {r : Reconciler} (default' : r.render = Render.roles) (births births' : Nat → Birth) :
    let report := r.reconcile (Server.immediate (serve (calm births))) key
      (attempts.foldl (Attempt.leave key) s, 0)
    let direct := r.reconcile (Server.immediate (serve (calm births'))) key (s, 0)
    report.result = .ok .done ∧
    ∀ k, Agree (s.objects.get? k) (report.state.1.objects.get? k)
      (direct.state.1.objects.get? k) := by
  intro report direct
  have addressed := reachable.addressed
  have progress := progress_attempts addressed ready default Progress.refl
  have ready' := Reconciler.ready_kept progress addressed ready
  obtain ⟨s₁, n₁, run, settlement⟩ := Reconciler.exec_plan_calm default' ready' births 0
  obtain ⟨s₂, n₂, run', settlement'⟩ := Reconciler.exec_plan_calm default' ready births' 0
  rw [target_kept addressed progress] at settlement
  have healed := progress.settlement (Render.apart_roles _ _) (fun _ => contentMatches_wanted)
    settlement
  obtain ⟨result, state⟩ := r.reconcile_immediate (serve (calm births)) key
    (attempts.foldl (Attempt.leave key) s, 0)
  have state' := (r.reconcile_immediate (serve (calm births')) key (s, 0)).2
  refine ⟨by rw [result, run], fun k => ?_⟩
  rw [state, state', run, run']
  exact healed.agree settlement' k

/-- The first role is created, and the acknowledgement is lost. -/
def lostAcknowledgement : Attempt :=
  ⟨⟨Render.roles, {}, by decide⟩,
    fun n => ⟨⟨⟨"early"⟩, .epoch⟩, if n = 3 then some ⟨.connection "reset", true⟩ else none⟩⟩

theorem lostAcknowledgement_healed :
    let r : Reconciler := ⟨Render.roles, {}, by decide⟩
    let births := fun _ => ⟨⟨"late"⟩, .epoch⟩
    let report := r.reconcile (Server.immediate (serve (calm births))) (.cluster "p")
      (lostAcknowledgement.leave (.cluster "p") (new.after installation), 0)
    let direct := r.reconcile (Server.immediate (serve (calm births))) (.cluster "p")
      (new.after installation, 0)
    report.result = .ok .done ∧
    (report.state.1.objects.get? "ClusterRole/rolesync:provider:p:system").map unborn =
      (direct.state.1.objects.get? "ClusterRole/rolesync:provider:p:system").map unborn := by
  intro r births report direct
  have default : ∀ a ∈ [lostAcknowledgement], a.reconciler.render = Render.roles := by
    intro a mem
    cases List.mem_singleton.1 mem
    rfl
  obtain ⟨done, agree⟩ := retry_heals (r := r) ⟨new, installation, .inl rfl, rfl⟩
    ready_installation default rfl births births
  exact ⟨done, agree "ClusterRole/rolesync:provider:p:system"⟩

end ProviderRoles
