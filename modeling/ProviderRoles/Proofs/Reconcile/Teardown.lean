import ProviderRoles.Proofs.Apply.Overwriting
import ProviderRoles.Proofs.Reconcile.Convergence
import ProviderRoles.Proofs.Store.Delays

/-! Objects that are being torn down. A write carries over what the store has set on an object, but
not its deletion timestamp, so an object that is overwritten is no longer being torn down. -/
namespace ProviderRoles

open Apply Store

/-- Since when the object at an address is being torn down. -/
def Store.teardown? (s : Store) (k : String) : Option Timestamp :=
  (s.objects.get? k).bind (·.metadata.deletionTimestamp)

theorem teardown?_some {s : Store} {k : String} {m : Manifest}
    (there : s.objects.get? k = some m) : s.teardown? k = m.metadata.deletionTimestamp := by
  rw [Store.teardown?, there, Option.bind_some]

namespace Reconciler

variable {r : Reconciler} {key : ObjectKey} {revision : Revision} {s : Store}

/-- A reconcile at the key has a role to write over `current`. -/
def Reaches (s : Store) (key : ObjectKey) (k : String) (current : Manifest) : Prop :=
  ∃ revision, Ready s key revision ∧ ∃ o ∈ target s revision, addressOf o = k ∧
    Overwrites [Guard.controllableBy revision.metadata.uid] o current

theorem named_of_mem_target {o : Manifest} (mem : o ∈ target s revision) :
    o.metadata.name.isEmpty = false := by
  obtain ⟨role, rendered, rfl⟩ := List.mem_map.1 mem
  exact (Render.blank_of_mem_roles rendered).named

theorem undeleted_of_mem_target {o : Manifest} (mem : o ∈ target s revision) :
    o.metadata.deletionTimestamp = none := by
  obtain ⟨role, rendered, rfl⟩ := List.mem_map.1 mem
  exact (Render.blank_of_mem_roles rendered).undeleted

variable {k : String} {current : Manifest}

/-- However a reconcile goes, an object that no role is to be written over stays. -/
theorem exec_plan_kept (default : r.render = Render.roles)
    (there : s.objects.get? k = some current) (spared : ¬ Reaches s key k current)
    (meet : Nat → Circumstance) (n : Nat) :
    ((r.plan key).exec (serve meet) (s, n)).2.1.objects.get? k = some current := by
  by_cases ready : ∃ revision, Ready s key revision
  · obtain ⟨revision, ready⟩ := ready
    rcases exec_plan_faulty ready meet n default k with same | ⟨o, mem, here, settled⟩
    · rw [same, there]
    · rw [there] at settled
      generalize ((r.plan key).exec (serve meet) (s, n)).2.1.objects.get? k = after at settled ⊢
      cases settled with
      | kept nothing => rfl
      | overwritten something _ =>
        have overwrites := (overwrites_iff_due (named_of_mem_target mem)).2 something
        exact absurd ⟨revision, ready, o, mem, here.symm, overwrites⟩ spared
  · rw [exec_plan_unready (not_exists.1 ready), there]

/-- An undisturbed reconcile writes over it, and the timestamp is gone. -/
theorem exec_plan_revives (default : r.render = Render.roles)
    (there : s.objects.get? k = some current) (reached : Reaches s key k current)
    (births : Nat → Birth) (n : Nat) :
    ∃ m, ((r.plan key).exec (serve (calm births)) (s, n)).2.1.objects.get? k = some m ∧
      m.metadata.deletionTimestamp = none := by
  obtain ⟨revision, ready, o, mem, rfl, overwrites⟩ := reached
  obtain ⟨s', n', run, settlement⟩ := exec_plan_calm default ready births n
  have settled := settlement.settled o mem
  rw [there] at settled
  rw [run]
  cases after : s'.objects.get? (addressOf o) with
  | none => rw [after] at settled; contradiction
  | some m =>
    refine ⟨m, rfl, ?_⟩
    rw [after] at settled
    cases settled with
    | kept nothing =>
      rw [(overwrites_iff_due overwrites.named).1 overwrites] at nothing
      contradiction
    | overwritten _ same =>
      have times := congrArg (·.metadata.deletionTimestamp) same
      have undeleted := undeleted_of_mem_target mem
      exact times.trans undeleted

end Reconciler

/-- An application or a reconcile leaves an object that is being torn down as it is, whatever its
calls meet, unless it gets to overwriting it. Without faults it then takes the deletion timestamp
away. -/
theorem teardown_kept_unless_overwritten {s : Store} {k : String} {current : Manifest}
    {t : Timestamp} (there : s.objects.get? k = some current)
    (leaving : current.metadata.deletionTimestamp = some t) :
    (∀ object guards, addressOf object = k → object.metadata.deletionTimestamp = none →
      (¬ Overwrites guards object current → ∀ meet n,
        ((apply object guards).exec (serve meet) (s, n)).2.1.teardown? k = some t) ∧
      (Overwrites guards object current → ∀ births n,
        ((apply object guards).exec (serve (calm births)) (s, n)).2.1.teardown? k = none)) ∧
    ∀ r : Reconciler, r.render = Render.roles → ∀ key,
      (¬ Reconciler.Reaches s key k current → ∀ delays meet,
        (r.reconcile (slow delays meet) key (s, 0)).state.1.teardown? k = some t) ∧
      (Reconciler.Reaches s key k current → ∀ births,
        (r.reconcile (Server.immediate (serve (calm births))) key (s, 0)).state.1.teardown? k =
          none) := by
  have before : s.teardown? k = some t := (teardown?_some there).trans leaving
  constructor
  · rintro object guards rfl undeleted
    constructor
    · intro spared meet n
      rw [exec_apply_kept there spared, before]
    · intro overwrites births n
      rw [exec_apply_overwrites there overwrites]
      exact (teardown?_some (get?_write_self s (adopt current object))).trans undeleted
  · intro r default key
    constructor
    · intro spared delays meet
      obtain ⟨meet', state⟩ := r.state_reconcile_slow delays meet key (s, 0)
      rw [state, teardown?_some (Reconciler.exec_plan_kept default there spared meet' 0), leaving]
    · intro reached births
      obtain ⟨m, after, gone⟩ := Reconciler.exec_plan_revives default there reached births 0
      rw [(r.reconcile_immediate (serve (calm births)) key (s, 0)).2, teardown?_some after, gone]

def leavingRole : Manifest :=
  .new "rbac.authorization.k8s.io/v1" "ClusterRole"
    { name := Render.systemRoleName "p", deletionTimestamp := some .epoch }

/-- The provider has come back while its role goes. -/
def comeback : List Turn := ⟨⟨⟨"r"⟩, .epoch⟩, .create leavingRole⟩ :: installation

def replacement : Manifest :=
  .new "rbac.authorization.k8s.io/v1" "ClusterRole"
    { name := Render.systemRoleName "p", labels := .ofList [("a", "b")] }

theorem leavingRole_kept :
    let same := { leavingRole with metadata.deletionTimestamp := none }
    let address := "ClusterRole/rolesync:provider:p:system"
    (∀ meet n, ((apply same []).exec (serve meet) (new.after comeback, n)).2.1.teardown? address =
      some .epoch) ∧
    ∀ delays meet,
      ((⟨Render.roles, {}, by decide⟩ : Reconciler).reconcile (slow delays meet) (.cluster "q")
        (new.after comeback, 0)).state.1.teardown? address = some .epoch := by
  intro same address
  let stored : Manifest :=
    { leavingRole with
      metadata.uid := ⟨"r"⟩
      metadata.resourceVersion := some "1"
      metadata.creationTimestamp := some .epoch }
  have there : (new.after comeback).objects.get? address = some stored := by decide +kernel
  obtain ⟨applications, reconciles⟩ := teardown_kept_unless_overwritten there rfl
  constructor
  · refine (applications same [] rfl rfl).1 fun overwrites => ?_
    have different := overwrites.different
    exact absurd different (by decide)
  · refine (reconciles _ rfl (.cluster "q")).1 ?_
    rintro ⟨revision, ready, _⟩
    obtain ⟨m, found, _⟩ := ready.stored
    contradiction

theorem leavingRole_revived :
    let s := new.after comeback
    let address := "ClusterRole/rolesync:provider:p:system"
    let applied := (apply replacement []).exec (serve (calm fun _ => ⟨⟨"new"⟩, .epoch⟩)) (s, 0)
    let report := (⟨Render.roles, {}, by decide⟩ : Reconciler).reconcile
      (Server.immediate (serve (calm fun _ => ⟨⟨"new"⟩, .epoch⟩))) (.cluster "p") (s, 0)
    s.Reachable ∧ s.teardown? address = some .epoch ∧
    applied.1.isOk = true ∧ applied.2.1.teardown? address = none ∧
    report.result.isOk = true ∧ report.state.1.teardown? address = none := by
  refine ⟨⟨new, comeback, .inl rfl, rfl⟩, ?_⟩
  decide +kernel

end ProviderRoles
