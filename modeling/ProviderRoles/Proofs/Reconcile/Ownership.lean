import ProviderRoles.Proofs.Reconcile.Outcome

/-! Who controls the roles that a reconcile writes. Whatever it writes carries the references of a
rendered role with the revision stamped on them, and the store keeps them as they are. -/
namespace ProviderRoles

def Call.sent? : Call → Option Manifest
  | .create o | .update o => some o
  | .get .. | .list .. | .delete .. => none

theorem Call.target_of_sent {c : Call} {o : Manifest} (sent : c.sent? = some o) :
    c.target? = some (Store.addressOf o) := by
  cases c with
  | get kind key | list kind selector | delete kind key => contradiction
  | create m | update m =>
    cases sent
    rfl

theorem ownerReferences_of_writtenBy {s : Store} {birth : Birth} {c : Call} {o stored : Manifest}
    (sent : c.sent? = some o) (written : Store.writtenBy c (s.perform birth c).1 = some stored) :
    stored.metadata.ownerReferences = o.metadata.ownerReferences := by
  have effect := Store.effect_perform birth s c
  generalize s.perform birth c = done at effect written
  cases effect with
  | refused e =>
    rw [Store.writtenBy_error] at written
    contradiction
  | got _ | listed | deleted _ => contradiction
  | created _ _ | updated _ _ _ =>
    cases sent
    cases written
    rfl

theorem Apply.Course.ownerReferences {object o : Manifest} {guards : List Guard}
    {calls : List Completed} {result : Except ApplyError Manifest} {x : Completed}
    (h : Course object guards calls result) (mem : x ∈ calls) (sent : x.call.sent? = some o) :
    o.metadata.ownerReferences = object.metadata.ownerReferences := by
  cases h with
  | missing reply _ =>
    rcases List.mem_pair.1 mem with rfl | rfl
    · contradiction
    · cases sent
      rfl
  | unread _ | refused _ | equal _ _ =>
    cases List.mem_singleton.1 mem
    contradiction
  | different reply _ _ =>
    rcases List.mem_pair.1 mem with rfl | rfl
    · contradiction
    · cases sent
      rfl

theorem HasRead.of_append {key : ObjectKey} {calls later : List Completed} {revision : Revision}
    {definitions : List ResourceDefinition} {x : Completed} {k : String}
    (h : HasRead key (calls ++ later) revision definitions) (mem : x ∈ calls)
    (target : x.call.target? = some k) : HasRead key calls revision definitions := by
  obtain ⟨m, ms, rest, read, found, decoded⟩ := h
  -- A call that writes is not one of the first two, so these are among `calls`.
  cases calls with
  | nil => contradiction
  | cons first calls =>
    obtain ⟨rfl, others⟩ := List.cons.inj read
    rcases List.mem_cons.1 mem with rfl | mem
    · contradiction
    · cases calls with
      | nil => contradiction
      | cons second calls =>
        obtain ⟨rfl, _⟩ := List.cons.inj others
        exact ⟨m, ms, calls, rfl, found, decoded⟩

namespace Reconciler

variable {revision : Revision} {calls : List Completed} {x : Completed} {o : Manifest}

theorem Visit.ownerReferences {role : ClusterRole} {result : Except ApplyError Manifest}
    (h : Visit revision role calls result) (mem : x ∈ calls) (sent : x.call.sent? = some o) :
    o.metadata.ownerReferences = (stamp revision role).metadata.ownerReferences := by
  cases h with
  | unwritable _ => contradiction
  | applied written course =>
    rw [course.ownerReferences mem sent, (Manifest.ofResource_eq_ok written).2]
    rfl

theorem visit_of_target {σ : Type} {r : Reconciler} {serve : Server σ} {key : ObjectKey} {s : σ}
    {k : String} (mem : x ∈ (r.reconcile serve key s).calls) (target : x.call.target? = some k) :
    ∃ revision definitions, HasRead key (r.reconcile serve key s).calls revision definitions ∧
      ∃ role ∈ r.render revision (controlledBy definitions revision.metadata.uid),
        ∃ made result, Visit revision role made result ∧ x ∈ made := by
  have follows := Plan.follows_run serve (some r.timing.timeout.toNat) (r.plan key) 0 s
  rw [← calls_reconcile] at follows
  obtain ⟨later, result, ends⟩ := follows.extends
  obtain ⟨ending, course, _⟩ := course_of_ends ends
  obtain ⟨revision, definitions, read, visited⟩ :=
    course.visit (List.mem_append_left later mem) target
  exact ⟨revision, definitions, read.of_append mem target, visited⟩

/-- Given up or not, a reconcile sends no object without the stamp of the revision that it has
read. -/
theorem ownerReferences_of_sent {σ : Type} {r : Reconciler} {serve : Server σ} {key : ObjectKey}
    {s : σ} (mem : x ∈ (r.reconcile serve key s).calls) (sent : x.call.sent? = some o) :
    ∃ revision definitions, HasRead key (r.reconcile serve key s).calls revision definitions ∧
      ∃ role ∈ r.render revision (controlledBy definitions revision.metadata.uid),
        o.metadata.ownerReferences = (stamp revision role).metadata.ownerReferences := by
  obtain ⟨revision, definitions, read, role, rendered, _, _, visit, made⟩ :=
    visit_of_target mem (Call.target_of_sent sent)
  exact ⟨revision, definitions, read, role, rendered, visit.ownerReferences made sent⟩

/-- A stamped reference is the first flagged one, and the others are those that had its UID and
were not the first with it. Only if there are none does the owner control the object, and only
then may it overwrite later what a store has kept of its own write. -/
theorem stamped_controllable_iff (m : ObjectMeta) {reference : OwnerReference}
    (flagged : reference.isController = true) {σ : Type} (r : Reconciler) (serve : Server σ)
    (key : ObjectKey) (s : σ) :
    let calls := (r.reconcile serve key s).calls
    let stamped := (m.setController reference).ownerReferences
    controllers stamped = reference :: controllers (furtherOf reference.uid m.ownerReferences) ∧
    (isControlledBy stamped reference.uid = true ↔
      controllers (furtherOf reference.uid m.ownerReferences) = []) ∧
    ∀ x ∈ calls, ∀ o, x.call.sent? = some o →
      ∃ revision definitions, HasRead key calls revision definitions ∧
        ∃ role ∈ r.render revision (controlledBy definitions revision.metadata.uid),
          ∀ (store : Store) birth stored,
            Store.writtenBy x.call (store.perform birth x.call).1 = some stored →
            ∀ desired,
              (Guard.all [Guard.controllableBy revision.metadata.uid] stored desired = .ok () ↔
                controllers (furtherOf revision.metadata.uid role.metadata.ownerReferences) =
                  []) := by
  intro calls stamped
  refine ⟨controllers_stampController _ flagged, isControlledBy_stampController flagged, ?_⟩
  intro x mem o sent
  obtain ⟨revision, definitions, read, role, rendered, same⟩ := ownerReferences_of_sent mem sent
  refine ⟨revision, definitions, read, role, rendered, ?_⟩
  intro store birth stored written desired
  have owned : revision.controllerReference.isController = true := rfl
  rw [all_controllableBy_iff, ownerReferences_of_writtenBy sent written, same]
  exact isControllableBy_stampController owned

theorem plainly_owned_stamped :
    let owner := provider.metadata.referenceTo Revision.gvk
    let m : ObjectMeta := { name := "role", ownerReferences := [owner, owner] }
    let calls := ((⟨Render.roles, {}, by decide⟩ : Reconciler).reconcile unkind (.cluster "p")
      ()).calls
    isControlledBy (m.setController provider.controllerReference).ownerReferences ⟨"p"⟩ = true ∧
    ∃ revision definitions, HasRead (.cluster "p") calls revision definitions := by
  intro owner m calls
  have flagged : provider.controllerReference.isController = true := rfl
  obtain ⟨_, controlled, sent⟩ := stamped_controllable_iff m flagged
    ⟨Render.roles, {}, by decide⟩ unkind (.cluster "p") ()
  constructor
  · exact controlled.2 rfl
  · have writes : calls.any (·.call.sent?.isSome) = true := by decide +kernel
    obtain ⟨x, mem, some⟩ := List.any_eq_true.1 writes
    obtain ⟨o, sends⟩ := Option.isSome_iff_exists.1 some
    obtain ⟨revision, definitions, read, _⟩ := sent x mem o sends
    exact ⟨revision, definitions, read⟩

/-- A renderer whose role has the revision as a plain owner and as controller already. -/
def doublyOwned : Renderer := fun revision _ =>
  [{ metadata :=
      { name := "role"
        ownerReferences :=
          [revision.metadata.referenceTo Revision.gvk, revision.controllerReference] } }]

/-- The revision is locked out of the role that it has just created. -/
theorem doublyOwned_locked_out :
    let r := provider.controllerReference
    let refs := [provider.metadata.referenceTo Revision.gvk, r]
    let report := (⟨doublyOwned, {}, by decide⟩ : Reconciler).reconcile
      (Server.immediate (Store.serve (Store.calm fun _ => ⟨⟨"new"⟩, .epoch⟩))) (.cluster "p")
      (Store.new.after installation, 0)
    r.isController = true ∧ controllers (stampController refs r) = [r, r] ∧
    isControlledBy (stampController refs r) r.uid = false ∧
    report.result = .ok .done ∧
    ((report.state.1.get "ClusterRole" (.cluster "role")).toOption.any fun stored =>
      !isControllableBy stored.metadata.ownerReferences r.uid) = true := by
  decide +kernel

end Reconciler

end ProviderRoles
