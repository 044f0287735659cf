import ProviderRoles.Proofs.Plan.Immediate
import ProviderRoles.Proofs.Reconcile.Run

/-! Where an undisturbed reconcile ends, from any store that calls can lead to. -/
namespace ProviderRoles

open Apply Store

/-- The object says what the role says in its written form, and that the revision alone owns it. -/
structure Realizes (revision : Revision) (written m : Manifest) : Prop where
  apiVersion : m.apiVersion = written.apiVersion
  labels : m.metadata.labels = written.metadata.labels
  annotations : m.metadata.annotations = written.metadata.annotations
  data : m.data = written.data
  owners : m.metadata.ownerReferences = [revision.controllerReference]

theorem realizes_of_contentMatches {revision : Revision} {role : ClusterRole} {m : Manifest}
    (blank : Blank role)
    (equal : Manifest.contentMatches m (Reconciler.stamp revision role).manifest = true) :
    Realizes revision role.manifest m := by
  obtain ⟨apiVersion, labels, annotations, owners, data⟩ := ClusterRole.contentMatches_iff.1 equal
  exact ⟨apiVersion, labels, annotations, data, owners.trans (ownerReferences_stamp blank)⟩

namespace Reconciler

/-- An undisturbed reconcile comes to an end, and then every role that the revision may write is
as it should be by the definitions that the revision controls. Nothing else has changed. -/
theorem reconcile_converges {r : Reconciler} (default : r.render = Render.roles) {s : Store}
    (reachable : s.Reachable) {key : ObjectKey} {revision : Revision}
    (ready : Ready s key revision) (births : Nat → Birth) :
    let report := r.reconcile (Server.immediate (serve (calm births))) key (s, 0)
    let final := report.state.1
    let owned := controlledBy final.definitions revision.metadata.uid
    report.result = .ok .done ∧
    (∀ d, d ∈ owned ↔
      (∃ k m, final.objects.get? k = some m ∧ m.kind = Resource.kind ResourceDefinition ∧
        m.toResource ResourceDefinition = .ok d) ∧
      isControlledBy d.metadata.ownerReferences revision.metadata.uid = true) ∧
    (∀ role ∈ Render.roles revision owned, ∃ written, Manifest.ofResource role = .ok written ∧
      let before := s.objects.get? (addressOf written)
      let mine := before.all (isControllableBy ·.metadata.ownerReferences revision.metadata.uid)
      (mine = true →
        ∃ m, final.objects.get? (addressOf written) = some m ∧ Realizes revision written m) ∧
      (mine = false → final.objects.get? (addressOf written) = before)) ∧
    ∀ k, (∀ role ∈ Render.roles revision owned,
        k ≠ address (Resource.kind ClusterRole) role.metadata.key) →
      final.objects.get? k = s.objects.get? k := by
  intro report final owned
  obtain ⟨result, state⟩ := r.reconcile_immediate (serve (calm births)) key (s, 0)
  obtain ⟨s', n', run, settlement⟩ := exec_plan_calm default ready births 0
  have ends : final = s' := by
    show report.state.1 = s'
    rw [state, run]
  have same : final.definitions = s.definitions := by
    rw [ends]
    exact definitions_kept settlement.progress reachable.addressed
  refine ⟨by rw [result, run], fun d => ?_, fun role mem => ?_, fun k others => ?_⟩
  · rw [← mem_definitions]
    exact List.mem_filter
  · have blank := Render.blank_of_mem_roles mem
    have mem' : (stamp revision role).manifest ∈ target s revision := by
      rw [target, ← same]
      exact List.mem_map_of_mem mem
    have settled := settlement.settled _ mem'
    refine ⟨role.manifest, ClusterRole.ofResource_eq blank.uncreated blank.undeleted, ?_, ?_⟩
    · intro mine
      obtain ⟨m, there, equal⟩ := settled.content (contentMatches_wanted mem') mine
      rw [ends]
      exact ⟨m, there, realizes_of_contentMatches blank equal⟩
    · intro foreign
      rw [ends]
      exact settled.refused foreign
  · rw [ends]
    refine settlement.rest k fun o mem => ?_
    rw [target, ← same] at mem
    obtain ⟨role, isIn, rfl⟩ := List.mem_map.1 mem
    exact others role isIn

end Reconciler

def provider : Revision :=
  { metadata :=
      { name := "p", uid := ⟨"p"⟩, resourceVersion := some "1"
        creationTimestamp := some .epoch } }

/-- A provider and its definition come to a store where someone else has the role for viewers. -/
def installation : List Turn :=
  [⟨⟨⟨"p"⟩, .epoch⟩, .create (.new "pkg.rolesync.io/v1alpha1" "ProviderRevision" (.named "p"))⟩,
   ⟨⟨⟨"d"⟩, .epoch⟩, .create
      { Manifest.new "apiextensions.k8s.io/v1" "CustomResourceDefinition"
          { name := "buckets.example.org", ownerReferences := [provider.controllerReference] } with
        data := .ofList
          [("spec", DefinitionSpec.encode
              { group := "example.org", names := { kind := "Bucket", plural := "buckets" } })] }⟩,
   ⟨⟨⟨"v"⟩, .epoch⟩, .create (.new "rbac.authorization.k8s.io/v1" "ClusterRole"
      { name := "rolesync:provider:p:aggregate-to-view"
        ownerReferences := [{ provider.controllerReference with uid := ⟨"other"⟩ }] })⟩]

theorem ready_installation : Ready (new.after installation) (.cluster "p") provider := by
  refine ⟨⟨_, rfl, rfl⟩, rfl, readable_of_entries ?_⟩
  decide +kernel

theorem installation_converges :
    let report := (⟨Render.roles, {}, by decide⟩ : Reconciler).reconcile
      (Server.immediate (serve (calm fun _ => ⟨⟨"new"⟩, .epoch⟩))) (.cluster "p")
      (new.after installation, 0)
    report.result = .ok .done ∧
    (∃ m, report.state.1.objects.get? "ClusterRole/rolesync:provider:p:aggregate-to-edit" =
        some m ∧
      m.metadata.ownerReferences = [provider.controllerReference]) ∧
    report.state.1.objects.get? "ClusterRole/rolesync:provider:p:aggregate-to-view" =
      (new.after installation).objects.get?
        "ClusterRole/rolesync:provider:p:aggregate-to-view" := by
  intro report
  obtain ⟨done, _, roles, _⟩ :=
    Reconciler.reconcile_converges (r := ⟨Render.roles, {}, by decide⟩) rfl
      ⟨new, installation, .inl rfl, rfl⟩ ready_installation fun _ => ⟨⟨"new"⟩, .epoch⟩
  refine ⟨done, ?_, ?_⟩
  · obtain ⟨written, form, edit, _⟩ := roles _ (List.mem_cons_of_mem _ List.mem_cons_self)
    cases form
    obtain ⟨m, there, realizes⟩ := edit rfl
    exact ⟨m, there, realizes.owners⟩
  · obtain ⟨written, form, _, view⟩ :=
      roles _ (List.mem_cons_of_mem _ (List.mem_cons_of_mem _ List.mem_cons_self))
    cases form
    exact view rfl

end ProviderRoles
