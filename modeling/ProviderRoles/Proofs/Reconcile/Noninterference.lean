import ProviderRoles.Proofs.Plan.Amid
import ProviderRoles.Proofs.Reconcile.Convergence
import ProviderRoles.Proofs.Render.Grouping

/-! What a reconcile depends on. Of the definitions it is the names, groups and plurals of those that
the revision controls, in order, and of the revision its name, its UID, its requests and whether it
is being deleted. Whatever else differs between two stores does not show in the roles. -/
namespace ProviderRoles

open Apply Store

/-- What a role can tell of a definition: name, group and plural. -/
def ResourceDefinition.facets (d : ResourceDefinition) : String × String × String :=
  (d.metadata.name, d.spec.group, d.spec.names.plural)

namespace Render

def rulesOfFacets (facets : List (String × String × String)) (verbs : List String) :
    List PolicyRule :=
  let sorted := facets.mergeSort fun a b => a.1 ≤ b.1
  (sorted.map (·.2.1)).eraseDups.map fun group =>
    { apiGroups := [group]
      resources := (sorted.filter (·.2.1 = group)).flatMap fun f => [f.2.2, f.2.2 ++ "/status"]
      verbs }

theorem resourceRules_eq (definitions : List ResourceDefinition) (verbs : List String) :
    resourceRules definitions verbs = rulesOfFacets (definitions.map (·.facets)) verbs := by
  have sorted : (byName definitions).map (·.facets) =
      (definitions.map (·.facets)).mergeSort fun a b => a.1 ≤ b.1 :=
    List.map_mergeSort fun _ _ _ _ => rfl
  rw [resourceRules_eq_groupedRules]
  unfold groupedRules resourcesOf rulesOfFacets groups
  simp only [← sorted, List.map_map, List.filter_map, List.flatMap_map]
  rfl

theorem roles_congr {revision revision' : Revision} {owned owned' : List ResourceDefinition}
    (name : revision.metadata.name = revision'.metadata.name)
    (requests : revision.status.permissionRequests = revision'.status.permissionRequests)
    (facets : owned.map (·.facets) = owned'.map (·.facets)) :
    roles revision owned = roles revision' owned' := by
  simp only [roles, resourceRules_eq, name, requests, facets]

end Render

theorem wanted_congr {revision revision' : Revision}
    (name : revision.metadata.name = revision'.metadata.name)
    (uid : revision.metadata.uid = revision'.metadata.uid) (roles : List ClusterRole) :
    wanted revision roles = wanted revision' roles := by
  have reference : revision.controllerReference = revision'.controllerReference := by
    simp only [Revision.controllerReference, ObjectMeta.referenceTo, name, uid]
  simp only [wanted, Reconciler.stamp, reference]

/-- A store at which a reconcile comes to know the revision and the definitions. -/
structure Known (s : Store) (key : ObjectKey) (revision : Revision) : Prop where
  stored : ∃ m, s.get (Resource.kind Revision) key = .ok m ∧ m.toResource Revision = .ok revision
  readable : ∀ k m, s.objects.get? k = some m → m.kind = Resource.kind ResourceDefinition →
    ∃ d, m.toResource ResourceDefinition = .ok d

theorem Known.ready {s : Store} {key : ObjectKey} {revision : Revision}
    (known : Known s key revision) (live : revision.metadata.isBeingDeleted = false) :
    Ready s key revision :=
  ⟨known.stored, live, known.readable⟩

/-- Two stores with the same roles, in which the same is owned by revisions that are alike. -/
structure Alike (s s' : Store) (revision revision' : Revision) : Prop where
  roles : ∀ rest, s.objects.get? ("ClusterRole/" ++ rest) = s'.objects.get? ("ClusterRole/" ++ rest)
  name : revision.metadata.name = revision'.metadata.name
  uid : revision.metadata.uid = revision'.metadata.uid
  deleted : revision.metadata.isBeingDeleted = revision'.metadata.isBeingDeleted
  requests : revision.status.permissionRequests = revision'.status.permissionRequests
  owned : (controlledBy s.definitions revision.metadata.uid).map (·.facets) =
    (controlledBy s'.definitions revision'.metadata.uid).map (·.facets)

namespace Reconciler

variable {r r' : Reconciler} {s s' : Store} {key : ObjectKey} {revision revision' : Revision}

theorem target_congr (alike : Alike s s' revision revision') :
    target s revision = target s' revision' := by
  unfold target
  rw [Render.roles_congr alike.name alike.requests alike.owned]
  exact wanted_congr alike.name alike.uid _

theorem exec_plan_deleted (known : Known s key revision)
    (deleted : revision.metadata.isBeingDeleted = true) (births : Nat → Birth) (n : Nat) :
    (r.plan key).exec (serve (calm births)) (s, n) = (.ok .done, s, n + 1) := by
  obtain ⟨m, there, decoded⟩ := known.stored
  have found := typed_eq_ok decoded
  simp only [plan, Plan.exec_bind', Plan.exec_get, serve_calm, perform, there, Except.bind, found,
    deleted, ↓reduceIte]
  rfl

/-- Either nothing is done at all, or all that is wanted is settled. -/
theorem exec_plan_known (default : r.render = Render.roles) (known : Known s key revision)
    (births : Nat → Birth) : ∃ final n,
    (r.plan key).exec (serve (calm births)) (s, 0) = (.ok .done, final, n) ∧
    UidsFrom births s final ∧
    (revision.metadata.isBeingDeleted = true → final = s) ∧
    (revision.metadata.isBeingDeleted = false →
      Settlement revision.metadata.uid (target s revision) s final) := by
  cases deleted : revision.metadata.isBeingDeleted with
  | true =>
    refine ⟨s, 1, exec_plan_deleted known deleted births 0, .refl, fun _ => rfl, ?_⟩
    intro live
    contradiction
  | false =>
    obtain ⟨final, n, run, settled⟩ := exec_plan_inTurn default (known.ready deleted) births 0
    have uids := settled.uidsFrom fun _ => Render.anonymous_of_mem_wanted
    refine ⟨final, n, run, uids, ?_, fun _ => settled.settlement (Render.apart_roles ..)⟩
    intro gone
    contradiction

/-- Two undisturbed reconciles report the same and leave the same roles, unless the stores differ in
what the roles are made from. Definitions that the revision does not control make no difference,
nor do the other objects. -/
theorem reconcile_noninterfering (default : r.render = Render.roles)
    (default' : r'.render = Render.roles) (known : Known s key revision)
    (known' : Known s' key revision') (alike : Alike s s' revision revision')
    (births births' : Nat → Birth) :
    let report := r.reconcile (Server.immediate (serve (calm births))) key (s, 0)
    let report' := r'.reconcile (Server.immediate (serve (calm births'))) key (s', 0)
    report.result = report'.result ∧
    (∀ rest, Agree (s.objects.get? ("ClusterRole/" ++ rest))
      (report.state.1.objects.get? ("ClusterRole/" ++ rest))
      (report'.state.1.objects.get? ("ClusterRole/" ++ rest))) ∧
    UidsFrom births s report.state.1 ∧ UidsFrom births' s' report'.state.1 := by
  intro report report'
  obtain ⟨result, state⟩ := r.reconcile_immediate (serve (calm births)) key (s, 0)
  obtain ⟨result', state'⟩ := r'.reconcile_immediate (serve (calm births')) key (s', 0)
  obtain ⟨final, n, run, uids, gone, settlement⟩ := exec_plan_known default known births
  obtain ⟨final', n', run', uids', gone', settlement'⟩ := exec_plan_known default' known' births'
  rw [run] at result state
  rw [run'] at result' state'
  rw [show report.state.1 = final by rw [state], show report'.state.1 = final' by rw [state']]
  refine ⟨result.trans result'.symm, fun rest => ?_, uids, uids'⟩
  have before := alike.roles rest
  have deletion := alike.deleted
  cases deleted : revision.metadata.isBeingDeleted with
  | true =>
    rw [deleted] at deletion
    rw [gone deleted, gone' deletion.symm, ← before]
    exact .refl
  | false =>
    rw [deleted] at deletion
    have here := settlement deleted
    have there := settlement' deletion.symm
    rw [← target_congr alike, ← alike.uid] at there
    -- Both reconciles settle the same objects, and from the same entry.
    by_cases mem : ∃ o ∈ target s revision, "ClusterRole/" ++ rest = addressOf o
    · obtain ⟨o, mem, place⟩ := mem
      have settled := here.settled o mem
      have settled' := there.settled o mem
      rw [← place] at settled settled'
      rw [← before] at settled'
      exact settled.agree settled'
    · have other : ∀ o ∈ target s revision, "ClusterRole/" ++ rest ≠ addressOf o :=
        fun o isIn same => mem ⟨o, isIn, same⟩
      rw [here.rest _ other, there.rest _ other, ← before]
      exact .refl

end Reconciler

/-- A definition that two claim as controllers, an object of no concern, and labels on the
revision. -/
def crowd : List Turn :=
  [⟨⟨⟨"c"⟩, .epoch⟩, .create
      { Manifest.new "apiextensions.k8s.io/v1" "CustomResourceDefinition"
          { name := "apples.example.org"
            ownerReferences := [provider.controllerReference,
              { provider.controllerReference with uid := ⟨"other"⟩ }] } with
        data := .ofList
          [("spec", DefinitionSpec.encode
              { group := "example.org", names := { kind := "Apple", plural := "apples" } })] }⟩,
   ⟨⟨⟨"m"⟩, .epoch⟩, .create (.new "v1" "ConfigMap" (.named "p"))⟩,
   ⟨⟨⟨"q"⟩, .epoch⟩, .update (.new "pkg.rolesync.io/v1alpha1" "ProviderRevision"
      { name := "p", labels := .ofList [("team", "red")] })⟩]

def labelledProvider : Revision :=
  { metadata :=
      { provider.metadata with
        resourceVersion := some "6", labels := .ofList [("team", "red")] } }

theorem known_crowd :
    Known (new.after (installation ++ crowd)) (.cluster "p") labelledProvider := by
  refine ⟨⟨_, rfl, rfl⟩, readable_of_entries ?_⟩
  decide +kernel

theorem alike_crowd : Alike (new.after installation) (new.after (installation ++ crowd)) provider
    labelledProvider := by
  constructor
  · intro rest
    have meanwhile : Meanwhile (fun c => c ∈ crowd.map (·.call)) (new.after installation)
        (new.after (installation ++ crowd)) :=
      ⟨crowd, fun t mem => List.mem_map_of_mem mem, after_append ..⟩
    have elsewhere : ∀ t ∈ crowd, '/' ∉ t.call.kind.toList ∧
        t.call.kind ≠ Resource.kind ClusterRole := by decide +kernel
    refine (meanwhile.get? fun c mem target => ?_).symm
    obtain ⟨t, isIn, rfl⟩ := List.mem_map.1 mem
    obtain ⟨plain, other⟩ := elsewhere t isIn
    obtain ⟨key, same⟩ := Call.address_of_target target
    have role : address (Resource.kind ClusterRole) (.cluster rest) = "ClusterRole/" ++ rest := rfl
    exact other (kind_eq_of_address_eq plain (by decide) (same.symm.trans role.symm))
  · rfl
  · rfl
  · rfl
  · rfl
  · have alone : (new.after installation).list (Resource.kind ResourceDefinition) .all =
        ((new.after installation).objects.toList.map Prod.snd).filter fun m =>
          m.kind = Resource.kind ResourceDefinition && Selector.all.selects m.metadata :=
      List.mergeSort_of_pairwise (by decide +kernel)
    have crowded : (new.after (installation ++ crowd)).list (Resource.kind ResourceDefinition) .all =
        ((new.after (installation ++ crowd)).objects.toList.map Prod.snd).filter fun m =>
          m.kind = Resource.kind ResourceDefinition && Selector.all.selects m.metadata :=
      List.mergeSort_of_pairwise (by decide +kernel)
    rw [Store.definitions, Store.definitions, alone, crowded]
    decide +kernel

theorem crowd_unnoticed :
    let births : Nat → Birth := fun _ => ⟨⟨"new"⟩, .epoch⟩
    let r : Reconciler := ⟨Render.roles, {}, by decide⟩
    let report := r.reconcile (Server.immediate (serve (calm births))) (.cluster "p")
      (new.after installation, 0)
    let report' := r.reconcile (Server.immediate (serve (calm births))) (.cluster "p")
      (new.after (installation ++ crowd), 0)
    let edit := "ClusterRole/rolesync:provider:p:aggregate-to-edit"
    report.result = report'.result ∧
    (report.state.1.objects.get? edit).map unborn =
      (report'.state.1.objects.get? edit).map unborn := by
  intro births r report report' edit
  have known : Known (new.after installation) (.cluster "p") provider :=
    ⟨ready_installation.stored, ready_installation.readable⟩
  have default : r.render = Render.roles := rfl
  obtain ⟨result, roles, _⟩ := Reconciler.reconcile_noninterfering default default known known_crowd
    alike_crowd births births
  exact ⟨result, roles "rolesync:provider:p:aggregate-to-edit"⟩

end ProviderRoles
