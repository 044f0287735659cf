import ProviderRoles.Proofs.Apply.Settlement
import ProviderRoles.Proofs.Kind.ClusterRole
import ProviderRoles.Proofs.Store.Listing
import ProviderRoles.Reconcile.Basic

/-! The loop over the rendered roles. Each of them is stamped and applied on its own, under a name
that no other one has. -/
namespace ProviderRoles

open Apply Store

/-- Where the role is kept. -/
def ClusterRole.address (role : ClusterRole) : String :=
  Store.address (Resource.kind ClusterRole) role.metadata.key

theorem address_ne_role {kind : String} (plain : '/' ∉ kind.toList)
    (other : kind ≠ Resource.kind ClusterRole) (key : ObjectKey) (role : ClusterRole) :
    Store.address kind key ≠ role.address := by
  intro same
  exact other (kind_eq_of_address_eq plain (by decide) same)

/-- Nothing but roles has changed. -/
def SameButRoles (s s' : Store) : Prop :=
  ∀ k, (∀ role : ClusterRole, k ≠ role.address) → s'.objects.get? k = s.objects.get? k

section

variable {s s' : Store} (h : SameButRoles s s') {kind : String} (plain : '/' ∉ kind.toList)
  (other : kind ≠ Resource.kind ClusterRole)
include h plain other

theorem SameButRoles.get (key : ObjectKey) : s'.get kind key = s.get kind key := by
  have entry := h _ (address_ne_role plain other key)
  simp only [Store.get, entry]

theorem SameButRoles.list (addressed : s.Addressed) (addressed' : s'.Addressed)
    (selector : Selector) : s'.list kind selector = s.list kind selector := by
  have nothing : ∀ t : Store, t.Addressed → ∀ role : ClusterRole,
      (t.objects.get? role.address).filter (·.kind = kind) = none := by
    intro t addressed role
    refine Option.filter_eq_none_iff.2 fun m there same => ?_
    have place : role.address = Store.address kind m.key :=
      of_decide_eq_true same ▸ addressed role.address m there
    exact address_ne_role plain other m.key role place.symm
  refine list_congr selector fun k => ?_
  by_cases role : ∃ role : ClusterRole, k = role.address
  · obtain ⟨role, rfl⟩ := role
    rw [nothing s' addressed' role, nothing s addressed role]
  · rw [h k fun r here => role ⟨r, here⟩]

end

/-! What every reconcile reads first. -/

theorem SameButRoles.get_revision {s s' : Store} (h : SameButRoles s s') (key : ObjectKey) :
    s'.get (Resource.kind Revision) key = s.get (Resource.kind Revision) key :=
  h.get (by decide) (by decide) key

theorem SameButRoles.list_definitions {s s' : Store} (h : SameButRoles s s')
    (addressed : s.Addressed) (addressed' : s'.Addressed) :
    s'.list (Resource.kind ResourceDefinition) .all =
      s.list (Resource.kind ResourceDefinition) .all :=
  h.list (by decide) (by decide) addressed addressed' .all

/-- A role as it comes from a renderer: it has a name and nothing that a store or an owner gives. -/
structure Blank (role : ClusterRole) : Prop where
  named : role.metadata.name.isEmpty = false
  uncreated : role.metadata.creationTimestamp = none
  undeleted : role.metadata.deletionTimestamp = none
  unowned : role.metadata.ownerReferences = []

/-- The objects that are applied for the roles. -/
def wanted (revision : Revision) (roles : List ClusterRole) : List Manifest :=
  roles.map fun role => (Reconciler.stamp revision role).manifest

theorem contentMatches_wanted {revision : Revision} {roles : List ClusterRole} {o : Manifest}
    (mem : o ∈ wanted revision roles) : Manifest.contentMatches o o = true := by
  obtain ⟨role, _, rfl⟩ := List.mem_map.1 mem
  exact ClusterRole.contentMatches_manifest _

/-- The stamp is the only owner reference. -/
theorem ownerReferences_stamp {revision : Revision} {role : ClusterRole} (blank : Blank role) :
    (Reconciler.stamp revision role).metadata.ownerReferences = [revision.controllerReference] := by
  rw [Reconciler.stamp, ObjectMeta.setController, blank.unowned]
  rfl

namespace Render

theorem isEmpty_roleName (revision suffix : String) :
    (roleName revision suffix).isEmpty = false := by
  rw [Bool.eq_false_iff, ne_eq, String.isEmpty_iff]
  intro nothing
  have start := (String.append_eq_empty_iff.1 (String.append_eq_empty_iff.1 nothing).1).1
  exact absurd start (by decide)

theorem blank_of_mem_roles {revision : Revision} {definitions : List ResourceDefinition}
    {role : ClusterRole} (mem : role ∈ roles revision definitions) : Blank role := by
  simp only [roles, List.mem_cons, List.not_mem_nil, or_false] at mem
  rcases mem with rfl | rfl | rfl
  · exact ⟨isEmpty_roleName .., rfl, rfl, rfl⟩
  · exact ⟨isEmpty_roleName .., rfl, rfl, rfl⟩
  · exact ⟨isEmpty_roleName .., rfl, rfl, rfl⟩

theorem anonymous_of_mem_wanted {revision : Revision} {definitions : List ResourceDefinition}
    {o : Manifest} (mem : o ∈ wanted revision (roles revision definitions)) :
    o.metadata.uid.isEmpty = true := by
  simp only [roles, wanted, List.map_cons, List.map_nil, List.mem_cons, List.not_mem_nil,
    or_false] at mem
  rcases mem with rfl | rfl | rfl <;> rfl

theorem address_roleName_ne {revision suffix suffix' : String} (other : suffix ≠ suffix') :
    address (Resource.kind ClusterRole) (.cluster (roleName revision suffix)) ≠
      address (Resource.kind ClusterRole) (.cluster (roleName revision suffix')) := by
  intro same
  have names := (String.append_right_inj _).1 same
  exact other ((String.append_right_inj _).1 names)

/-- The three roles lie at three addresses. -/
theorem apart_roles (revision : Revision) (definitions : List ResourceDefinition) :
    Apart (wanted revision (roles revision definitions)) := by
  refine .cons (fun o mem => ?_) (.cons (fun o mem => ?_) (List.pairwise_singleton _ _))
  · simp only [List.map_cons, List.map_nil, List.mem_cons, List.not_mem_nil, or_false] at mem
    rcases mem with rfl | rfl
    · exact address_roleName_ne (by decide)
    · exact address_roleName_ne (by decide)
  · simp only [List.map_cons, List.map_nil, List.mem_cons, List.not_mem_nil, or_false] at mem
    rcases mem with rfl
    exact address_roleName_ne (by decide)

theorem pairwise_roles (revision : Revision) (definitions : List ResourceDefinition) :
    (roles revision definitions).Pairwise fun a b => a.address ≠ b.address := by
  have apart := apart_roles revision definitions
  rw [Apart, wanted, List.pairwise_map] at apart
  exact apart

def suffixes : List String := [":system", ":aggregate-to-edit", ":aggregate-to-view"]

theorem key_of_mem_roles {revision : Revision} {definitions : List ResourceDefinition}
    {role : ClusterRole} (mem : role ∈ roles revision definitions) :
    ∃ suffix ∈ suffixes, role.metadata.key = .cluster (roleName revision.metadata.name suffix) := by
  simp only [roles, List.mem_cons, List.not_mem_nil, or_false] at mem
  rcases mem with rfl | rfl | rfl
  · exact ⟨":system", by decide, rfl⟩
  · exact ⟨":aggregate-to-edit", by decide, rfl⟩
  · exact ⟨":aggregate-to-view", by decide, rfl⟩

/-- The last letter of a role's name tells its suffix, whatever the revision is called. -/
theorem eq_of_roleName_eq {name name' suffix suffix' : String} (mem : suffix ∈ suffixes)
    (mem' : suffix' ∈ suffixes) (same : roleName name suffix = roleName name' suffix') :
    name = name' := by
  have ending : ∀ name, ∀ suffix ∈ suffixes,
      (roleName name suffix).toList.getLast? = suffix.toList.getLast? := by
    intro name suffix mem
    have some : ∀ suffix ∈ suffixes, suffix.toList.getLast?.isSome = true := by simp [suffixes]
    unfold roleName
    rw [String.toList_append, List.getLast?_append, Option.or_of_isSome (some _ mem)]
  have letters : ∀ suffix ∈ suffixes, ∀ suffix' ∈ suffixes,
      suffix.toList.getLast? = suffix'.toList.getLast? → suffix = suffix' := by simp [suffixes]
  have letter := congrArg (·.toList.getLast?) same
  simp only [ending _ _ mem, ending _ _ mem'] at letter
  cases letters _ mem _ mem' letter
  exact (String.append_right_inj _).1 ((String.append_left_inj _).1 same)

/-- Revisions of different names have no role at the same address. -/
theorem name_eq_of_address_eq {revision revision' : Revision}
    {definitions definitions' : List ResourceDefinition} {role role' : ClusterRole}
    (mem : role ∈ roles revision definitions) (mem' : role' ∈ roles revision' definitions')
    (same : role.address = role'.address) : revision.metadata.name = revision'.metadata.name := by
  obtain ⟨suffix, isSuffix, key⟩ := key_of_mem_roles mem
  obtain ⟨suffix', isSuffix', key'⟩ := key_of_mem_roles mem'
  rw [ClusterRole.address, ClusterRole.address, key, key'] at same
  exact eq_of_roleName_eq isSuffix isSuffix' ((String.append_right_inj _).1 same)

end Render

namespace Reconciler

variable {revision : Revision} {role : ClusterRole} {roles : List ClusterRole} {s : Store}

theorem applyRole_eq (blank : Blank role) :
    applyRole revision role =
      Apply.apply (stamp revision role).manifest
        [Guard.controllableBy revision.metadata.uid] := by
  have manifest : Manifest.ofResource (stamp revision role) = .ok (stamp revision role).manifest :=
    ClusterRole.ofResource_eq blank.uncreated blank.undeleted
  rw [applyRole, manifest]

/-- Without faults all roles are settled, in spite of conflicts. -/
theorem exec_applyRoles_calm (births : Nat → Birth) (blank : ∀ role ∈ roles, Blank role)
    (tally : Tally) (n : Nat) :
    ∃ tally' s' n',
      (applyRoles revision roles tally).exec (serve (calm births)) (s, n) =
        (.ok tally', s', n') ∧
      SettledInTurn births revision.metadata.uid (wanted revision roles) s s' := by
  induction roles generalizing tally s n with
  | nil => exact ⟨tally, s, n, rfl, .nil⟩
  | cons role roles ih =>
    obtain ⟨first, others⟩ := List.forall_mem_cons.1 blank
    obtain ⟨result, n₁, i, applied, conflict⟩ := exec_apply_calm (s := s) births
      revision.metadata.uid (o := (stamp revision role).manifest) first.named n
    rw [applyRoles, Plan.exec_bind', applyRole_eq first, applied]
    cases result with
    | ok stored =>
      obtain ⟨tally', s', n', run, settled⟩ := ih others _ n₁
      exact ⟨tally', s', n', run, .cons i settled⟩
    | error e =>
      obtain ⟨tally', s', n', run, settled⟩ := ih others _ n₁
      simp only [conflict e rfl, ↓reduceIte]
      exact ⟨tally', s', n', run, .cons i settled⟩

/-- What every application of a role keeps to, the whole loop keeps to, faults or not. -/
theorem exec_applyRoles_steps {meet : Nat → Circumstance} (R : Store → Store → Prop)
    (refl : ∀ s, R s s) (trans : ∀ {s t u}, R s t → R t u → R s u)
    (step : ∀ role ∈ roles, ∀ s n,
      R s ((applyRole revision role).exec (serve meet) (s, n)).2.1) (tally : Tally) (n : Nat) :
    R s ((applyRoles revision roles tally).exec (serve meet) (s, n)).2.1 := by
  induction roles generalizing tally s n with
  | nil => exact refl s
  | cons role roles ih =>
    obtain ⟨first, others⟩ := List.forall_mem_cons.1 step
    have begun := first s n
    rw [applyRoles, Plan.exec_bind']
    generalize (applyRole revision role).exec (serve meet) (s, n) = w at begun ⊢
    obtain ⟨result, s₁, n₁⟩ := w
    cases result with
    | ok stored => exact trans begun (ih others _ _)
    | error e =>
      simp only
      split
      · exact trans begun (ih others _ _)
      · split
        · exact begun
        · exact begun

theorem exec_applyRoles_faulty (meet : Nat → Circumstance) (blank : ∀ role ∈ roles, Blank role)
    (apart : Apart (wanted revision roles)) (tally : Tally) (n : Nat) :
    Progress revision.metadata.uid (wanted revision roles) s
      ((applyRoles revision roles tally).exec (serve meet) (s, n)).2.1 := by
  refine exec_applyRoles_steps (Progress revision.metadata.uid (wanted revision roles))
    (fun _ => .refl) (Progress.trans apart fun _ => contentMatches_wanted)
    (fun role mem s n => ?_) tally n
  rw [applyRole_eq (blank role mem)]
  rcases exec_apply_faulty (s := s) meet revision.metadata.uid (stamp revision role).manifest n
    with same | ⟨birth, settled⟩
  · rw [same]
    exact .refl
  · rw [settled]
    exact progress_settle birth (List.mem_map_of_mem mem)

end Reconciler

end ProviderRoles
