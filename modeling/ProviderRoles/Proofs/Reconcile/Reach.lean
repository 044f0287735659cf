import ProviderRoles.Proofs.Reconcile.Ownership
import ProviderRoles.Proofs.Store.Delays

/-! How far a reconcile reaches. It changes the entries of rendered roles at most, and of those only
the ones that the revision may control, whatever the renderer wants and whatever goes wrong. -/
namespace ProviderRoles

open Apply Store

/-- Entries change at the addresses of the roles only. None of them goes away, and those that the
owner may not overwrite stay as they are. -/
structure Reach (owner : Uid) (roles : List ClusterRole) (s s' : Store) : Prop where
  elsewhere : ∀ k, (∀ role ∈ roles, k ≠ role.address) → s'.objects.get? k = s.objects.get? k
  kept : ∀ k m, s.objects.get? k = some m → ∃ m', s'.objects.get? k = some m'
  spared : ∀ k m, s.objects.get? k = some m →
    isControllableBy m.metadata.ownerReferences owner = false → s'.objects.get? k = some m

variable {owner : Uid} {roles : List ClusterRole} {s s' s'' : Store}

theorem Reach.refl : Reach owner roles s s :=
  ⟨fun _ _ => rfl, fun _ m there => ⟨m, there⟩, fun _ _ there _ => there⟩

theorem Reach.trans (h : Reach owner roles s s') (h' : Reach owner roles s' s'') :
    Reach owner roles s s'' := by
  constructor
  · intro k other
    rw [h'.elsewhere k other, h.elsewhere k other]
  · intro k m there
    obtain ⟨m', there'⟩ := h.kept k m there
    exact h'.kept k m' there'
  · intro k m there foreign
    exact h'.spared k m (h.spared k m there foreign) foreign

theorem reach_settle {o : Manifest} {role : ClusterRole} (birth : Birth) (mem : role ∈ roles)
    (here : addressOf o = role.address) : Reach owner roles s (settle birth owner o s) := by
  have settled : Settled owner o (s.objects.get? (addressOf o)) _ := settled_settle birth
  constructor
  · intro k other
    exact get?_settle_of_ne birth (here ▸ other role mem)
  · intro k m there
    by_cases same : k = addressOf o
    · rw [← same, there] at settled
      exact settled.stays
    · exact ⟨m, (get?_settle_of_ne birth same).trans there⟩
  · intro k m there foreign
    by_cases same : k = addressOf o
    · rw [← same, there] at settled
      exact settled.refused foreign
    · exact (get?_settle_of_ne birth same).trans there

/-- What is stored as another kind lies where no role lies. -/
theorem Reach.kinds (h : Reach owner roles s s') (addressed : s.Addressed) {k : String}
    {m : Manifest} (there : s.objects.get? k = some m) (plain : '/' ∉ m.kind.toList)
    (other : m.kind ≠ Resource.kind ClusterRole) : s'.objects.get? k = some m := by
  have place : k = Store.address m.kind m.key := addressed k m there
  rw [h.elsewhere k fun role _ => place ▸ address_ne_role plain other m.key role, there]

namespace Reconciler

variable {revision : Revision} {role : ClusterRole} (meet : Nat → Circumstance)

theorem addressOf_of_ofResource {o : Manifest}
    (written : Manifest.ofResource (stamp revision role) = .ok o) : addressOf o = role.address := by
  obtain ⟨kind, metadata⟩ := Manifest.ofResource_eq_ok written
  rw [addressOf, Manifest.key, kind, metadata]
  rfl

theorem reach_applyRole (mem : role ∈ roles) (s : Store) (n : Nat) :
    Reach revision.metadata.uid roles s
      ((applyRole revision role).exec (serve meet) (s, n)).2.1 := by
  rw [applyRole]
  cases written : Manifest.ofResource (stamp revision role) with
  | error e => exact .refl
  | ok o =>
    rcases exec_apply_faulty (s := s) meet revision.metadata.uid o n with same | ⟨birth, settled⟩
    · simp only [same]
      exact .refl
    · simp only [settled]
      exact reach_settle birth mem (addressOf_of_ofResource written)

theorem reach_plan {r : Reconciler} {key : ObjectKey} (ready : Ready s key revision) (n : Nat) :
    Reach revision.metadata.uid
      (r.render revision (controlledBy s.definitions revision.metadata.uid)) s
      ((r.plan key).exec (serve meet) (s, n)).2.1 := by
  rcases exec_plan_state (r := r) ready meet n with idle | worked
  · rw [idle]
    exact .refl
  · rw [worked]
    exact exec_applyRoles_steps (Reach revision.metadata.uid _) (fun _ => .refl) Reach.trans
      (fun _ mem => reach_applyRole meet mem) {} (n + 2)

/-- However long the calls take and whatever they report, a reconcile deletes nothing and leaves
revisions and definitions alone. Unless it has read both it changes nothing. If it has, it changes
entries at the addresses of the rendered roles only, and none of those that were controlled by
someone else or by several owners when it began. -/
theorem reconcile_reach (r : Reconciler) (reachable : s.Reachable) (delays : Nat → Nat)
    (meet : Nat → Circumstance) (key : ObjectKey) :
    let report := r.reconcile (slow delays meet) key (s, 0)
    let after := report.state.1.objects
    ((∀ revision, ¬ Ready s key revision) ∨
        (∀ revision definitions, ¬ HasRead key report.calls revision definitions) →
      report.state.1 = s) ∧
    (∀ k m, s.objects.get? k = some m → ∃ m', after.get? k = some m') ∧
    (∀ k m, s.objects.get? k = some m →
      m.kind = Resource.kind Revision ∨ m.kind = Resource.kind ResourceDefinition →
      after.get? k = some m) ∧
    ∀ revision, Ready s key revision →
      (∀ k, (∀ role ∈ r.render revision (controlledBy s.definitions revision.metadata.uid),
          k ≠ role.address) → after.get? k = s.objects.get? k) ∧
      ∀ k m, s.objects.get? k = some m →
        (∃ c, controllers m.metadata.ownerReferences = [c] ∧ c.uid ≠ revision.metadata.uid) ∨
          2 ≤ (controllers m.metadata.ownerReferences).length →
        after.get? k = some m := by
  intro report after
  obtain ⟨meet', left⟩ := state_reconcile_slow r delays meet key (s, 0)
  have reach : ∀ revision, Ready s key revision → Reach revision.metadata.uid
      (r.render revision (controlledBy s.definitions revision.metadata.uid)) s
      report.state.1 := by
    intro revision ready
    exact left ▸ reach_plan meet' ready 0
  have idle : (∀ revision, ¬ Ready s key revision) → report.state.1 = s := fun unready =>
    left.trans (exec_plan_unready unready meet' 0)
  have some : ∃ owner roles, Reach owner roles s report.state.1 := by
    by_cases ready : ∃ revision, Ready s key revision
    · obtain ⟨revision, ready⟩ := ready
      exact ⟨_, _, reach revision ready⟩
    · exact ⟨⟨""⟩, [], idle (not_exists.1 ready) ▸ .refl⟩
  obtain ⟨owner, roles, within⟩ := some
  refine ⟨?_, within.kept, ?_, fun revision ready => ⟨(reach revision ready).elsewhere, ?_⟩⟩
  · rintro (unready | unread)
    · exact idle unready
    · have reads : ∀ x ∈ report.calls, x.call.target? = none := by
        intro x mem
        cases target : x.call.target? with
        | none => rfl
        | some k =>
          obtain ⟨revision, definitions, read, _⟩ := visit_of_target mem target
          exact absurd read (unread revision definitions)
      rw [calls_reconcile] at reads
      exact (state_reconcile ..).symm ▸ state_run_of_reads reads
  · rintro k m there (revision | definition)
    · exact within.kinds reachable.addressed there (revision ▸ by decide) (revision ▸ by decide)
    · exact within.kinds reachable.addressed there (definition ▸ by decide)
        (definition ▸ by decide)
  · intro k m there foreign
    exact (reach revision ready).spared k m there (isControllableBy_eq_false_iff.2 foreign)

/-- The seventh call reads the role of someone else, and says that there is none. -/
def misleading (n : Nat) : Circumstance :=
  ⟨⟨⟨"new"⟩, .epoch⟩, if n = 6 then some ⟨.notFound "ClusterRole" "", false⟩ else none⟩

theorem misled_reach :
    let r : Reconciler := ⟨Render.roles, {}, by decide⟩
    let s := Store.new.after installation
    let after := (r.reconcile (slow (fun _ => 1) misleading) (.cluster "p") (s, 0)).state.1.objects
    after.get? "ClusterRole/rolesync:provider:p:aggregate-to-view" =
        s.objects.get? "ClusterRole/rolesync:provider:p:aggregate-to-view" ∧
    after.get? "ProviderRevision/p" = s.objects.get? "ProviderRevision/p" := by
  intro r s after
  have reachable : s.Reachable := ⟨Store.new, installation, .inl rfl, rfl⟩
  obtain ⟨_, _, others, roles⟩ :=
    reconcile_reach r reachable (fun _ => 1) misleading (.cluster "p")
  obtain ⟨_, spared⟩ := roles provider ready_installation
  have foreign : ∃ m, s.objects.get? "ClusterRole/rolesync:provider:p:aggregate-to-view" =
      some m ∧ ∃ c, controllers m.metadata.ownerReferences = [c] ∧
        c.uid ≠ provider.metadata.uid := ⟨_, rfl, _, rfl, by decide⟩
  have stored : ∃ m, s.objects.get? "ProviderRevision/p" = some m ∧
      m.kind = Resource.kind Revision := ⟨_, rfl, rfl⟩
  obtain ⟨m, there, controlled⟩ := foreign
  obtain ⟨m', there', kind⟩ := stored
  rw [there, there']
  exact ⟨spared _ m there (.inl controlled), others _ m' there' (.inl kind)⟩

end Reconciler

end ProviderRoles
