import ProviderRoles.Proofs.Reconcile.Convergence

/-! Revisions that want the same roles. The key of a role tells the name of its revision and nothing
else of it, so revisions of one name get the same roles in whatever namespaces they are. The one
that is reconciled first keeps them. -/
namespace ProviderRoles

open Apply Store

namespace Render

variable (revision : Revision) (definitions : List ResourceDefinition)

theorem keys_roles : (roles revision definitions).map (·.metadata.key) =
    suffixes.map fun suffix => .cluster (roleName revision.metadata.name suffix) := rfl

theorem pairwise_keys :
    (roles revision definitions).Pairwise fun a b => a.metadata.key ≠ b.metadata.key :=
  (pairwise_roles revision definitions).imp fun apart same => apart (congrArg (address _) same)

variable {revision definitions} {revision' : Revision}

/-- Whatever the definitions are, revisions of one name have roles with the same keys. -/
theorem exists_role_of_namesake (definitions' : List ResourceDefinition)
    (namesakes : revision.metadata.name = revision'.metadata.name) {role : ClusterRole}
    (mem : role ∈ roles revision definitions) :
    ∃ role' ∈ roles revision' definitions', role'.metadata.key = role.metadata.key := by
  have keys : (roles revision definitions).map (·.metadata.key) =
      (roles revision' definitions').map (·.metadata.key) := by
    rw [keys_roles, keys_roles, namesakes]
  have isKey := List.mem_map_of_mem (f := fun role : ClusterRole => role.metadata.key) mem
  rw [keys] at isKey
  exact List.mem_map.1 isKey

/-- One role in common is enough for two revisions to be namesakes. -/
theorem clash_iff {definitions' : List ResourceDefinition} :
    (∃ role ∈ roles revision definitions, ∃ role' ∈ roles revision' definitions',
      role.metadata.key = role'.metadata.key) ↔
    revision.metadata.name = revision'.metadata.name := by
  constructor
  · rintro ⟨role, mem, role', mem', same⟩
    exact name_eq_of_address_eq mem mem' (congrArg (address _) same)
  · intro namesakes
    obtain ⟨role', mem', same⟩ := exists_role_of_namesake definitions' namesakes
      (List.mem_cons_self : _ ∈ roles revision definitions)
    exact ⟨_, List.mem_cons_self, role', mem', same.symm⟩

end Render

namespace Reconciler

/-- The store after an undisturbed reconcile. -/
def leaves (r : Reconciler) (births : Nat → Birth) (key : ObjectKey) (s : Store) : Store :=
  (r.reconcile (Server.immediate (serve (calm births))) key (s, 0)).state.1

/-- Undisturbed reconciles of the keys, any number of them and in any order. -/
inductive Rounds (keys : List ObjectKey) : Store → Store → Prop
  | rest {s : Store} : Rounds keys s s
  | round {s s' : Store} {key : ObjectKey} (r : Reconciler) (default : r.render = Render.roles)
      (mem : key ∈ keys) (births : Nat → Birth) :
      Rounds keys (r.leaves births key s) s' → Rounds keys s s'

/-- Nothing that a reconcile of the key wants is due at the address. -/
def Idle (s : Store) (k : String) (key : ObjectKey) : Prop :=
  ∃ revision, Ready s key revision ∧ ∀ o ∈ target s revision, k = addressOf o →
    ∃ m, s.objects.get? k = some m ∧ due revision.metadata.uid o m = false

variable {r : Reconciler} {s s' : Store} {key key' : ObjectKey} {keys : List ObjectKey}
  {revision revision' : Revision} {k : String}

section

variable (default : r.render = Render.roles) (births : Nat → Birth)
include default

theorem settlement_leaves (ready : Ready s key revision) :
    Settlement revision.metadata.uid (target s revision) s (r.leaves births key s) := by
  obtain ⟨_, state⟩ := r.reconcile_immediate (serve (calm births)) key (s, 0)
  obtain ⟨s', n', run, settlement⟩ := exec_plan_calm default ready births 0
  have ends : r.leaves births key s = s' := by rw [leaves, state, run]
  rwa [ends]

theorem Idle.unchanged (idle : Idle s k key) :
    (r.leaves births key s).objects.get? k = s.objects.get? k := by
  obtain ⟨revision, ready, nothing⟩ := idle
  rcases (settlement_leaves default births ready).progress k with same | ⟨o, mem, here, settled⟩
  · exact same
  · obtain ⟨m, there, finished⟩ := nothing o mem here
    rw [there] at settled ⊢
    exact settled.idle finished

theorem Idle.addressed (idle : Idle s k key) (addressed : s.Addressed) :
    (r.leaves births key s).Addressed := by
  obtain ⟨revision, ready, _⟩ := idle
  exact (settlement_leaves default births ready).progress.addressed addressed

/-- After a reconcile of one key, the other reconciles still have nothing to do. -/
theorem Idle.kept (idle : Idle s k key) (addressed : s.Addressed) (idle' : Idle s k key') :
    Idle (r.leaves births key s) k key' := by
  have same := idle.unchanged default births
  obtain ⟨revision, ready, _⟩ := idle
  obtain ⟨revision', ready', nothing⟩ := idle'
  have progress := (settlement_leaves default births ready).progress
  refine ⟨revision', ready_kept progress addressed ready', ?_⟩
  rw [same, target, definitions_kept progress addressed]
  exact nothing

end

/-- An entry stays as it is for as long as every reconcile has nothing to do about it. -/
theorem Rounds.unchanged (rounds : Rounds keys s s') (addressed : s.Addressed)
    (idle : ∀ key ∈ keys, Idle s k key) : s'.objects.get? k = s.objects.get? k := by
  induction rounds with
  | rest => rfl
  | @round s s' key r default mem births _ ih =>
    have here := idle key mem
    have later : ∀ key' ∈ keys, Idle (r.leaves births key s) k key' := fun key' mem' =>
      here.kept default births addressed (idle key' mem')
    rw [ih (here.addressed default births addressed) later]
    exact here.unchanged default births

section

variable {role : ClusterRole} (addressed : s.Addressed) (ready : Ready s key revision)
  (mem : role ∈ Render.roles revision' (controlledBy s.definitions revision'.metadata.uid))
include addressed ready mem

/-- Reconciles of one revision do not touch the roles of another name. -/
theorem Rounds.spares (rounds : Rounds [key] s s')
    (different : revision.metadata.name ≠ revision'.metadata.name) :
    s'.objects.get? role.address = s.objects.get? role.address := by
  refine rounds.unchanged addressed fun key' isKey => ?_
  rw [List.mem_singleton.1 isKey]
  refine ⟨revision, ready, fun o wants here => ?_⟩
  obtain ⟨role', mem', rfl⟩ := List.mem_map.1 wants
  exact absurd (Render.name_eq_of_address_eq mem' mem here.symm) different

/-- What one of two namesakes has got, the other one never gets. -/
theorem kept_from_namesake (ready' : Ready s key' revision')
    (namesakes : revision.metadata.name = revision'.metadata.name)
    (others : revision.metadata.uid ≠ revision'.metadata.uid)
    (mine : (s.objects.get? role.address).all
      (isControllableBy ·.metadata.ownerReferences revision.metadata.uid) = true)
    (default : r.render = Render.roles) (births : Nat → Birth) :
    ∃ m, m.metadata.ownerReferences = [revision.controllerReference] ∧
      ∀ s', Rounds [key, key'] (r.leaves births key s) s' →
        s'.objects.get? role.address = some m := by
  obtain ⟨role', mem', sameKey⟩ := Render.exists_role_of_namesake
    (controlledBy s.definitions revision.metadata.uid) namesakes.symm mem
  have same : role.address = role'.address := congrArg (address _) sameKey.symm
  rw [same] at mine ⊢
  have settlement := settlement_leaves default births ready
  have wants : (stamp revision role').manifest ∈ target s revision := List.mem_map_of_mem mem'
  have settled : Settled revision.metadata.uid (stamp revision role').manifest
      (s.objects.get? role'.address) ((r.leaves births key s).objects.get? role'.address) :=
    settlement.settled _ wants
  obtain ⟨m, there, equal⟩ := settled.content (contentMatches_wanted wants) mine
  have owners := (realizes_of_contentMatches (Render.blank_of_mem_roles mem') equal).owners
  -- Nothing is due any more for the one, and the other is refused.
  have mineIdle : Idle (r.leaves births key s) role'.address key := by
    refine ⟨revision, ready_kept settlement.progress addressed ready, fun o wants' here => ?_⟩
    rw [target, definitions_kept settlement.progress addressed] at wants'
    have settled' := settlement.settled o wants'
    rw [← here, there] at settled'
    exact ⟨m, there, settled'.not_due (contentMatches_wanted wants')⟩
  have otherIdle : Idle (r.leaves births key s) role'.address key' := by
    refine ⟨revision', ready_kept settlement.progress addressed ready', fun o _ _ => ?_⟩
    have foreign : isControllableBy m.metadata.ownerReferences revision'.metadata.uid = false := by
      rw [owners]
      exact isControllableBy_eq_false_iff.2 (.inl ⟨_, rfl, others⟩)
    exact ⟨m, there, not_due_of_refused foreign⟩
  refine ⟨m, owners, fun s' rounds => ?_⟩
  rw [← there]
  refine rounds.unchanged (settlement.progress.addressed addressed) fun key'' isKey => ?_
  rcases List.mem_cons.1 isKey with rfl | isKey
  · exact mineIdle
  · rw [List.mem_singleton.1 isKey]
    exact otherIdle

end

/-- The three roles of a revision are apart. It has roles in common with revisions of its own name
and with no others: those of other names never touch each other's roles, and of those of one name
the first to be reconciled gets every role that nobody else controls, and keeps it for good. -/
theorem contend_iff_namesakes (revision revision' : Revision) :
    (∀ definitions, (Render.roles revision definitions).Pairwise
      fun a b => a.metadata.key ≠ b.metadata.key) ∧
    (∀ definitions definitions',
      (∃ role ∈ Render.roles revision definitions,
        ∃ role' ∈ Render.roles revision' definitions',
          role.metadata.key = role'.metadata.key) ↔
      revision.metadata.name = revision'.metadata.name) ∧
    ∀ (s : Store) (key key' : ObjectKey), s.Reachable → Ready s key revision →
      Ready s key' revision' → revision.metadata.uid ≠ revision'.metadata.uid →
      ∀ role ∈ Render.roles revision' (controlledBy s.definitions revision'.metadata.uid),
        (revision.metadata.name ≠ revision'.metadata.name → ∀ s', Rounds [key] s s' →
          s'.objects.get? role.address = s.objects.get? role.address) ∧
        (revision.metadata.name = revision'.metadata.name →
          (s.objects.get? role.address).all
            (isControllableBy ·.metadata.ownerReferences revision.metadata.uid) = true →
          ∀ r : Reconciler, r.render = Render.roles → ∀ births,
            ∃ m, m.metadata.ownerReferences = [revision.controllerReference] ∧
              ∀ s', Rounds [key, key'] (r.leaves births key s) s' →
                s'.objects.get? role.address = some m) := by
  refine ⟨Render.pairwise_keys revision, fun _ _ => Render.clash_iff, ?_⟩
  intro s key key' reachable ready ready' others role mem
  refine ⟨fun different s' rounds => ?_, fun namesakes mine r default births => ?_⟩
  · exact rounds.spares reachable.addressed ready mem different
  · exact kept_from_namesake reachable.addressed ready mem ready' namesakes others mine default
      births

end Reconciler

def namesake (ns uid version : String) : Revision :=
  { metadata :=
      { name := "p", ns := some ns, uid := ⟨uid⟩, resourceVersion := some version
        creationTimestamp := some .epoch } }

/-- Two teams install a provider of the same name, each in a namespace of its own. -/
def namesakes : List Turn :=
  [⟨⟨⟨"A"⟩, .epoch⟩,
    .create (.new "pkg.rolesync.io/v1alpha1" "ProviderRevision" { name := "p", ns := some "a" })⟩,
   ⟨⟨⟨"B"⟩, .epoch⟩,
    .create (.new "pkg.rolesync.io/v1alpha1" "ProviderRevision" { name := "p", ns := some "b" })⟩]

theorem ready_namesakes :
    Ready (new.after namesakes) ⟨some "a", "p"⟩ (namesake "a" "A" "1") ∧
    Ready (new.after namesakes) ⟨some "b", "p"⟩ (namesake "b" "B" "2") := by
  have readable := readable_of_entries (s := new.after namesakes) (by decide +kernel)
  exact ⟨⟨⟨_, rfl, rfl⟩, rfl, readable⟩, ⟨⟨_, rfl, rfl⟩, rfl, readable⟩⟩

theorem namesake_keeps_role :
    ∃ m, m.metadata.ownerReferences = [(namesake "a" "A" "1").controllerReference] ∧
      ∀ s', Reconciler.Rounds [⟨some "a", "p"⟩, ⟨some "b", "p"⟩]
        ((⟨Render.roles, {}, by decide⟩ : Reconciler).leaves (fun _ => ⟨⟨"new"⟩, .epoch⟩)
          ⟨some "a", "p"⟩ (new.after namesakes)) s' →
        s'.objects.get? "ClusterRole/rolesync:provider:p:system" = some m := by
  obtain ⟨ready, ready'⟩ := ready_namesakes
  have reachable : (new.after namesakes).Reachable := ⟨new, namesakes, .inl rfl, rfl⟩
  obtain ⟨_, _, contention⟩ :=
    Reconciler.contend_iff_namesakes (namesake "a" "A" "1") (namesake "b" "B" "2")
  obtain ⟨_, kept⟩ := contention _ _ _ reachable ready ready' (by decide) _ List.mem_cons_self
  exact kept rfl rfl ⟨Render.roles, {}, by decide⟩ rfl fun _ => ⟨⟨"new"⟩, .epoch⟩

/-- The keys of the revisions differ and those of their roles do not, so the second one is left
without roles, and its reconcile says that all is done. -/
theorem namesake_without_roles :
    let r : Reconciler := ⟨Render.roles, {}, by decide⟩
    let births : Nat → Birth := fun _ => ⟨⟨"new"⟩, .epoch⟩
    let a := namesake "a" "A" "1"
    let b := namesake "b" "B" "2"
    let s := r.leaves births a.metadata.key (new.after namesakes)
    let second := r.reconcile (Server.immediate (serve (calm births))) b.metadata.key (s, 0)
    a.metadata.key ≠ b.metadata.key ∧
    (Render.roles a []).map (·.metadata.key) = (Render.roles b []).map (·.metadata.key) ∧
    second.result = .ok .done ∧ second.state.1.counter = s.counter ∧
    ∀ role ∈ Render.roles b [], ∃ m, second.state.1.objects.get? role.address = some m ∧
      m.metadata.ownerReferences = [a.controllerReference] := by
  intro r births a b s second
  have run : a.metadata.key ≠ b.metadata.key ∧ second.result = .ok .done ∧
      second.state.1.counter = s.counter ∧
      ∀ role ∈ Render.roles b [], (second.state.1.objects.get? role.address).any
        (·.metadata.ownerReferences = [a.controllerReference]) = true := by
    decide +kernel
  obtain ⟨different, done, idle, owned⟩ := run
  refine ⟨different, rfl, done, idle, fun role mem => ?_⟩
  obtain ⟨m, there, owners⟩ := (Option.any_eq_true ..).1 (owned role mem)
  exact ⟨m, there, of_decide_eq_true owners⟩

end ProviderRoles
