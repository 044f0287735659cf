import ProviderRoles.Proofs.Apply.Amid
import ProviderRoles.Proofs.Reconcile.Outcome
import ProviderRoles.Proofs.Reconcile.Roles

/-! The loop over any rendered roles, at a store that others write at other addresses. The roles are
settled in order, up to the first one that meets an obstacle. What the entries at their addresses
were in the beginning decides which one that is. -/
namespace ProviderRoles

open Apply Store

theorem Access.target {role : ClusterRole} {cs : List Call} {c : Call} {k : String}
    (h : Access role cs) (mem : c ∈ cs) (target : c.target? = some k) : k = role.address := by
  have place : ∀ {o : Manifest}, o.kind = Resource.kind ClusterRole →
      o.key = role.metadata.key → addressOf o = role.address := by
    intro o kind key
    rw [addressOf, kind, key]
    rfl
  cases h with
  | read =>
    cases List.mem_singleton.1 mem
    contradiction
  | create kind key | update kind key =>
    rcases List.mem_pair.1 mem with rfl | rfl
    · contradiction
    · cases target
      exact place kind key

namespace Reconciler

/-- What keeps a role from being applied where `e` lies: it has no wire form, or something is to be
done about it and the store will not have it. -/
def obstacle? (revision : Revision) (role : ClusterRole) (e : Option Manifest) :
    Option StoreError :=
  match Manifest.ofResource (stamp revision role) with
  | .error failure => some (.ofObjectError failure)
  | .ok o => if blocked revision.metadata.uid o e then some (Store.nameless o) else none

/-- How the entries of the roles have changed when the loop has ended, and what has ended it before
all roles had their turn. -/
inductive Worked (revision : Revision) (before after : String → Option Manifest) :
    List ClusterRole → Option StoreError → Prop where
  | nil : Worked revision before after [] none
  | next {role : ClusterRole} {roles : List ClusterRole} {failure : Option StoreError} :
      obstacle? revision role (before role.address) = none →
      Settled revision.metadata.uid (stamp revision role).manifest (before role.address)
        (after role.address) →
      Worked revision before after roles failure →
      Worked revision before after (role :: roles) failure
  | stopped {role : ClusterRole} {roles : List ClusterRole} {e : StoreError} :
      obstacle? revision role (before role.address) = some e →
      (∀ role' ∈ role :: roles, after role'.address = before role'.address) →
      Worked revision before after (role :: roles) (some e)

variable {revision : Revision} {role : ClusterRole} {roles : List ClusterRole}
  {others : Call → Prop} {s s' : Store} {calls : List Completed}
  {failure failure' : Option StoreError} {before after after' : String → Option Manifest}

theorem obstacle?_of_settled {e e' : Option Manifest} (free : obstacle? revision role e = none)
    (settled : Settled revision.metadata.uid (stamp revision role).manifest e e') :
    obstacle? revision role e' = none := by
  rw [obstacle?] at free ⊢
  cases written : Manifest.ofResource (stamp revision role) with
  | error failure =>
    rw [written] at free
    contradiction
  | ok o =>
    cases ClusterRole.eq_manifest_of_ofResource written
    have nothing := settled.not_pending (ClusterRole.contentMatches_manifest _)
    simp only [blocked, nothing, Bool.and_false, Bool.false_eq_true, ↓reduceIte]

/-! One role. -/

theorem goesOn_of_conflict {result : Except ApplyError Manifest}
    (conflict : ∀ e, result = .error e → e.isNotControllable = true) : GoesOn result := by
  cases result with
  | ok m => trivial
  | error e =>
    cases e with
    | notControllable kind key uid => trivial
    | store e => exact absurd (conflict _ rfl) Bool.false_ne_true

/-- A role either meets an obstacle, which ends the loop, or it is settled. -/
theorem Visit.outcome {result : Except ApplyError Manifest}
    (h : Visit revision role calls result) (spared : Spares others role.address)
    (amid : Amid others s calls s') :
    (∃ e, obstacle? revision role (s.objects.get? role.address) = some e ∧
      result = .error (.store e) ∧ Meanwhile others s s') ∨
    (obstacle? revision role (s.objects.get? role.address) = none ∧ GoesOn result ∧
      Settles others revision.metadata.uid (stamp revision role).manifest s s') := by
  cases h with
  | @unwritable e unwritten =>
    refine .inl ⟨.ofObjectError e, ?_, rfl, amid_nil amid⟩
    rw [obstacle?, unwritten]
  | applied written course =>
    cases ClusterRole.eq_manifest_of_ofResource written
    cases course.applied spared amid with
    | settles free conflict settles =>
      refine .inr ⟨?_, goesOn_of_conflict conflict, settles⟩
      rw [obstacle?, written]
      exact if_neg (Bool.eq_false_iff.1 free)
    | nameless stuck meanwhile =>
      refine .inl ⟨_, ?_, rfl, meanwhile⟩
      rw [obstacle?, written]
      exact if_pos stuck

theorem Visit.target {result : Except ApplyError Manifest} {x : Completed} {k : String}
    (h : Visit revision role calls result) (mem : x ∈ calls) (target : x.call.target? = some k) :
    k = role.address := by
  rcases h.access with ⟨rfl, _⟩ | access
  · contradiction
  · exact access.target (List.mem_map_of_mem mem) target

/-! All roles. -/

theorem Visits.target (h : Visits revision roles calls failure) {x : Completed} (mem : x ∈ calls)
    {k : String} (target : x.call.target? = some k) : ∃ role ∈ roles, k = role.address := by
  obtain ⟨role, isRole, _, _, visit, made⟩ := h.visit mem
  exact ⟨role, isRole, visit.target made target⟩

theorem Visits.spares {k : String} (h : Visits revision roles calls failure)
    (elsewhere : ∀ role ∈ roles, k ≠ role.address) (spared : Spares others k)
    (amid : Amid others s calls s') : s'.objects.get? k = s.objects.get? k := by
  have meanwhile : Meanwhile (fun c => c.target? ≠ some k) s s' := by
    refine amid.meanwhile spared fun x mem target => ?_
    obtain ⟨role, isRole, here⟩ := h.target mem target
    exact elsewhere role isRole here
  exact meanwhile.get? fun c other => other

/-- Different roles at different addresses are dealt with as if each of them were alone. -/
theorem Visits.worked (h : Visits revision roles calls failure)
    (apart : roles.Pairwise fun a b => a.address ≠ b.address)
    (spared : ∀ role ∈ roles, Spares others role.address)
    (same : ∀ role ∈ roles, s.objects.get? role.address = before role.address)
    (amid : Amid others s calls s') : Worked revision before s'.objects.get? roles failure := by
  induction h generalizing s with
  | nil => exact .nil
  | @next role roles first rest result failure visit goesOn visits ih =>
    obtain ⟨elsewhere, apart'⟩ := List.pairwise_cons.1 apart
    obtain ⟨mine, spared'⟩ := List.forall_mem_cons.1 spared
    obtain ⟨here, same'⟩ := List.forall_mem_cons.1 same
    obtain ⟨t, begun, later⟩ := amid_append amid
    rcases visit.outcome mine begun with ⟨e, _, rfl, _⟩ | ⟨free, _, settles⟩
    · exact goesOn.elim
    · refine .next (here ▸ free) ?_ (ih apart' spared' (fun role' mem => ?_) later)
      · -- The rest of the loop is about other addresses.
        rw [visits.spares elsewhere mine later, ← here]
        exact settles.settled
      · rw [settles.rest _ (elsewhere role' mem).symm (spared' role' mem)]
        exact same' role' mem
  | @failed role roles calls e visit =>
    obtain ⟨mine, _⟩ := List.forall_mem_cons.1 spared
    obtain ⟨here, _⟩ := List.forall_mem_cons.1 same
    rcases visit.outcome mine amid with ⟨e', obstacle, reported, meanwhile⟩ | ⟨_, goesOn, _⟩
    · cases reported
      refine .stopped (here ▸ obstacle) fun role' mem => ?_
      rw [meanwhile.get? (spared role' mem)]
      exact same role' mem
    · exact goesOn.elim

/-- The loop leaves the roles as it would leave them at any other time. -/
theorem Worked.agree (h : Worked revision before after roles failure)
    (h' : Worked revision before after' roles failure') :
    failure' = failure ∧
      ∀ role ∈ roles, Agree (before role.address) (after role.address) (after' role.address) := by
  induction h generalizing failure' with
  | nil =>
    cases h'
    exact ⟨rfl, fun role mem => by contradiction⟩
  | next free settled _ ih =>
    cases h' with
    | next _ settled' worked' =>
      obtain ⟨same, agree⟩ := ih worked'
      exact ⟨same, List.forall_mem_cons.2 ⟨settled.agree settled', agree⟩⟩
    | stopped obstacle _ =>
      rw [free] at obstacle
      contradiction
  | stopped obstacle kept =>
    cases h' with
    | next free _ _ =>
      rw [free] at obstacle
      contradiction
    | stopped obstacle' kept' =>
      refine ⟨obstacle'.symm.trans obstacle, fun role mem => ?_⟩
      rw [kept role mem, kept' role mem]
      exact .refl

/-- Where the loop has been already, it does nothing and ends in the same way. -/
theorem Worked.quiet (h : Worked revision before s.objects.get? roles failure)
    (visits : Visits revision roles calls failure') (amid : Amid nobody s calls s') :
    failure' = failure ∧ s' = s := by
  -- Each step turns out to leave `s` alone, so the rest of the loop starts there again.
  induction h generalizing calls failure' with
  | nil =>
    cases visits
    exact ⟨rfl, (amid_nil amid).eq_of_nobody⟩
  | next free settled _ ih =>
    have still := obstacle?_of_settled free settled
    have nothing := settled.not_pending (ClusterRole.contentMatches_manifest _)
    cases visits with
    | next visit _ visits =>
      obtain ⟨t, begun, later⟩ := amid_append amid
      rcases visit.outcome spares_nobody begun with ⟨e, obstacle, _⟩ | ⟨_, _, settles⟩
      · rw [still] at obstacle
        contradiction
      · cases (settles.quiet nothing).eq_of_nobody
        exact ih visits later
    | failed visit =>
      rcases visit.outcome spares_nobody amid with ⟨e, obstacle, _⟩ | ⟨_, goesOn, _⟩
      · rw [still] at obstacle
        contradiction
      · exact goesOn.elim
  | @stopped role roles e obstacle kept =>
    rw [← kept role List.mem_cons_self] at obstacle
    cases visits with
    | next visit goesOn _ =>
      obtain ⟨t, begun, _⟩ := amid_append amid
      rcases visit.outcome spares_nobody begun with ⟨e, _, rfl, _⟩ | ⟨free, _⟩
      · exact goesOn.elim
      · rw [free] at obstacle
        contradiction
    | failed visit =>
      rcases visit.outcome spares_nobody amid with ⟨e, again, reported, ended⟩ | ⟨_, goesOn, _⟩
      · cases reported
        exact ⟨again.symm.trans obstacle, ended.eq_of_nobody⟩
      · exact goesOn.elim

end Reconciler

end ProviderRoles
