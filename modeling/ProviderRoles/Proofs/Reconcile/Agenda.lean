import ProviderRoles.Proofs.Reconcile.Run
import ProviderRoles.Proofs.Reconcile.Work

/-! What a reconcile finds to do, read off a store, and how it goes at that store while others write
nothing but roles. -/
namespace ProviderRoles

open Apply Store

/-- The call is about a role, if it can change anything. -/
def AtRoles (c : Call) : Prop := ∀ k, c.target? = some k → ∃ role : ClusterRole, k = role.address

theorem sameButRoles_of_meanwhile {s t : Store} (h : Meanwhile AtRoles s t) :
    SameButRoles s t := by
  intro k elsewhere
  refine h.get? fun c atRoles target => ?_
  obtain ⟨role, here⟩ := atRoles k target
  exact elsewhere role here

namespace Reconciler

/-- A revision and the roles that it should have, unless there is nothing to do or something cannot
be read. -/
abbrev Agenda := Except Ending (Revision × List ClusterRole)

def Agenda.roles : Agenda → List ClusterRole
  | .ok (_, roles) => roles
  | .error _ => []

def agenda (render : Renderer) (key : ObjectKey) (s : Store) : Agenda :=
  match (s.get (Resource.kind Revision) key).bind (Client.typed Revision) with
  | .error e => .error (if e.isNotFound then .revisionMissing else .revisionUnread e)
  | .ok revision =>
    if revision.metadata.isBeingDeleted then .error .revisionLeaving
    else
      match (s.list (Resource.kind ResourceDefinition) .all).mapM
          (Client.typed ResourceDefinition) with
      | .error e => .error (.definitionsUnread e)
      | .ok definitions =>
        .ok (revision, render revision (controlledBy definitions revision.metadata.uid))

/-- How a reconcile with an agenda goes: it ends after its reads, or it works on its roles. -/
inductive Execution (others : Call → Prop) (s s' : Store) :
    Agenda → List Completed → Ending → Prop where
  | idle {reads : List Completed} {ending : Ending} : (∀ x ∈ reads, x.call.target? = none) →
      Meanwhile others s s' → Execution others s s' (.error ending) reads ending
  | working {revision : Revision} {roles : List ClusterRole} {reads calls : List Completed}
      {failure : Option StoreError} : (∀ x ∈ reads, x.call.target? = none) →
      Visits revision roles calls failure → Amid others s calls s' →
      Execution others s s' (.ok (revision, roles)) (reads ++ calls)
        (failure.elim .rolesProcessed .roleFailed)

variable {render : Renderer} {key : ObjectKey} {s t s' : Store} {revision : Revision}
  {roles : List ClusterRole} {calls : List Completed} {ending : Ending} {others : Call → Prop}

theorem agenda_kept (reachable : s.Reachable) (h : Meanwhile AtRoles s t) :
    agenda render key t = agenda render key s := by
  have same := sameButRoles_of_meanwhile h
  have listed := same.list_definitions reachable.addressed (h.reachable reachable).addressed
  rw [agenda, same.get_revision, listed, agenda]

theorem roles_agenda (render : Renderer) (key : ObjectKey) (s : Store) :
    (agenda render key s).roles = [] ∨
    ∃ m revision, s.get (Resource.kind Revision) key = .ok m ∧
      m.toResource Revision = .ok revision ∧ (agenda render key s).roles =
        render revision (controlledBy s.definitions revision.metadata.uid) := by
  rw [agenda]
  cases read : s.get (Resource.kind Revision) key with
  | error e => exact .inl rfl
  | ok m =>
    rw [Except.bind]
    cases found : Client.typed Revision m with
    | error e => exact .inl rfl
    | ok revision =>
      cases listed : (s.list (Resource.kind ResourceDefinition) .all).mapM
          (Client.typed ResourceDefinition) with
      | error e =>
        left
        simp only
        split <;> rfl
      | ok definitions =>
        have stored : definitions = s.definitions :=
          Except.ok.inj (listed.symm.trans (mapM_typed (readable_of_mapM_typed listed)))
        simp only
        split
        · exact .inl rfl
        · exact .inr ⟨m, revision, rfl, eq_ok_of_typed found, by rw [stored]; rfl⟩

theorem Course.atRoles (h : Course render key calls ending) {x : Completed} (mem : x ∈ calls) :
    AtRoles x.call := by
  intro k target
  obtain ⟨_, _, _, role, _, _, _, visit, made⟩ := h.visit mem target
  exact ⟨role, visit.target made target⟩

section

variable (theirs : ∀ c, others c → AtRoles c)
include theirs

theorem amid_get_revision {reply : Except StoreError Manifest}
    (amid : Amid others s (⟨.get (Resource.kind Revision) key, reply⟩ :: calls) s') :
    reply = s.get (Resource.kind Revision) key ∧ Amid others s calls s' := by
  obtain ⟨t, before, read, later⟩ := amid_get amid
  have same := sameButRoles_of_meanwhile (before.mono theirs)
  exact ⟨read.trans (same.get_revision key), later.after before⟩

theorem amid_list_definitions (reachable : s.Reachable)
    {reply : Except StoreError (List Manifest)}
    (amid : Amid others s (⟨.list (Resource.kind ResourceDefinition) .all, reply⟩ :: calls) s') :
    reply = .ok (s.list (Resource.kind ResourceDefinition) .all) ∧ Amid others s calls s' := by
  obtain ⟨t, before, read, later⟩ := amid_list amid
  have same := sameButRoles_of_meanwhile (before.mono theirs)
  have listed := same.list_definitions reachable.addressed (before.reachable reachable).addressed
  exact ⟨read.trans (congrArg Except.ok listed), later.after before⟩

/-- A reconcile does what its agenda says. -/
theorem Course.execution (h : Course render key calls ending) (reachable : s.Reachable)
    (amid : Amid others s calls s') :
    Execution others s s' (agenda render key s) calls ending := by
  cases h with
  | missing missing =>
    obtain ⟨read, ended⟩ := amid_get_revision theirs amid
    rw [agenda, ← read]
    simp only [Except.bind, missing, ↓reduceIte]
    exact .idle (List.forall_mem_singleton.2 rfl) (amid_nil ended)
  | unread unread other =>
    obtain ⟨rfl, ended⟩ := amid_get_revision theirs amid
    rw [agenda, unread]
    simp only [other, Bool.false_eq_true, ↓reduceIte]
    exact .idle (List.forall_mem_singleton.2 rfl) (amid_nil ended)
  | leaving found leaving =>
    obtain ⟨read, ended⟩ := amid_get_revision theirs amid
    rw [agenda, ← read]
    simp only [Except.bind, found, leaving, ↓reduceIte]
    exact .idle (List.forall_mem_singleton.2 rfl) (amid_nil ended)
  | unlisted found live unread =>
    obtain ⟨read, later⟩ := amid_get_revision theirs amid
    obtain ⟨rfl, ended⟩ := amid_list_definitions theirs reachable later
    rw [Except.bind] at unread
    rw [agenda, ← read]
    simp only [Except.bind, found, live, Bool.false_eq_true, ↓reduceIte, unread]
    exact .idle (List.forall_mem_cons.2 ⟨rfl, List.forall_mem_singleton.2 rfl⟩) (amid_nil ended)
  | @roles m revision ms definitions calls failure found live decoded visits =>
    obtain ⟨read, later⟩ := amid_get_revision theirs amid
    obtain ⟨listed, work⟩ := amid_list_definitions theirs reachable later
    cases listed
    rw [agenda, ← read]
    simp only [Except.bind, found, live, Bool.false_eq_true, ↓reduceIte, decoded]
    exact .working (List.forall_mem_cons.2 ⟨rfl, List.forall_mem_singleton.2 rfl⟩) visits work

end

/-- An undisturbed reconcile follows its agenda. -/
theorem execution_reconcile (r : Reconciler) (reachable : s.Reachable) (key : ObjectKey)
    (births : Nat → Birth) :
    let report := r.reconcile (Server.immediate (serve (calm births))) key (s, 0)
    ∃ calls ending, Execution nobody s report.state.1 (agenda r.render key s) calls ending ∧
      report.result = ending.result r.timing.shortWait ∧ Meanwhile AtRoles s report.state.1 := by
  intro report
  obtain ⟨result, state⟩ := r.reconcile_immediate (serve (calm births)) key (s, 0)
  obtain ⟨calls, ends, amid⟩ := amid_exec births (r.plan key) (s, 0)
  rw [← result] at ends
  rw [← state] at amid
  obtain ⟨ending, course, reported⟩ := course_of_ends ends
  have theirs : ∀ c, nobody c → AtRoles c := fun c may => may.elim
  refine ⟨calls, ending, course.execution theirs reachable amid, reported, ?_⟩
  exact amid.meanwhile theirs fun x mem => course.atRoles mem

theorem Execution.target {plan : Agenda} (h : Execution others s s' plan calls ending)
    {x : Completed} (mem : x ∈ calls) {k : String} (target : x.call.target? = some k) :
    ∃ role ∈ plan.roles, k = role.address := by
  cases h with
  | idle reads _ =>
    rw [reads x mem] at target
    contradiction
  | working reads visits _ =>
    rcases List.mem_append.1 mem with mem | mem
    · rw [reads x mem] at target
      contradiction
    · exact visits.target mem target

end Reconciler

end ProviderRoles
