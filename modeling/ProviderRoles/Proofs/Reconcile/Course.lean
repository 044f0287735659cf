import ProviderRoles.Proofs.Apply.Course
import ProviderRoles.Reconcile.Basic

/-! The courses that a reconcile can take at a store that replies as it likes: which calls it makes,
one after the other, and where it ends. -/
namespace ProviderRoles

/-- Where a reconcile ends. -/
inductive Ending where
  | revisionMissing
  | revisionLeaving
  | revisionUnread (e : StoreError)
  | definitionsUnread (e : StoreError)
  | roleFailed (e : StoreError)
  | rolesProcessed

namespace Ending

def failure? : Ending → Option StoreError
  | .revisionUnread e | .definitionsUnread e | .roleFailed e => some e
  | .revisionMissing | .revisionLeaving | .rolesProcessed => none

/-- What is reported for an ending. Cancelled calls and an unread revision are reported as they
are, the other failures lead to another try. -/
def result (shortWait : UInt64) : Ending → Except ReconcileError Outcome
  | .revisionMissing | .revisionLeaving | .rolesProcessed => .ok .done
  | .revisionUnread e => if e.isCancelled then .error .cancelled else .error (.getRevision e)
  | .definitionsUnread e | .roleFailed e =>
    if e.isCancelled then .error .cancelled else .ok (.requeueAfter shortWait)

theorem result_eq_cancelled_iff {ending : Ending} {shortWait : UInt64} :
    ending.result shortWait = .error .cancelled ↔
      ∃ e, ending.failure? = some e ∧ e.isCancelled = true := by
  cases ending <;> simp [result, failure?]

end Ending

namespace Client

variable {α : Type} [Resource α] {calls : List Completed}

theorem ends_get {key : ObjectKey} {result : Except StoreError α}
    (h : (get α key).Ends calls result) :
    ∃ reply : Except StoreError Manifest,
      calls = [⟨.get (Resource.kind α) key, reply⟩] ∧ result = reply.bind (typed α) := by
  obtain ⟨reply, rest, rfl, next⟩ := Plan.ends_call h
  obtain ⟨rfl, rfl⟩ := Plan.ends_done next
  exact ⟨reply, rfl, rfl⟩

theorem ends_list {selector : Selector} {result : Except StoreError (List α)}
    (h : (list α selector).Ends calls result) :
    ∃ reply : Except StoreError (List Manifest),
      calls = [⟨.list (Resource.kind α) selector, reply⟩] ∧
      result = reply.bind (·.mapM (typed α)) := by
  obtain ⟨reply, rest, rfl, next⟩ := Plan.ends_call h
  obtain ⟨rfl, rfl⟩ := Plan.ends_done next
  exact ⟨reply, rfl, rfl⟩

/-- An object that does not decode is invalid, and neither missing nor a sign of a cancelled
call. -/
theorem eq_invalidObject_of_typed {m : Manifest} {e : StoreError}
    (h : typed α m = .error e) : ∃ message, e = .invalidObject message := by
  rw [typed] at h
  cases decoded : m.toResource α with
  | ok a => rw [decoded] at h; contradiction
  | error failure =>
    rw [decoded] at h
    cases h
    exact ⟨failure.message, rfl⟩

theorem eq_invalidObject_of_mapM_typed {ms : List Manifest} {e : StoreError}
    (h : ms.mapM (typed α) = .error e) : ∃ message, e = .invalidObject message := by
  induction ms with
  | nil => contradiction
  | cons m ms ih =>
    rw [List.mapM_cons] at h
    cases first : typed α m with
    | error failure =>
      rw [first] at h
      cases h
      exact eq_invalidObject_of_typed first
    | ok a =>
      cases others : ms.mapM (typed α) with
      | error failure =>
        rw [first, others] at h
        cases h
        exact ih others
      | ok as => rw [first, others] at h; contradiction

end Client

namespace Reconciler

variable {revision : Revision} {calls : List Completed}

/-- The calls made for one role and what comes of them. -/
inductive Visit (revision : Revision) (role : ClusterRole) :
    List Completed → Except ApplyError Manifest → Prop where
  | unwritable {e : ObjectError} : Manifest.ofResource (stamp revision role) = .error e →
      Visit revision role [] (.error (.store (.ofObjectError e)))
  | applied {object : Manifest} {calls : List Completed} {result : Except ApplyError Manifest} :
      Manifest.ofResource (stamp revision role) = .ok object →
      Apply.Course object [Guard.controllableBy revision.metadata.uid] calls result →
      Visit revision role calls result

/-- What comes of one role does not keep the others from their turn: it was applied, or someone
else controls it. -/
def GoesOn : Except ApplyError Manifest → Prop
  | .ok _ => True
  | .error (.notControllable ..) => True
  | .error (.store _) => False

/-- The calls made for the roles, one after the other, and the failure that ends them early. -/
inductive Visits (revision : Revision) :
    List ClusterRole → List Completed → Option StoreError → Prop where
  | nil : Visits revision [] [] none
  | next {role : ClusterRole} {roles : List ClusterRole} {first rest : List Completed}
      {result : Except ApplyError Manifest} {failure : Option StoreError} :
      Visit revision role first result → GoesOn result → Visits revision roles rest failure →
      Visits revision (role :: roles) (first ++ rest) failure
  | failed {role : ClusterRole} {roles : List ClusterRole} {calls : List Completed}
      {e : StoreError} : Visit revision role calls (.error (.store e)) →
      Visits revision (role :: roles) calls (some e)

/-- The calls of a reconcile and where they end. -/
inductive Course (render : Renderer) (key : ObjectKey) : List Completed → Ending → Prop where
  | missing {e : StoreError} : e.isNotFound = true →
      Course render key [⟨.get (Resource.kind Revision) key, .error e⟩] .revisionMissing
  | unread {reply : Except StoreError Manifest} {e : StoreError} :
      reply.bind (Client.typed Revision) = .error e → e.isNotFound = false →
      Course render key [⟨.get (Resource.kind Revision) key, reply⟩] (.revisionUnread e)
  | leaving {m : Manifest} {revision : Revision} : Client.typed Revision m = .ok revision →
      revision.metadata.isBeingDeleted = true →
      Course render key [⟨.get (Resource.kind Revision) key, .ok m⟩] .revisionLeaving
  | unlisted {m : Manifest} {revision : Revision} {reply : Except StoreError (List Manifest)}
      {e : StoreError} : Client.typed Revision m = .ok revision →
      revision.metadata.isBeingDeleted = false →
      reply.bind (·.mapM (Client.typed ResourceDefinition)) = .error e →
      Course render key [⟨.get (Resource.kind Revision) key, .ok m⟩,
        ⟨.list (Resource.kind ResourceDefinition) .all, reply⟩] (.definitionsUnread e)
  | roles {m : Manifest} {revision : Revision} {ms : List Manifest}
      {definitions : List ResourceDefinition} {calls : List Completed}
      {failure : Option StoreError} : Client.typed Revision m = .ok revision →
      revision.metadata.isBeingDeleted = false →
      ms.mapM (Client.typed ResourceDefinition) = .ok definitions →
      Visits revision (render revision (controlledBy definitions revision.metadata.uid)) calls
        failure →
      Course render key (⟨.get (Resource.kind Revision) key, .ok m⟩ ::
        ⟨.list (Resource.kind ResourceDefinition) .all, .ok ms⟩ :: calls)
        (failure.elim .rolesProcessed .roleFailed)

/-- Every call is made for one of the roles. -/
theorem Visits.visit {roles : List ClusterRole} {failure : Option StoreError} {x : Completed}
    (h : Visits revision roles calls failure) (mem : x ∈ calls) :
    ∃ role ∈ roles, ∃ made result, Visit revision role made result ∧ x ∈ made := by
  induction h with
  | nil => contradiction
  | @next role roles first rest result failure visit _ _ ih =>
    rcases List.mem_append.1 mem with mem | mem
    · exact ⟨role, List.mem_cons_self, first, result, visit, mem⟩
    · obtain ⟨role', isRole, later⟩ := ih mem
      exact ⟨role', List.mem_cons_of_mem _ isRole, later⟩
  | @failed role roles calls e visit =>
    exact ⟨role, List.mem_cons_self, calls, .error (.store e), visit, mem⟩

theorem visit_of_ends {role : ClusterRole} {result : Except ApplyError Manifest}
    (h : (applyRole revision role).Ends calls result) : Visit revision role calls result := by
  rw [applyRole] at h
  cases written : Manifest.ofResource (stamp revision role) with
  | error e =>
    rw [written] at h
    obtain ⟨rfl, rfl⟩ := Plan.ends_done h
    exact .unwritable written
  | ok object =>
    rw [written] at h
    exact .applied written (Apply.course_of_ends h)

/-- The loop over the roles ends with a failure just if that is the one it reports. -/
theorem visits_of_ends {roles : List ClusterRole} {tally : Tally}
    {result : Except ReconcileError Tally}
    (h : (applyRoles revision roles tally).Ends calls result) :
    (∃ total, Visits revision roles calls none ∧ result = .ok total) ∨
    ∃ e name, Visits revision roles calls (some e) ∧ result = .error
      (if e.isCancelled then .cancelled else .applyRole name (.store e)) := by
  induction roles generalizing calls tally with
  | nil =>
    obtain ⟨rfl, rfl⟩ := Plan.ends_done h
    exact .inl ⟨tally, .nil, rfl⟩
  | cons role roles ih =>
    rw [applyRoles] at h
    obtain ⟨first, outcome, rest, rfl, head, tail⟩ := Plan.ends_bind h
    have visit := visit_of_ends head
    cases outcome with
    | ok m =>
      refine (ih (Plan.ends_note tail)).imp ?_ ?_
      · rintro ⟨total, visits, reported⟩
        exact ⟨total, .next visit trivial visits, reported⟩
      · rintro ⟨e, name, visits, reported⟩
        exact ⟨e, name, .next visit trivial visits, reported⟩
    | error failure =>
      cases failure with
      | notControllable kind key uid =>
        refine (ih (Plan.ends_note tail)).imp ?_ ?_
        · rintro ⟨total, visits, reported⟩
          exact ⟨total, .next visit trivial visits, reported⟩
        · rintro ⟨e, name, visits, reported⟩
          exact ⟨e, name, .next visit trivial visits, reported⟩
      | store e =>
        refine .inr ⟨e, role.metadata.name, ?_⟩
        cases cancelled : e.isCancelled with
        | true =>
          simp only [ApplyError.isNotControllable, ApplyError.isCancelled, cancelled,
            Bool.false_eq_true, ↓reduceIte] at tail ⊢
          obtain ⟨rfl, rfl⟩ := Plan.ends_done tail
          rw [List.append_nil]
          exact ⟨.failed visit, rfl⟩
        | false =>
          simp only [ApplyError.isNotControllable, ApplyError.isCancelled, cancelled,
            Bool.false_eq_true, ↓reduceIte] at tail ⊢
          obtain ⟨rfl, rfl⟩ := Plan.ends_done (Plan.ends_note tail)
          rw [List.append_nil]
          exact ⟨.failed visit, rfl⟩

variable {r : Reconciler} {key : ObjectKey} {result : Except ReconcileError Outcome}

theorem visits_of_ends_converge {definitions : List ResourceDefinition}
    (h : (r.converge revision definitions).Ends calls result) :
    ∃ failure, Visits revision
        (r.render revision (controlledBy definitions revision.metadata.uid)) calls failure ∧
      result = Ending.result r.timing.shortWait (failure.elim .rolesProcessed .roleFailed) := by
  obtain ⟨first, outcome, rest, rfl, head, tail⟩ := Plan.ends_bind (Plan.ends_note h)
  rcases visits_of_ends head with ⟨total, visits, rfl⟩ | ⟨e, name, visits, rfl⟩
  · obtain ⟨rfl, rfl⟩ := Plan.ends_done (Plan.ends_note tail)
    rw [List.append_nil]
    exact ⟨none, visits, rfl⟩
  · refine ⟨some e, ?_⟩
    cases cancelled : e.isCancelled with
    | true =>
      rw [cancelled] at tail
      obtain ⟨rfl, rfl⟩ := Plan.ends_done tail
      rw [List.append_nil, Option.elim_some, Ending.result, cancelled]
      exact ⟨visits, rfl⟩
    | false =>
      rw [cancelled] at tail
      obtain ⟨rfl, rfl⟩ := Plan.ends_done tail
      rw [List.append_nil, Option.elim_some, Ending.result, cancelled]
      exact ⟨visits, rfl⟩

theorem course_of_ends_withDefinitions {m : Manifest}
    (found : Client.typed Revision m = .ok revision)
    (live : revision.metadata.isBeingDeleted = false)
    (h : (r.withDefinitions revision).Ends calls result) :
    ∃ ending, Course r.render key (⟨.get (Resource.kind Revision) key, .ok m⟩ :: calls) ending ∧
      result = ending.result r.timing.shortWait := by
  obtain ⟨first, listed, rest, rfl, head, tail⟩ := Plan.ends_bind h
  obtain ⟨reply, rfl, rfl⟩ := Client.ends_list head
  cases list : reply.bind (·.mapM (Client.typed ResourceDefinition)) with
  | error e =>
    rw [list] at tail
    refine ⟨.definitionsUnread e, ?_⟩
    cases cancelled : e.isCancelled with
    | true =>
      simp only [cancelled, ↓reduceIte] at tail
      obtain ⟨rfl, rfl⟩ := Plan.ends_done tail
      rw [Ending.result, cancelled]
      exact ⟨.unlisted found live list, rfl⟩
    | false =>
      simp only [cancelled, Bool.false_eq_true, ↓reduceIte] at tail
      obtain ⟨rfl, rfl⟩ := Plan.ends_done (Plan.ends_note tail)
      rw [Ending.result, cancelled]
      exact ⟨.unlisted found live list, rfl⟩
  | ok definitions =>
    rw [list] at tail
    cases reply with
    | error e => contradiction
    | ok ms =>
      obtain ⟨failure, visits, reported⟩ := visits_of_ends_converge tail
      exact ⟨_, .roles found live list visits, reported⟩

/-- A reconcile takes one of the courses, and what it reports is the result of the ending. -/
theorem course_of_ends (h : (r.plan key).Ends calls result) :
    ∃ ending, Course r.render key calls ending ∧
      result = ending.result r.timing.shortWait := by
  obtain ⟨first, read, rest, rfl, head, tail⟩ := Plan.ends_bind h
  obtain ⟨reply, rfl, rfl⟩ := Client.ends_get head
  cases found : reply.bind (Client.typed Revision) with
  | error e =>
    rw [found] at tail
    cases missing : e.isNotFound with
    | true =>
      simp only [missing, ↓reduceIte] at tail
      obtain ⟨rfl, rfl⟩ := Plan.ends_done (Plan.ends_note tail)
      refine ⟨.revisionMissing, ?_, rfl⟩
      cases reply with
      | error e' =>
        cases found
        exact .missing missing
      | ok m =>
        -- An object was found, so what is not right about it is something else.
        obtain ⟨message, rfl⟩ := Client.eq_invalidObject_of_typed found
        contradiction
    | false =>
      refine ⟨.revisionUnread e, ?_⟩
      cases cancelled : e.isCancelled with
      | true =>
        simp only [missing, cancelled, Bool.false_eq_true, ↓reduceIte] at tail
        obtain ⟨rfl, rfl⟩ := Plan.ends_done tail
        rw [Ending.result, cancelled]
        exact ⟨.unread found missing, rfl⟩
      | false =>
        simp only [missing, cancelled, Bool.false_eq_true, ↓reduceIte] at tail
        obtain ⟨rfl, rfl⟩ := Plan.ends_done (Plan.ends_note tail)
        rw [Ending.result, cancelled]
        exact ⟨.unread found missing, rfl⟩
  | ok revision =>
    rw [found] at tail
    cases reply with
    | error e => contradiction
    | ok m =>
      cases leaving : revision.metadata.isBeingDeleted with
      | true =>
        simp only [leaving, ↓reduceIte] at tail
        obtain ⟨rfl, rfl⟩ := Plan.ends_done (Plan.ends_note tail)
        exact ⟨.revisionLeaving, .leaving found leaving, rfl⟩
      | false =>
        simp only [leaving, Bool.false_eq_true, ↓reduceIte] at tail
        exact course_of_ends_withDefinitions found leaving tail

end Reconciler

end ProviderRoles
