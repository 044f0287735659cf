import Mathlib.Data.List.Chain
import ProviderRoles.Proofs.Plan.Amid
import ProviderRoles.Proofs.Reconcile.Convergence
import ProviderRoles.Proofs.Reconcile.Course

/-! What a reconcile reports, given the replies that it got. The store may reply as it likes, one
call at a time: the calls keep their order, one kind of error is overcome, and every other one
decides the result. -/
namespace ProviderRoles

/-- The error in the last reply, if that was one. -/
def lastFailure? (calls : List Completed) : Option StoreError :=
  calls.getLast?.bind Completed.failure?

/-- After an error the next call, if there is one, creates the object that was not found. -/
def Absorbed (x y : Completed) : Prop :=
  ∀ e, x.failure? = some e →
    e.isNotFound = true ∧ ∃ o : Manifest, x.call = .get o.kind o.key ∧ y.call = .create o

/-- One read of a role, and at most one write to it. -/
inductive Access (role : ClusterRole) : List Call → Prop where
  | read : Access role [.get (Resource.kind ClusterRole) role.metadata.key]
  | create {o : Manifest} : o.kind = Resource.kind ClusterRole → o.key = role.metadata.key →
      Access role [.get (Resource.kind ClusterRole) role.metadata.key, .create o]
  | update {o : Manifest} : o.kind = Resource.kind ClusterRole → o.key = role.metadata.key →
      Access role [.get (Resource.kind ClusterRole) role.metadata.key, .update o]

/-- The revision and the definitions that were read by the first two calls. -/
def HasRead (key : ObjectKey) (calls : List Completed) (revision : Revision)
    (definitions : List ResourceDefinition) : Prop :=
  ∃ m ms rest, calls = ⟨.get (Resource.kind Revision) key, .ok m⟩ ::
      ⟨.list (Resource.kind ResourceDefinition) .all, .ok ms⟩ :: rest ∧
    Client.typed Revision m = .ok revision ∧
    ms.mapM (Client.typed ResourceDefinition) = .ok definitions

theorem not_hasRead_singleton {key : ObjectKey} {x : Completed} {revision : Revision}
    {definitions : List ResourceDefinition} : ¬ HasRead key [x] revision definitions := by
  rintro ⟨m, ms, rest, read, _⟩
  exact absurd (List.cons.inj read).2 (List.cons_ne_nil _ _).symm

theorem isCancelled_of_isNotFound {e : StoreError} (h : e.isNotFound = true) :
    e.isCancelled = false := by
  cases e with
  | notFound kind key => rfl
  | _ => contradiction

theorem lastFailure?_append {xs : List Completed} (h : lastFailure? xs = none)
    (ys : List Completed) : lastFailure? (xs ++ ys) = lastFailure? ys := by
  rw [lastFailure?, List.getLast?_append]
  cases last : ys.getLast? with
  | none => rw [Option.none_or, lastFailure?, last]; exact h
  | some y => rw [Option.some_or, lastFailure?, last]

theorem isChain_append {xs ys : List Completed} (hx : xs.IsChain Absorbed)
    (h : lastFailure? xs = none) (hy : ys.IsChain Absorbed) : (xs ++ ys).IsChain Absorbed := by
  refine hx.append hy fun x last y _ e failed => ?_
  rw [lastFailure?, Option.mem_def.1 last, Option.bind_some, failed] at h
  contradiction

theorem isChain_cons_ok {c : Call} {a : c.Reply} {calls : List Completed}
    (h : calls.IsChain Absorbed) : ((⟨c, .ok a⟩ : Completed) :: calls).IsChain Absorbed := by
  refine h.cons fun y _ e failed => ?_
  contradiction

namespace Reconciler

variable {revision : Revision} {role : ClusterRole} {roles : List ClusterRole}
  {calls : List Completed} {result : Except ApplyError Manifest} {failure : Option StoreError}

theorem Visit.isChain (h : Visit revision role calls result) : calls.IsChain Absorbed := by
  cases h with
  | unwritable _ => exact .nil
  | @applied object _ _ written course =>
    cases course with
    | missing reply missing =>
      refine .cons_cons (fun e failed => ?_) (.singleton _)
      cases failed
      exact ⟨missing, Apply.unversioned object, rfl, rfl⟩
    | unread _ => exact .singleton _
    | refused _ => exact .singleton _
    | equal _ _ => exact .singleton _
    | different reply _ _ => exact isChain_cons_ok (.singleton _)

theorem Visit.access (h : Visit revision role calls result) :
    calls = [] ∧ ¬ GoesOn result ∨ Access role (calls.map Completed.call) := by
  cases h with
  | unwritable _ => exact .inl ⟨rfl, id⟩
  | @applied object _ _ written course =>
    obtain ⟨kind, metadata⟩ := Manifest.ofResource_eq_ok written
    have key : object.key = role.metadata.key := by
      rw [Manifest.key, metadata]
      rfl
    right
    cases course with
    | missing reply _ => rw [List.map_cons, kind, key]; exact .create kind key
    | unread _ => rw [List.map_cons, kind, key]; exact .read
    | refused _ => rw [List.map_cons, kind, key]; exact .read
    | equal _ _ => rw [List.map_cons, kind, key]; exact .read
    | different reply _ _ => rw [List.map_cons, kind, key]; exact .update kind key

/-- A role that ends nothing leaves no error behind. -/
theorem Visit.last_ok (h : Visit revision role calls result) (goesOn : GoesOn result) :
    lastFailure? calls = none := by
  cases h with
  | unwritable _ => contradiction
  | applied written course =>
    cases course with
    | missing reply _ =>
      cases reply with
      | error e => contradiction
      | ok m => rfl
    | unread _ => contradiction
    | refused _ => rfl
    | equal _ _ => rfl
    | different reply _ _ =>
      cases reply with
      | error e => contradiction
      | ok m => rfl

/-- A role fails with the error in the last reply, or because it cannot be written. -/
theorem Visit.last_failed {e : StoreError} (h : Visit revision role calls (.error (.store e))) :
    lastFailure? calls = some e ∨ lastFailure? calls = none ∧ e.isCancelled = false := by
  generalize reported : (Except.error (.store e) : Except ApplyError Manifest) = result at h
  cases h with
  | unwritable _ =>
    cases reported
    exact .inr ⟨rfl, rfl⟩
  | applied written course =>
    cases course with
    | missing reply _ =>
      cases reply with
      | error e' => cases reported; exact .inl rfl
      | ok m => contradiction
    | unread _ => cases reported; exact .inl rfl
    | refused refusal =>
      cases reported
      obtain ⟨_, conflict⟩ := all_controllableBy_error refusal
      contradiction
    | equal _ _ => contradiction
    | different reply _ _ =>
      cases reply with
      | error e' => cases reported; exact .inl rfl
      | ok m => contradiction

theorem Visits.isChain (h : Visits revision roles calls failure) : calls.IsChain Absorbed := by
  induction h with
  | nil => exact .nil
  | next visit goesOn _ ih => exact isChain_append visit.isChain (visit.last_ok goesOn) ih
  | failed visit => exact visit.isChain

theorem Visits.last (h : Visits revision roles calls failure) :
    lastFailure? calls = failure ∨
    lastFailure? calls = none ∧ ∀ e, failure = some e → e.isCancelled = false := by
  induction h with
  | nil => exact .inl rfl
  | next visit goesOn _ ih => rwa [lastFailure?_append (visit.last_ok goesOn)]
  | failed visit =>
    refine visit.last_failed.imp id fun ⟨last, passing⟩ => ⟨last, ?_⟩
    intro e same
    cases same
    exact passing

/-- The accesses to the roles in order. Where the loop ends early, so do the calls. -/
theorem Visits.accesses (h : Visits revision roles calls failure) :
    ∃ parts, List.Forall₂ Access roles parts ∧
      calls.map Completed.call <+: parts.flatten := by
  have reads : ∀ roles : List ClusterRole, ∃ parts, List.Forall₂ Access roles parts := by
    intro roles
    induction roles with
    | nil => exact ⟨[], .nil⟩
    | cons role roles ih =>
      obtain ⟨parts, accesses⟩ := ih
      exact ⟨_ :: parts, .cons .read accesses⟩
  induction h with
  | nil => exact ⟨[], .nil, List.nil_prefix⟩
  | @next role roles first rest result failure visit goesOn _ ih =>
    obtain ⟨parts, accesses, start⟩ := ih
    have access := visit.access.resolve_left fun nothing => nothing.2 goesOn
    refine ⟨first.map Completed.call :: parts, .cons access accesses, ?_⟩
    rw [List.map_append, List.flatten_cons, List.prefix_append_right_inj]
    exact start
  | @failed role roles calls e visit =>
    obtain ⟨parts, accesses⟩ := reads roles
    rcases visit.access with ⟨rfl, _⟩ | access
    · exact ⟨_ :: parts, .cons .read accesses, List.nil_prefix⟩
    · exact ⟨calls.map Completed.call :: parts, .cons access accesses, List.prefix_append ..⟩

variable {render : Renderer} {key : ObjectKey} {ending : Ending}

theorem Course.isChain (h : Course render key calls ending) : calls.IsChain Absorbed := by
  cases h with
  | missing _ => exact .singleton _
  | unread _ _ => exact .singleton _
  | leaving _ _ => exact .singleton _
  | unlisted _ _ _ => exact isChain_cons_ok (.singleton _)
  | roles _ _ _ visits => exact isChain_cons_ok (isChain_cons_ok visits.isChain)

/-- The calls are the beginning of what a reconcile without failures calls. -/
theorem Course.accesses (h : Course render key calls ending) :
    ∃ parts, calls.map Completed.call <+:
        .get (Resource.kind Revision) key :: .list (Resource.kind ResourceDefinition) .all ::
          parts.flatten ∧
      ∀ revision definitions, HasRead key calls revision definitions →
        List.Forall₂ Access (render revision (controlledBy definitions revision.metadata.uid))
          parts := by
  cases h with
  | missing _ => exact ⟨[], ⟨_, rfl⟩, fun _ _ read => absurd read not_hasRead_singleton⟩
  | unread _ _ => exact ⟨[], ⟨_, rfl⟩, fun _ _ read => absurd read not_hasRead_singleton⟩
  | leaving _ _ => exact ⟨[], ⟨_, rfl⟩, fun _ _ read => absurd read not_hasRead_singleton⟩
  | unlisted _ _ unread =>
    refine ⟨[], ⟨_, rfl⟩, ?_⟩
    rintro revision definitions ⟨m, ms, rest, read, _, decoded⟩
    cases read
    rw [Except.bind, decoded] at unread
    contradiction
  | roles found _ decoded visits =>
    obtain ⟨parts, accesses, start⟩ := visits.accesses
    refine ⟨parts, ?_, ?_⟩
    · simpa only [List.map_cons, List.prefix_cons_inj] using start
    · rintro revision definitions ⟨m, ms, rest, read, found', decoded'⟩
      cases read
      cases found.symm.trans found'
      cases decoded.symm.trans decoded'
      exact accesses

/-- Nothing is written before the revision and the definitions have been read, and then only for
a rendered role. -/
theorem Course.visit {x : Completed} {k : String} (h : Course render key calls ending)
    (mem : x ∈ calls) (target : x.call.target? = some k) :
    ∃ revision definitions, HasRead key calls revision definitions ∧
      ∃ role ∈ render revision (controlledBy definitions revision.metadata.uid),
        ∃ made result, Visit revision role made result ∧ x ∈ made := by
  cases h with
  | missing _ | unread _ _ | leaving _ _ =>
    cases List.mem_singleton.1 mem
    contradiction
  | unlisted _ _ _ =>
    rcases List.mem_pair.1 mem with rfl | rfl
    · contradiction
    · contradiction
  | @roles m revision ms definitions calls failure found _ decoded visits =>
    refine ⟨revision, definitions, ⟨m, ms, calls, rfl, found, decoded⟩, ?_⟩
    rcases List.mem_cons.1 mem with rfl | mem
    · contradiction
    · rcases List.mem_cons.1 mem with rfl | mem
      · contradiction
      · exact visits.visit mem

/-- The error that ends a reconcile was the last reply, unless neither of them is a cancelled
call. -/
theorem Course.last (h : Course render key calls ending) :
    lastFailure? calls = ending.failure? ∨
    (∀ e, lastFailure? calls = some e → e.isCancelled = false) ∧
      ∀ e, ending.failure? = some e → e.isCancelled = false := by
  cases h with
  | @missing e missing =>
    refine .inr ⟨fun e' same => ?_, fun e' none => by contradiction⟩
    cases same
    exact isCancelled_of_isNotFound missing
  | @unread reply e unread _ =>
    cases reply with
    | error e' => cases unread; exact .inl rfl
    | ok m =>
      obtain ⟨message, rfl⟩ := Client.eq_invalidObject_of_typed unread
      exact .inr ⟨fun e' none => by contradiction, fun e' same => by cases same; rfl⟩
  | leaving _ _ => exact .inl rfl
  | @unlisted m revision reply e _ _ unread =>
    cases reply with
    | error e' => cases unread; exact .inl rfl
    | ok ms =>
      obtain ⟨message, rfl⟩ := Client.eq_invalidObject_of_mapM_typed unread
      exact .inr ⟨fun e' none => by contradiction, fun e' same => by cases same; rfl⟩
  | @roles m revision ms definitions calls failure _ _ _ visits =>
    have reads := lastFailure?_append (rfl : lastFailure?
      [⟨.get (Resource.kind Revision) key, .ok m⟩,
        ⟨.list (Resource.kind ResourceDefinition) .all, .ok ms⟩] = none) calls
    rw [List.cons_append, List.cons_append, List.nil_append] at reads
    have ends : (failure.elim Ending.rolesProcessed Ending.roleFailed).failure? = failure := by
      cases failure with
      | none => rfl
      | some e => rfl
    rw [reads, ends]
    refine visits.last.imp id fun ⟨last, passing⟩ => ⟨fun e same => ?_, passing⟩
    rw [last] at same
    contradiction

theorem Course.cancelled_iff (h : Course render key calls ending) (shortWait : UInt64) :
    ending.result shortWait = .error .cancelled ↔
      ∃ e, lastFailure? calls = some e ∧ e.isCancelled = true := by
  rw [Ending.result_eq_cancelled_iff]
  rcases h.last with same | ⟨passing, passing'⟩
  · rw [same]
  · constructor
    · rintro ⟨e, ends, cancelled⟩
      rw [passing' e ends] at cancelled
      contradiction
    · rintro ⟨e, last, cancelled⟩
      rw [passing e last] at cancelled
      contradiction

theorem new_eq_ok {timing : Timing} {r : Reconciler} (built : new render timing = .ok r) :
    r.render = render ∧ r.timing = timing := by
  unfold new at built
  split at built
  · contradiction
  · cases built
    exact ⟨rfl, rfl⟩

/-- Whatever the store replies, a reconcile that is not given up takes one of the courses and
reports the result of its ending. The calls keep their order, no error but that of a missing role
is followed by another call, and the reconcile is cancelled exactly if its last call was. -/
theorem reconcile_classified {σ : Type} {timing : Timing} {r : Reconciler}
    (built : new render timing = .ok r) (serve : Server σ) (key : ObjectKey) (s : σ)
    (inTime : ((r.plan key).run serve (some timing.timeout.toNat) 0 s).result.isSome = true) :
    let report := r.reconcile serve key s
    (∃ ending, Course render key report.calls ending ∧
      report.result = ending.result timing.shortWait) ∧
    (∃ parts, report.calls.map Completed.call <+:
        .get (Resource.kind Revision) key :: .list (Resource.kind ResourceDefinition) .all ::
          parts.flatten ∧
      ∀ revision definitions, HasRead key report.calls revision definitions →
        List.Forall₂ Access (render revision (controlledBy definitions revision.metadata.uid))
          parts) ∧
    report.calls.IsChain Absorbed ∧
    (report.result = .error .cancelled ↔
      ∃ e, lastFailure? report.calls = some e ∧ e.isCancelled = true) ∧
    0 < timing.shortWait ∧ timing.shortWait < timing.timeout := by
  obtain ⟨rfl, rfl⟩ := new_eq_ok built
  intro report
  obtain ⟨result, ends⟩ := Option.isSome_iff_exists.1 inTime
  have reported : report.result = result := by simp only [report, reconcile, ends]
  obtain ⟨ending, course, same⟩ := course_of_ends (Plan.ends_run serve _ _ ends)
  rw [← calls_reconcile] at course
  rw [reported, same]
  exact ⟨⟨ending, course, rfl⟩, course.accesses, course.isChain, course.cancelled_iff _,
    Timing.flaw?_eq_none_iff.1 r.flawless⟩

/-- The first role belongs to someone else, and the creation of the second one is cancelled. -/
def unkind : Server Unit := .immediate fun c s =>
  match c with
  | .get kind key =>
    if kind = Resource.kind Revision then
      (.ok (.new "pkg.rolesync.io/v1alpha1" kind provider.metadata), s)
    else if key.name = Render.systemRoleName "p" then
      (.ok (.new "rbac.authorization.k8s.io/v1" kind
        { name := key.name
          ownerReferences := [{ provider.controllerReference with uid := ⟨"other"⟩ }] }), s)
    else (.error (.notFound kind key.text), s)
  | .list .. => (.ok [], s)
  | .create _ => (.error (.cancelled "deadline"), s)
  | .update _ => (.error (.internal "update"), s)
  | .delete .. => (.error (.internal "delete"), s)

theorem unkind_cancelled :
    let report := (⟨Render.roles, {}, by decide⟩ : Reconciler).reconcile unkind (.cluster "p") ()
    report.result = .error .cancelled ∧ report.calls.length = 5 ∧
      report.calls.IsChain Absorbed := by
  have built : new Render.roles {} = .ok ⟨Render.roles, {}, by decide⟩ := rfl
  obtain ⟨_, _, chain, cancelled, _⟩ :=
    reconcile_classified built unkind (.cluster "p") () (by decide +kernel)
  exact ⟨cancelled.2 ⟨.cancelled "deadline", by decide +kernel, rfl⟩, by decide +kernel, chain⟩

end Reconciler

end ProviderRoles
