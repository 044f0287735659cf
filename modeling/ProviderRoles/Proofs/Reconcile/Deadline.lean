import ProviderRoles.Proofs.Plan.Amid
import ProviderRoles.Proofs.Plan.Moments
import ProviderRoles.Proofs.Reconcile.Convergence
import ProviderRoles.Proofs.Reconcile.Course
import ProviderRoles.Proofs.Store.Delays

/-! A reconcile against the clock. In time it is as good as one without a limit. Late, it counts as
cancelled, and what it leaves is what the calls within the limit have left: some roles are done, one
is in between with nothing written, and the others have not been looked at. -/
namespace ProviderRoles

open Apply Store

namespace Reconciler

/-- `reconcile` by a clock with so many ticks a second. -/
def reconcileTicking {σ : Type} (ticks : Nat) (r : Reconciler) (serve : Server σ)
    (key : ObjectKey) (s : σ) : Report σ :=
  let run := (r.plan key).run serve (some (ticks * r.timing.timeout.toNat)) 0 s
  match run.result with
  | some result => ⟨result, run.state, run.calls, .entered key :: run.notes⟩
  | none =>
    ⟨.error .cancelled, run.state, run.calls,
     .entered key :: run.notes ++ [.event (.timedOut r.timing.timeout)]⟩

@[simp] theorem reconcileTicking_one {σ : Type} (r : Reconciler) (serve : Server σ)
    (key : ObjectKey) (s : σ) : r.reconcileTicking 1 serve key s = r.reconcile serve key s := by
  rw [reconcileTicking, Nat.one_mul]
  rfl

section

variable {σ : Type} {ticks : Nat} {r : Reconciler} {serve : Server σ} {key : ObjectKey} {s : σ}

theorem reconcileTicking_of_result {result : Except ReconcileError Outcome}
    (inTime : ((r.plan key).run serve (some (ticks * r.timing.timeout.toNat)) 0 s).result =
      some result) :
    let run := (r.plan key).run serve (some (ticks * r.timing.timeout.toNat)) 0 s
    let report := r.reconcileTicking ticks serve key s
    report.result = result ∧ report.state = run.state ∧ report.calls = run.calls := by
  simp only [reconcileTicking, inTime, and_self]

theorem reconcileTicking_of_givenUp
    (givenUp : ((r.plan key).run serve (some (ticks * r.timing.timeout.toNat)) 0 s).result =
      none) :
    let run := (r.plan key).run serve (some (ticks * r.timing.timeout.toNat)) 0 s
    let report := r.reconcileTicking ticks serve key s
    report.result = .error .cancelled ∧ report.state = run.state ∧ report.calls = run.calls := by
  simp only [reconcileTicking, givenUp, and_self]

end

/-- The calls for a role that is done: written, found as it should be, or refused. -/
inductive Processed (revision : Revision) (role : ClusterRole) : List Completed → Prop where
  | created {object m : Manifest} {e : StoreError} :
      Manifest.ofResource (stamp revision role) = .ok object → e.isNotFound = true →
      Processed revision role
        [⟨.get object.kind object.key, .error e⟩, ⟨.create (unversioned object), .ok m⟩]
  | overwritten {object current m : Manifest} :
      Manifest.ofResource (stamp revision role) = .ok object →
      isControllableBy current.metadata.ownerReferences revision.metadata.uid = true →
      Manifest.contentMatches current object = false →
      Processed revision role
        [⟨.get object.kind object.key, .ok current⟩, ⟨.update (adopt current object), .ok m⟩]
  | equal {object current : Manifest} :
      Manifest.ofResource (stamp revision role) = .ok object →
      isControllableBy current.metadata.ownerReferences revision.metadata.uid = true →
      Manifest.contentMatches current object = true →
      Processed revision role [⟨.get object.kind object.key, .ok current⟩]
  | refused {object current : Manifest} :
      Manifest.ofResource (stamp revision role) = .ok object →
      isControllableBy current.metadata.ownerReferences revision.metadata.uid = false →
      Processed revision role [⟨.get object.kind object.key, .ok current⟩]

/-- The calls for a role before the one that its application waits for: it reads the object, or has
read that there is something to write. -/
inductive Begun (revision : Revision) (role : ClusterRole) : List Completed → Prop where
  | reading {object : Manifest} : Manifest.ofResource (stamp revision role) = .ok object →
      Begun revision role []
  | creating {object : Manifest} {e : StoreError} :
      Manifest.ofResource (stamp revision role) = .ok object → e.isNotFound = true →
      Begun revision role [⟨.get object.kind object.key, .error e⟩]
  | overwriting {object current : Manifest} :
      Manifest.ofResource (stamp revision role) = .ok object →
      isControllableBy current.metadata.ownerReferences revision.metadata.uid = true →
      Manifest.contentMatches current object = false →
      Begun revision role [⟨.get object.kind object.key, .ok current⟩]

/-- The loop over the roles is in the middle of one of them. The calls are those for the roles
before it, all done, and those that have been made for it. -/
inductive Halfway (revision : Revision) :
    List ClusterRole → List Completed → List Completed → Prop where
  | here {role : ClusterRole} {unseen : List ClusterRole} {reads : List Completed} :
      Begun revision role reads → Halfway revision (role :: unseen) [] reads
  | later {role : ClusterRole} {roles : List ClusterRole} {made visited reads : List Completed} :
      Processed revision role made → Halfway revision roles visited reads →
      Halfway revision (role :: roles) (made ++ visited) reads

/-- Where a reconcile waits for a call: the calls up to its current step, and those of that step. -/
inductive Underway (render : Renderer) (key : ObjectKey) :
    List Completed → List Completed → Prop where
  | revision : Underway render key [] []
  | definitions {m : Manifest} {revision : Revision} :
      Client.typed Revision m = .ok revision → revision.metadata.isBeingDeleted = false →
      Underway render key [⟨.get (Resource.kind Revision) key, .ok m⟩] []
  | roles {m : Manifest} {revision : Revision} {ms : List Manifest}
      {definitions : List ResourceDefinition} {visited reads : List Completed} :
      Client.typed Revision m = .ok revision → revision.metadata.isBeingDeleted = false →
      ms.mapM (Client.typed ResourceDefinition) = .ok definitions →
      Halfway revision (render revision (controlledBy definitions revision.metadata.uid)) visited
        reads →
      Underway render key (⟨.get (Resource.kind Revision) key, .ok m⟩ ::
        ⟨.list (Resource.kind ResourceDefinition) .all, .ok ms⟩ :: visited) reads

variable {revision : Revision} {role : ClusterRole} {roles : List ClusterRole}
  {calls before reads first later : List Completed} {x : Completed}
  {failure : Option StoreError} {render : Renderer} {key : ObjectKey}

theorem split_cons {α : Type} {a b : α} {xs first later : List α}
    (split : a :: xs = first ++ b :: later) :
    first = [] ∨ ∃ rest, first = a :: rest ∧ xs = rest ++ b :: later :=
  (List.cons_eq_append_iff.1 split).imp And.left id

theorem split_singleton {α : Type} {a b : α} {first later : List α}
    (split : [a] = first ++ b :: later) : first = [] := by
  rcases split_cons split with none | ⟨_, _, rest⟩
  · exact none
  · exact absurd rest.symm (by simp)

theorem Begun.target (h : Begun revision role reads) (mem : x ∈ reads) :
    x.call.target? = none := by
  cases h with
  | reading _ => contradiction
  | creating _ _ | overwriting _ _ _ =>
    cases List.mem_singleton.1 mem
    rfl

theorem Halfway.target (h : Halfway revision roles before reads) (mem : x ∈ reads) :
    x.call.target? = none := by
  induction h with
  | here begun => exact begun.target mem
  | later _ _ ih => exact ih mem

theorem Underway.target (h : Underway render key before reads) (mem : x ∈ reads) :
    x.call.target? = none := by
  cases h with
  | revision | definitions _ _ => contradiction
  | roles _ _ _ halfway => exact halfway.target mem

theorem Visit.processed {result : Except ApplyError Manifest}
    (h : Visit revision role calls result) (goesOn : GoesOn result) :
    Processed revision role calls := by
  cases h with
  | unwritable _ => contradiction
  | applied written course =>
    cases course with
    | missing reply missing =>
      cases reply with
      | error e => contradiction
      | ok m => exact .created written missing
    | unread _ => contradiction
    | refused refusal => exact .refused written (all_controllableBy_error refusal).1
    | equal allowed same => exact .equal written (all_controllableBy_iff.1 allowed) same
    | different reply allowed different =>
      cases reply with
      | error e => contradiction
      | ok m => exact .overwritten written (all_controllableBy_iff.1 allowed) different

theorem Visit.begun {result : Except ApplyError Manifest}
    (h : Visit revision role calls result) (split : calls = first ++ x :: later) :
    Begun revision role first := by
  cases h with
  | unwritable _ => exact absurd split.symm (List.append_ne_nil_of_right_ne_nil _ (by simp))
  | applied written course =>
    cases course with
    | unread _ | refused _ | equal _ _ =>
      rw [split_singleton split]
      exact .reading written
    | missing reply missing =>
      rcases split_cons split with rfl | ⟨_, rfl, waiting⟩
      · exact .reading written
      · rw [split_singleton waiting]
        exact .creating written missing
    | different reply allowed different =>
      rcases split_cons split with rfl | ⟨_, rfl, waiting⟩
      · exact .reading written
      · rw [split_singleton waiting]
        exact .overwriting written (all_controllableBy_iff.1 allowed) different

theorem Visits.halfway (h : Visits revision roles calls failure)
    (split : calls = first ++ x :: later) :
    ∃ visited reads, first = visited ++ reads ∧ Halfway revision roles visited reads := by
  induction h generalizing first with
  | nil => exact absurd split.symm (by simp)
  | failed visit => exact ⟨[], first, rfl, .here (visit.begun split)⟩
  | @next role roles made others result failure visit goesOn _ ih =>
    -- The loop waits for a call of this role, or has gone on to the others.
    have goneOn : ∀ tail, first = made ++ tail → others = tail ++ x :: later →
        ∃ visited reads, first = visited ++ reads ∧
          Halfway revision (role :: roles) visited reads := by
      rintro tail rfl waiting
      obtain ⟨visited, reads, rfl, halfway⟩ := ih waiting
      exact ⟨made ++ visited, reads, (List.append_assoc ..).symm,
        .later (visit.processed goesOn) halfway⟩
    rcases List.append_eq_append_iff.1 split with ⟨tail, rfl, waiting⟩ | ⟨tail, rfl, waiting⟩
    · exact goneOn tail rfl waiting
    · cases tail with
      | cons y tail => exact ⟨[], first, rfl, .here (visit.begun rfl)⟩
      | nil => exact goneOn [] (by simp) waiting.symm

theorem Course.underway {ending : Ending} (h : Course render key calls ending)
    (split : calls = first ++ x :: later) :
    ∃ before reads, first = before ++ reads ∧ Underway render key before reads := by
  cases h with
  | missing _ | unread _ _ | leaving _ _ =>
    rw [split_singleton split]
    exact ⟨[], [], rfl, .revision⟩
  | unlisted found live _ =>
    rcases split_cons split with rfl | ⟨_, rfl, waiting⟩
    · exact ⟨[], [], rfl, .revision⟩
    · rw [split_singleton waiting]
      exact ⟨_, [], rfl, .definitions found live⟩
  | roles found live decoded visits =>
    rcases split_cons split with rfl | ⟨_, rfl, rest⟩
    · exact ⟨[], [], rfl, .revision⟩
    · rcases split_cons rest with rfl | ⟨_, rfl, waiting⟩
      · exact ⟨_, [], rfl, .definitions found live⟩
      · obtain ⟨visited, reads, rfl, halfway⟩ := visits.halfway waiting
        exact ⟨_, reads, rfl, .roles found live decoded halfway⟩

/-- A reconcile that would come to its end in time is one without a limit. Otherwise it is cancelled
after the calls that complete in time, in the middle of reading the revision or the definitions or
in the middle of one role. Reads without effect given, that role is as the roles before it have
left it. -/
theorem reconcile_cut_off {σ τ : Type} (r : Reconciler) (ticks : Nat) (serve : Server σ)
    {stored : σ → τ} (atCompletion : ∀ c w, stored (serve c w).begun = stored w)
    (key : ObjectKey) (s : σ) :
    let deadline := ticks * r.timing.timeout.toNat
    let full := (r.plan key).run serve none 0 s
    let moments := (r.plan key).moments serve 0 s
    let early := moments.filter (·.time ≤ deadline)
    let report := r.reconcileTicking ticks serve key s
    (ticks = 1 → report = r.reconcile serve key s) ∧
    full.calls = moments.map Moment.completed ∧ full.state = latest s moments ∧
    (full.elapsed ≤ deadline →
      full.result = some report.result ∧ report.state = full.state ∧
      report.calls = full.calls) ∧
    (deadline < full.elapsed →
      report.result = .error .cancelled ∧ report.calls = early.map Moment.completed ∧
      stored report.state = stored (latest s early) ∧
      ∃ before reads, report.calls = before ++ reads ∧ Underway r.render key before reads ∧
        ((∀ c w, c.target? = none → stored (serve c w).finish.2 = stored w) →
          stored report.state = stored (latest s (early.take before.length)))) := by
  intro deadline full moments early report
  let limited := (r.plan key).run serve (some deadline) 0 s
  obtain ⟨result, ended⟩ := Plan.result_run_unlimited serve (r.plan key) 0 s
  refine ⟨?_, Plan.calls_run_unlimited .., Plan.state_run_unlimited .., fun inTime => ?_,
    fun late => ?_⟩
  · rintro rfl
    exact reconcileTicking_one ..
  · have same : limited = full := Plan.run_within serve inTime
    obtain ⟨reported, left, made⟩ := reconcileTicking_of_result ((congrArg _ same).trans ended)
    exact ⟨ended.trans (congrArg some reported.symm), left.trans (congrArg _ same),
      made.trans (congrArg _ same)⟩
  · obtain ⟨givenUp, x, later, waiting⟩ := Plan.run_beyond serve (Nat.zero_le _) late
    obtain ⟨cancelled, left, made⟩ := reconcileTicking_of_givenUp givenUp
    have calls : report.calls = early.map Moment.completed :=
      made.trans (Plan.calls_run_limited ..)
    have state : stored report.state = stored (latest s early) :=
      (congrArg stored left).trans (Plan.stored_run_limited serve atCompletion ..)
    refine ⟨cancelled, calls, state, ?_⟩
    -- The run without a limit takes a course, and the one with it comes to a point on it.
    obtain ⟨ending, course, _⟩ := course_of_ends (Plan.ends_run serve none (r.plan key) ended)
    obtain ⟨before, reads, split, underway⟩ := course.underway waiting
    refine ⟨before, reads, made.trans split, underway, fun idle => ?_⟩
    have early_split : early.map Moment.completed = before ++ reads :=
      calls.symm.trans (made.trans split)
    obtain ⟨done, tail, parts, completed, pending⟩ := List.map_eq_append_iff.1 early_split
    obtain ⟨others, all⟩ := Plan.filter_moments_prefix deadline serve (r.plan key) 0 s
    have whole : moments = done ++ (tail ++ others) := by
      rw [← List.append_assoc, ← parts]
      exact all.symm
    have onlyReads : ∀ m ∈ tail, m.completed.call.target? = none := by
      intro m mem
      have read : m.completed ∈ reads := pending ▸ List.mem_map_of_mem mem
      exact underway.target read
    rw [state, ← completed, List.length_map, parts, List.take_left]
    exact Plan.stored_latest_of_quiet serve idle whole onlyReads

/-- Eleven seconds for each call are too many: one role has been written, and the next one was
looked at. -/
theorem installation_cut_off :
    let r : Reconciler := ⟨Render.roles, {}, by decide⟩
    let report := r.reconcile (slow (fun _ => 11) (calm fun _ => ⟨⟨"new"⟩, .epoch⟩))
      (.cluster "p") (Store.new.after installation, 0)
    report.result = .error .cancelled ∧ report.calls.length = 5 ∧
    (∃ before reads, report.calls = before ++ reads ∧
      Underway Render.roles (.cluster "p") before reads) ∧
    (report.state.1.objects.get? "ClusterRole/rolesync:provider:p:system").isSome = true ∧
    (report.state.1.objects.get? "ClusterRole/rolesync:provider:p:aggregate-to-edit").isSome =
      false := by
  intro r report
  let serve := slow (fun _ => 11) (calm fun _ => ⟨⟨"new"⟩, .epoch⟩)
  let s := (Store.new.after installation, 0)
  let deadline := 1 * r.timing.timeout.toNat
  let early := ((r.plan (.cluster "p")).moments serve 0 s).filter (·.time ≤ deadline)
  have facts : deadline < ((r.plan (.cluster "p")).run serve none 0 s).elapsed ∧
      (early.map Moment.completed).length = 5 ∧
      ((latest s early).1.objects.get? "ClusterRole/rolesync:provider:p:system").isSome = true ∧
      ((latest s early).1.objects.get?
        "ClusterRole/rolesync:provider:p:aggregate-to-edit").isSome = false := by
    decide +kernel
  obtain ⟨slowly, five, written, unwritten⟩ := facts
  have atCompletion : ∀ c w, (serve c w).begun.1 = w.1 := fun _ _ => rfl
  obtain ⟨clock, _, _, _, late⟩ := reconcile_cut_off r 1 serve atCompletion (.cluster "p") s
  rw [clock rfl] at late
  obtain ⟨cancelled, calls, state, before, reads, split, underway, _⟩ := late slowly
  have left : report.state.1 = (latest s early).1 := state
  refine ⟨cancelled, ?_, ⟨before, reads, split, underway⟩, ?_, ?_⟩
  · rw [calls]
    exact five
  · rw [left]
    exact written
  · rw [left]
    exact unwritten

end Reconciler

end ProviderRoles
