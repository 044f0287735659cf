import ProviderRoles.Apply.Basic
import ProviderRoles.Config.Timing
import ProviderRoles.Render
import ProviderRoles.Store.Client

/-! Reconciling a revision: its cluster roles are brought to what the renderer wants.
A role that someone else controls is left alone, a failure that may pass ends in another
try after a short wait, and a reconcile that takes too long is given up. -/
namespace ProviderRoles

structure Tally where
  applied : Nat := 0
  conflicts : Nat := 0
  deriving DecidableEq

/-- Reconciles revisions with a renderer and flawless timings. -/
structure Reconciler where
  render : Renderer
  timing : Timing
  flawless : timing.flaw? = none

namespace Reconciler

def new (render : Renderer) (timing : Timing) : Except TimingFlaw Reconciler :=
  match h : timing.flaw? with
  | some flaw => .error flaw
  | none => .ok ⟨render, timing, h⟩

/-- The role as an object that the revision controls. -/
def stamp (revision : Revision) (role : ClusterRole) : ClusterRole :=
  { role with metadata := role.metadata.setController revision.controllerReference }

/-- Applies a role under the condition that the revision may control it. -/
def applyRole (revision : Revision) (role : ClusterRole) :
    Plan (Except ApplyError Manifest) := do
  match Manifest.ofResource (stamp revision role) with
  | .error e => pure (.error (.store (.ofObjectError e)))
  | .ok object => Apply.apply object [Guard.controllableBy revision.metadata.uid]

/-- Applies the roles in order up to the first failure that is not a conflict. -/
def applyRoles (revision : Revision) :
    List ClusterRole → Tally → Plan (Except ReconcileError Tally)
  | [], tally => pure (.ok tally)
  | role :: roles, tally => do
    let name := role.metadata.name
    match ← applyRole revision role with
    | .ok _ =>
      Plan.log (.roleApplied name)
      applyRoles revision roles { tally with applied := tally.applied + 1 }
    | .error e =>
      if e.isNotControllable then
        Plan.log (.roleContested name e)
        applyRoles revision roles { tally with conflicts := tally.conflicts + 1 }
      else if e.isCancelled then pure (.error .cancelled)
      else
        Plan.log (.requeueing (.applyRole name e) e.category)
        pure (.error (.applyRole name e))

/-- Renders and applies the roles of a revision that is there to stay. -/
def converge (r : Reconciler) (revision : Revision) (definitions : List ResourceDefinition) :
    Plan (Except ReconcileError Outcome) := do
  let owned := controlledBy definitions revision.metadata.uid
  Plan.note (.rendering owned) (pure ())
  match ← applyRoles revision (r.render revision owned) {} with
  | .ok tally =>
    Plan.log (.rolesApplied owned.length tally.applied tally.conflicts)
    pure (.ok .done)
  | .error .cancelled => pure (.error .cancelled)
  | .error _ => pure (.ok (.requeueAfter r.timing.shortWait))

/-- Lists the definitions for a revision that was found. -/
def withDefinitions (r : Reconciler) (revision : Revision) :
    Plan (Except ReconcileError Outcome) := do
  match ← Client.list ResourceDefinition Selector.all with
  | .ok definitions => r.converge revision definitions
  | .error e =>
    if e.isCancelled then pure (.error .cancelled)
    else
      Plan.log (.requeueing (.listDefinitions e) e.category)
      pure (.ok (.requeueAfter r.timing.shortWait))

/-- Reconciles the revision at a key, however long it takes. -/
def plan (r : Reconciler) (key : ObjectKey) : Plan (Except ReconcileError Outcome) := do
  match ← Client.get Revision key with
  | .ok revision =>
    if revision.metadata.isBeingDeleted then
      Plan.log .revisionBeingDeleted
      pure (.ok .done)
    else r.withDefinitions revision
  | .error e =>
    if e.isNotFound then
      Plan.log .revisionMissing
      pure (.ok .done)
    else if e.isCancelled then pure (.error .cancelled)
    else
      Plan.log (.revisionUnavailable (.getRevision e))
      pure (.error (.getRevision e))

structure Report (σ : Type) where
  result : Except ReconcileError Outcome
  state : σ
  calls : List Completed
  notes : List Note

/-- Reconciles within the time limit. A reconcile that is given up counts as cancelled. -/
def reconcile {σ : Type} (r : Reconciler) (serve : Server σ) (key : ObjectKey) (s : σ) :
    Report σ :=
  let run := (r.plan key).run serve (some r.timing.timeout.toNat) 0 s
  match run.result with
  | some result => ⟨result, run.state, run.calls, .entered key :: run.notes⟩
  | none =>
    ⟨.error .cancelled, run.state, run.calls,
     .entered key :: run.notes ++ [.event (.timedOut r.timing.timeout)]⟩

end Reconciler

end ProviderRoles
