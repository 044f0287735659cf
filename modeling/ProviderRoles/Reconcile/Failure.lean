import ProviderRoles.Apply.Guard

/-! What can end a reconcile early. -/
namespace ProviderRoles

inductive ReconcileError where
  | getRevision (source : StoreError)
  | listDefinitions (source : StoreError)
  | applyRole (name : String) (source : ApplyError)
  | cancelled
  deriving DecidableEq

namespace ReconcileError

def message : ReconcileError → String
  | .getRevision source => "cannot get provider revision: " ++ source.message
  | .listDefinitions source => "cannot list custom resource definitions: " ++ source.message
  | .applyRole name source => "cannot apply cluster role " ++ name ++ ": " ++ source.message
  | .cancelled => "reconcile cancelled"

def isCancelled : ReconcileError → Bool
  | .cancelled => true
  | _ => false

end ReconcileError

/-- What to do next with a revision that was reconciled. -/
inductive Outcome where
  /-- Nothing, until something changes. -/
  | done
  /-- Try again after so many seconds. -/
  | requeueAfter (seconds : UInt64)
  deriving DecidableEq

end ProviderRoles
