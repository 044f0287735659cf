import ProviderRoles.Kind.ResourceDefinition
import ProviderRoles.Reconcile.Failure

/-! The log. Each event has a level, a message and fields. -/
namespace ProviderRoles

inductive Level where
  | trace
  | debug
  | info
  | warn
  deriving DecidableEq

def Level.name : Level → String
  | .trace => "TRACE"
  | .debug => "DEBUG"
  | .info => "INFO"
  | .warn => "WARN"

inductive Event where
  | created (kind : String) (key : ObjectKey)
  | upToDate (kind : String) (key : ObjectKey)
  | updated (kind : String) (key : ObjectKey) (version : Option String)
  | revisionMissing
  | revisionUnavailable (e : ReconcileError)
  | revisionBeingDeleted
  | requeueing (e : ReconcileError) (category : ErrorCategory)
  | roleApplied (name : String)
  | roleContested (name : String) (e : ApplyError)
  | rolesApplied (definitions applied conflicts : Nat)
  | timedOut (seconds : UInt64)
  deriving DecidableEq

inductive EventField where
  | text (s : String)
  | number (n : Nat)
  deriving DecidableEq

namespace Event

def level : Event → Level
  | .created .. => .debug
  | .upToDate .. => .trace
  | .updated .. => .debug
  | .revisionMissing => .debug
  | .revisionUnavailable _ => .debug
  | .revisionBeingDeleted => .debug
  | .requeueing .. => .warn
  | .roleApplied _ => .debug
  | .roleContested .. => .warn
  | .rolesApplied .. => .info
  | .timedOut _ => .warn

def message : Event → String
  | .created .. => "Created object"
  | .upToDate .. => "Object already up to date"
  | .updated .. => "Updated object"
  | .revisionMissing => "Provider revision not found, nothing to do"
  | .revisionUnavailable _ => "Cannot reconcile"
  | .revisionBeingDeleted => "Provider revision is being deleted, nothing to do"
  | .requeueing .. => "Cannot reconcile, requeueing"
  | .roleApplied _ => "Applied cluster role"
  | .roleContested .. => "Cluster role is controlled by another revision, skipping"
  | .rolesApplied .. => "Applied cluster roles"
  | .timedOut _ => "Reconcile timed out"

/-- A version that may be missing, the text of one that is there in quotes. -/
def versionText : Option String → String
  | none => "None"
  | some v => "Some(" ++ Quoted.quote v ++ ")"

def fields : Event → List (String × EventField)
  | .created kind key | .upToDate kind key => [("kind", .text kind), ("key", .text key.text)]
  | .updated kind key version =>
    [("kind", .text kind), ("key", .text key.text),
     ("resource_version", .text (versionText version))]
  | .revisionMissing | .revisionBeingDeleted => []
  | .revisionUnavailable e => [("error", .text e.message)]
  | .requeueing e category => [("error", .text e.message), ("category", .text category.name)]
  | .roleApplied name => [("cluster_role", .text name)]
  | .roleContested name e => [("cluster_role", .text name), ("error", .text e.message)]
  | .rolesApplied definitions applied conflicts =>
    [("definitions", .number definitions), ("applied", .number applied),
     ("conflicts", .number conflicts)]
  | .timedOut seconds => [("timeout", .text (toString seconds.toNat ++ "s"))]

end Event

/-- What a plan leaves behind besides its result. -/
inductive Note where
  | entered (revision : ObjectKey)
  | event (e : Event)
  | rendering (definitions : List ResourceDefinition)

end ProviderRoles
