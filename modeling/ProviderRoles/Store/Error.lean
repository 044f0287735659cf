import ProviderRoles.Object.Manifest

/-! Failures of store calls. -/
namespace ProviderRoles

inductive StoreError where
  | notFound (kind key : String)
  | alreadyExists (kind key : String)
  /-- The write was based on a stale read. -/
  | versionConflict (expected actual : String)
  | invalidObject (message : String)
  | connection (message : String)
  /-- The call was given up before it completed. -/
  | cancelled (message : String)
  | internal (message : String)
  deriving DecidableEq

/-- What kind of failure it is, for whoever watches. -/
inductive ErrorCategory where
  | notFound
  | conflict
  | validation
  | infrastructure
  | cancelled
  | internal
  deriving DecidableEq

def ErrorCategory.name : ErrorCategory → String
  | .notFound => "not_found"
  | .conflict => "conflict"
  | .validation => "validation"
  | .infrastructure => "infrastructure"
  | .cancelled => "cancelled"
  | .internal => "internal"

namespace StoreError

def message : StoreError → String
  | .notFound kind key => "Object not found: " ++ kind ++ "/" ++ key
  | .alreadyExists kind key => "Object already exists: " ++ kind ++ "/" ++ key
  | .versionConflict expected actual =>
    "Version conflict: expected " ++ expected ++ ", found " ++ actual
  | .invalidObject message => "Invalid object: " ++ message
  | .connection message => "Connection error: " ++ message
  | .cancelled message => "Operation cancelled: " ++ message
  | .internal message => "Internal error: " ++ message

def category : StoreError → ErrorCategory
  | .notFound .. => .notFound
  | .alreadyExists .. => .conflict
  | .versionConflict .. => .conflict
  | .invalidObject _ => .validation
  | .connection _ => .infrastructure
  | .cancelled _ => .cancelled
  | .internal _ => .internal

def isNotFound : StoreError → Bool
  | .notFound .. => true
  | _ => false

def isAlreadyExists : StoreError → Bool
  | .alreadyExists .. => true
  | _ => false

def isVersionConflict : StoreError → Bool
  | .versionConflict .. => true
  | _ => false

def isCancelled : StoreError → Bool
  | .cancelled _ => true
  | _ => false

/-- An object that has no typed or no written form is invalid for the store's callers. -/
def ofObjectError (e : ObjectError) : StoreError := .invalidObject e.message

end StoreError

end ProviderRoles
