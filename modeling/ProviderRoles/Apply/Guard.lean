import ProviderRoles.Store.Error

/-! Conditions on overwriting a stored object. -/
namespace ProviderRoles

inductive ApplyError where
  /-- The stored object is controlled by someone else, and nothing was written. -/
  | notControllable (kind key : String) (uid : Uid)
  | store (e : StoreError)
  deriving DecidableEq

namespace ApplyError

def message : ApplyError → String
  | .notControllable kind key uid =>
    "existing " ++ kind ++ " " ++ key ++ " is not controlled by UID " ++ uid.text
  | .store e => e.message

def category : ApplyError → ErrorCategory
  | .notControllable .. => .conflict
  | .store e => e.category

def isNotControllable : ApplyError → Bool
  | .notControllable .. => true
  | .store _ => false

def isCancelled : ApplyError → Bool
  | .notControllable .. => false
  | .store e => e.isCancelled

end ApplyError

/-- Looks at the stored object and the one that is to replace it. -/
abbrev Guard := (current desired : Manifest) → Except ApplyError Unit

/-- Whether the owner with the UID may overwrite an object with these references: it has no
controller, or the owner is its sole controller. -/
def isControllableBy (refs : List OwnerReference) (uid : Uid) : Bool :=
  (controllers refs).isEmpty || isControlledBy refs uid

namespace Guard

def controllableBy (uid : Uid) : Guard := fun current _ =>
  if isControllableBy current.metadata.ownerReferences uid then .ok ()
  else .error (.notControllable current.kind current.key.text uid)

/-- All guards in order. The first refusal counts. -/
def all (guards : List Guard) : Guard := fun current desired =>
  guards.forM fun guard => guard current desired

end Guard

end ProviderRoles
