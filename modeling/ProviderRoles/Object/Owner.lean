import ProviderRoles.Object.Key

/-! Owner references. Ownership is data on the owned object: a list of references to its
owners, some of them flagged as controller. An object is controlled when exactly one
reference is flagged; with two or more flagged it is nobody's, even if they agree. -/
namespace ProviderRoles

structure OwnerReference where
  apiVersion : String
  kind : String
  name : String
  uid : Uid
  controller : Option Bool
  blockOwnerDeletion : Option Bool
  deriving DecidableEq, Inhabited

namespace OwnerReference

def isController (r : OwnerReference) : Bool := r.controller = some true

/-- The reference as that of the controlling owner, whose deletion waits for the object. -/
def asController (r : OwnerReference) : OwnerReference :=
  { r with controller := some true, blockOwnerDeletion := some true }

def encode (r : OwnerReference) : Json :=
  .ofMap <| Json.ofFields
    [("apiVersion", some (.str r.apiVersion)), ("kind", some (.str r.kind)),
     ("name", some (.str r.name)), ("uid", some r.uid.encode),
     ("controller", r.controller.map .bool),
     ("blockOwnerDeletion", r.blockOwnerDeletion.map .bool)]

open Decode

def ofMembers (ms : SortedMap Json) : Except DecodeError OwnerReference := do
  let apiVersion ← field? ms "apiVersion" string
  let blockOwnerDeletion ← field? ms "blockOwnerDeletion" (optional boolean)
  let controller ← field? ms "controller" (optional boolean)
  let kind ← field? ms "kind" string
  let name ← field? ms "name" string
  let uid ← field? ms "uid" Uid.decode
  let apiVersion ← required "apiVersion" apiVersion
  let kind ← required "kind" kind
  let name ← required "name" name
  let uid ← required "uid" uid
  pure ⟨apiVersion, kind, name, uid, controller.join, blockOwnerDeletion.join⟩

def ofItems (xs : List Json) : Except DecodeError OwnerReference := do
  let apiVersion ← item "OwnerReference" 6 xs 0 string
  let kind ← item "OwnerReference" 6 xs 1 string
  let name ← item "OwnerReference" 6 xs 2 string
  let uid ← item "OwnerReference" 6 xs 3 Uid.decode
  let controller ← item? xs 4 (optional boolean)
  let blockOwnerDeletion ← item? xs 5 (optional boolean)
  pure ⟨apiVersion, kind, name, uid, controller.join, blockOwnerDeletion.join⟩

def decode : Decoder OwnerReference := record "OwnerReference" 6 ofMembers ofItems

end OwnerReference

/-- The flagged references, in order. -/
def controllers (refs : List OwnerReference) : List OwnerReference :=
  refs.filter OwnerReference.isController

/-- The flagged reference, if it is the only one. -/
def soleController? (refs : List OwnerReference) : Option OwnerReference :=
  match controllers refs with
  | [r] => some r
  | _ => none

def isControlledBy (refs : List OwnerReference) (uid : Uid) : Bool :=
  (soleController? refs).any (·.uid = uid)

/-- Puts `r` in place of the first reference with its UID, or at the end. -/
def replaceOrAppend (r : OwnerReference) : List OwnerReference → List OwnerReference
  | [] => [r]
  | s :: rest => if s.uid = r.uid then r :: rest else s :: replaceOrAppend r rest

/-- Puts `r` among the references and drops the flagged ones with another UID than its own.
Plain references stay. -/
def stampController (refs : List OwnerReference) (r : OwnerReference) : List OwnerReference :=
  replaceOrAppend r (refs.filter fun s => !s.isController || s.uid = r.uid)

end ProviderRoles
