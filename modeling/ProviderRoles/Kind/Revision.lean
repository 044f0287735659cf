import ProviderRoles.Kind.ClusterRole

/-! Provider revisions: versioned units of deployment that own the resource definitions
they install. -/
namespace ProviderRoles

inductive DesiredState where
  | inactive
  | active
  deriving DecidableEq, Inhabited

namespace DesiredState

def names : List (String × DesiredState) := [("Inactive", .inactive), ("Active", .active)]

def encode : DesiredState → Json
  | .inactive => .str "Inactive"
  | .active => .str "Active"

def decode : Decode.Decoder DesiredState := Decode.variant names

end DesiredState

structure RevisionSpec where
  package : String := ""
  revision : Int64 := 0
  desiredState : DesiredState := .inactive
  deriving DecidableEq, Inhabited

namespace RevisionSpec

def encode (s : RevisionSpec) : Json :=
  .ofMap <| Json.ofFields
    [("package", some (.str s.package)), ("revision", some (.int s.revision.toInt)),
     ("desiredState", some s.desiredState.encode)]

open Decode

def ofMembers (ms : SortedMap Json) : Except DecodeError RevisionSpec := do
  let desiredState ← field? ms "desiredState" DesiredState.decode
  let package ← field? ms "package" string
  let revision ← field? ms "revision" signed64
  pure ⟨package.getD "", revision.getD 0, desiredState.getD .inactive⟩

def ofItems (xs : List Json) : Except DecodeError RevisionSpec := do
  let package ← item? xs 0 string
  let revision ← item? xs 1 signed64
  let desiredState ← item? xs 2 DesiredState.decode
  pure ⟨package.getD "", revision.getD 0, desiredState.getD .inactive⟩

def decode : Decoder RevisionSpec := record "ProviderRevisionSpec" 3 ofMembers ofItems

end RevisionSpec

structure RevisionStatus where
  /-- What the provider asks for beyond its own resource types. -/
  permissionRequests : List PolicyRule := []
  deriving DecidableEq, Inhabited

namespace RevisionStatus

def encode (s : RevisionStatus) : Json :=
  .ofMap <| Json.ofFields
    [("permissionRequests", if s.permissionRequests.isEmpty then none
      else some (.arr (s.permissionRequests.map PolicyRule.encode)))]

open Decode

def ofMembers (ms : SortedMap Json) : Except DecodeError RevisionStatus := do
  let requests ← field? ms "permissionRequests" (list PolicyRule.decode)
  pure ⟨requests.getD []⟩

def ofItems (xs : List Json) : Except DecodeError RevisionStatus := do
  let requests ← item? xs 0 (list PolicyRule.decode)
  pure ⟨requests.getD []⟩

def decode : Decoder RevisionStatus := record "ProviderRevisionStatus" 1 ofMembers ofItems

end RevisionStatus

structure Revision where
  metadata : ObjectMeta
  spec : RevisionSpec := {}
  status : RevisionStatus := {}
  deriving DecidableEq, Inhabited

namespace Revision

def gvk : GroupVersionKind := ⟨"pkg.rolesync.io", "v1alpha1", "ProviderRevision"⟩

def encode (r : Revision) : Except Timestamp.Component (SortedMap Json) := do
  let metadata ← r.metadata.encode
  pure <| Json.ofFields
    [("metadata", some metadata), ("spec", some r.spec.encode),
     ("status", some r.status.encode)]

open Decode

def ofMembers (ms : SortedMap Json) : Except DecodeError Revision := do
  let metadata ← field? ms "metadata" ObjectMeta.decode
  let spec ← field? ms "spec" RevisionSpec.decode
  let status ← field? ms "status" RevisionStatus.decode
  pure ⟨metadata.getD (.named ""), spec.getD {}, status.getD {}⟩

def ofItems (xs : List Json) : Except DecodeError Revision := do
  let metadata ← item? xs 0 ObjectMeta.decode
  let spec ← item? xs 1 RevisionSpec.decode
  let status ← item? xs 2 RevisionStatus.decode
  pure ⟨metadata.getD (.named ""), spec.getD {}, status.getD {}⟩

def decode : Decoder Revision := record "ProviderRevision" 3 ofMembers ofItems

instance : Resource Revision where
  apiVersion := gvk.apiVersion
  kind := gvk.kind
  metadata := metadata
  encode := encode
  decode := decode

/-- The reference by which the revision controls what it owns. -/
def controllerReference (r : Revision) : OwnerReference :=
  (r.metadata.referenceTo gvk).asController

end Revision

end ProviderRoles
