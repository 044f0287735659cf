import ProviderRoles.Object.Manifest

/-! Cluster roles: sets of permissions that hold for the whole cluster. -/
namespace ProviderRoles

structure PolicyRule where
  apiGroups : List String := []
  resources : List String := []
  resourceNames : List String := []
  verbs : List String := []
  nonResourceURLs : List String := []
  deriving DecidableEq, Inhabited

namespace PolicyRule

/-- An empty list is left out. -/
def encodeList (texts : List String) : Option Json :=
  if texts.isEmpty then none else some (Json.strings texts)

def encode (r : PolicyRule) : Json :=
  .ofMap <| Json.ofFields
    [("apiGroups", encodeList r.apiGroups), ("resources", encodeList r.resources),
     ("resourceNames", encodeList r.resourceNames), ("verbs", some (Json.strings r.verbs)),
     ("nonResourceURLs", encodeList r.nonResourceURLs)]

open Decode

def ofMembers (ms : SortedMap Json) : Except DecodeError PolicyRule := do
  let apiGroups ← field? ms "apiGroups" (list string)
  let nonResourceURLs ← field? ms "nonResourceURLs" (list string)
  let resourceNames ← field? ms "resourceNames" (list string)
  let resources ← field? ms "resources" (list string)
  let verbs ← field? ms "verbs" (list string)
  pure ⟨apiGroups.getD [], resources.getD [], resourceNames.getD [], verbs.getD [],
    nonResourceURLs.getD []⟩

def ofItems (xs : List Json) : Except DecodeError PolicyRule := do
  let apiGroups ← item? xs 0 (list string)
  let resources ← item? xs 1 (list string)
  let resourceNames ← item? xs 2 (list string)
  let verbs ← item? xs 3 (list string)
  let nonResourceURLs ← item? xs 4 (list string)
  pure ⟨apiGroups.getD [], resources.getD [], resourceNames.getD [], verbs.getD [],
    nonResourceURLs.getD []⟩

def decode : Decoder PolicyRule := record "PolicyRule" 5 ofMembers ofItems

end PolicyRule

structure ClusterRole where
  metadata : ObjectMeta
  rules : List PolicyRule := []
  deriving DecidableEq, Inhabited

namespace ClusterRole

def encode (r : ClusterRole) : Except Timestamp.Component (SortedMap Json) := do
  let metadata ← r.metadata.encode
  pure <| Json.ofFields
    [("metadata", some metadata), ("rules", some (.arr (r.rules.map PolicyRule.encode)))]

open Decode

def ofMembers (ms : SortedMap Json) : Except DecodeError ClusterRole := do
  let metadata ← field? ms "metadata" ObjectMeta.decode
  let rules ← field? ms "rules" (list PolicyRule.decode)
  pure ⟨metadata.getD (.named ""), rules.getD []⟩

def ofItems (xs : List Json) : Except DecodeError ClusterRole := do
  let metadata ← item? xs 0 ObjectMeta.decode
  let rules ← item? xs 1 (list PolicyRule.decode)
  pure ⟨metadata.getD (.named ""), rules.getD []⟩

def decode : Decoder ClusterRole := record "ClusterRole" 2 ofMembers ofItems

instance : Resource ClusterRole where
  apiVersion := "rbac.authorization.k8s.io/v1"
  kind := "ClusterRole"
  metadata := metadata
  encode := encode
  decode := decode

end ClusterRole

end ProviderRoles
