import ProviderRoles.Object.Manifest

/-! Definitions of custom resources: extensions of the cluster's schema, usually installed
and controlled by a provider revision. -/
namespace ProviderRoles

inductive ResourceScope where
  | cluster
  | namespaced
  deriving DecidableEq, Inhabited

namespace ResourceScope

def names : List (String × ResourceScope) :=
  [("Cluster", .cluster), ("Namespaced", .namespaced)]

def encode : ResourceScope → Json
  | .cluster => .str "Cluster"
  | .namespaced => .str "Namespaced"

def decode : Decode.Decoder ResourceScope := Decode.variant names

end ResourceScope

structure DefinitionNames where
  kind : String
  plural : String
  singular : Option String := none
  listKind : Option String := none
  deriving DecidableEq, Inhabited

namespace DefinitionNames

def encode (n : DefinitionNames) : Json :=
  .ofMap <| Json.ofFields
    [("kind", some (.str n.kind)), ("plural", some (.str n.plural)),
     ("singular", n.singular.map .str), ("listKind", n.listKind.map .str)]

open Decode

def ofMembers (ms : SortedMap Json) : Except DecodeError DefinitionNames := do
  let kind ← field? ms "kind" string
  let listKind ← field? ms "listKind" (optional string)
  let plural ← field? ms "plural" string
  let singular ← field? ms "singular" (optional string)
  let kind ← required "kind" kind
  let plural ← required "plural" plural
  pure ⟨kind, plural, singular.join, listKind.join⟩

def ofItems (xs : List Json) : Except DecodeError DefinitionNames := do
  let kind ← item "CustomResourceDefinitionNames" 4 xs 0 string
  let plural ← item "CustomResourceDefinitionNames" 4 xs 1 string
  let singular ← item? xs 2 (optional string)
  let listKind ← item? xs 3 (optional string)
  pure ⟨kind, plural, singular.join, listKind.join⟩

def decode : Decoder DefinitionNames :=
  record "CustomResourceDefinitionNames" 4 ofMembers ofItems

end DefinitionNames

structure DefinitionSpec where
  group : String
  names : DefinitionNames
  scope : ResourceScope := .cluster
  deriving DecidableEq, Inhabited

namespace DefinitionSpec

/-- The specification of a definition that comes without one. -/
def blank : DefinitionSpec := ⟨"", ⟨"", "", none, none⟩, .cluster⟩

def encode (s : DefinitionSpec) : Json :=
  .ofMap <| Json.ofFields
    [("group", some (.str s.group)), ("names", some s.names.encode),
     ("scope", some s.scope.encode)]

open Decode

def ofMembers (ms : SortedMap Json) : Except DecodeError DefinitionSpec := do
  let group ← field? ms "group" string
  let names ← field? ms "names" DefinitionNames.decode
  let scope ← field? ms "scope" ResourceScope.decode
  let group ← required "group" group
  let names ← required "names" names
  pure ⟨group, names, scope.getD .cluster⟩

def ofItems (xs : List Json) : Except DecodeError DefinitionSpec := do
  let group ← item "CustomResourceDefinitionSpec" 3 xs 0 string
  let names ← item "CustomResourceDefinitionSpec" 3 xs 1 DefinitionNames.decode
  let scope ← item? xs 2 ResourceScope.decode
  pure ⟨group, names, scope.getD .cluster⟩

def decode : Decoder DefinitionSpec :=
  record "CustomResourceDefinitionSpec" 3 ofMembers ofItems

end DefinitionSpec

structure ResourceDefinition where
  metadata : ObjectMeta
  spec : DefinitionSpec
  deriving DecidableEq, Inhabited

namespace ResourceDefinition

/-- A cluster-scoped definition named after plural and group. -/
def new (group kind plural : String) : ResourceDefinition :=
  { metadata := .named (plural ++ "." ++ group)
    spec := { group, names := { kind, plural } } }

def encode (d : ResourceDefinition) : Except Timestamp.Component (SortedMap Json) := do
  let metadata ← d.metadata.encode
  pure <| Json.ofFields [("metadata", some metadata), ("spec", some d.spec.encode)]

open Decode

def ofMembers (ms : SortedMap Json) : Except DecodeError ResourceDefinition := do
  let metadata ← field? ms "metadata" ObjectMeta.decode
  let spec ← field? ms "spec" DefinitionSpec.decode
  pure ⟨metadata.getD (.named ""), spec.getD .blank⟩

def ofItems (xs : List Json) : Except DecodeError ResourceDefinition := do
  let metadata ← item? xs 0 ObjectMeta.decode
  let spec ← item? xs 1 DefinitionSpec.decode
  pure ⟨metadata.getD (.named ""), spec.getD .blank⟩

def decode : Decoder ResourceDefinition := record "CustomResourceDefinition" 2 ofMembers ofItems

instance : Resource ResourceDefinition where
  apiVersion := "apiextensions.k8s.io/v1"
  kind := "CustomResourceDefinition"
  metadata := metadata
  encode := encode
  decode := decode

end ResourceDefinition

end ProviderRoles
