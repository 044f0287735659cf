import ProviderRoles.Object.Meta

/-! Manifests, the untyped form in which objects are stored, and the typed kinds that have
one. A manifest is the type and metadata of an object together with all its other top-level
fields as they are. -/
namespace ProviderRoles

structure Manifest where
  apiVersion : String
  kind : String
  metadata : ObjectMeta
  data : SortedMap Json
  deriving DecidableEq, Inhabited

/-- Why an object has no typed or no written form. -/
inductive ObjectError where
  | unprintable (c : Timestamp.Component)
  | undecodable (e : DecodeError)
  | invalid (message : String)
  | kindMismatch (expected actual : String)
  deriving DecidableEq

def ObjectError.message : ObjectError → String
  | .unprintable c => "JSON serialization error: " ++ Timestamp.unprintableMessage c
  | .undecodable e => "JSON serialization error: " ++ e.message
  | .invalid message => "Invalid object: " ++ message
  | .kindMismatch expected actual =>
    "Kind mismatch: expected " ++ expected ++ ", found " ++ actual

/-- A kind of object with its own type. In the wire form `encode` gives, type information is
missing and the metadata is a member like any other. -/
class Resource (α : Type) where
  apiVersion : String
  kind : String
  metadata : α → ObjectMeta
  encode : α → Except Timestamp.Component (SortedMap Json)
  decode : Decode.Decoder α

namespace Manifest

/-- An object that is nothing but its type and metadata. -/
def new (apiVersion kind : String) (metadata : ObjectMeta) : Manifest :=
  ⟨apiVersion, kind, metadata, .empty⟩

def key (m : Manifest) : ObjectKey := m.metadata.key

/-- Fails only on a timestamp that cannot be written. -/
def encode (m : Manifest) : Except Timestamp.Component Json := do
  let metadata ← m.metadata.encode
  let typed : List (String × Json) :=
    [("apiVersion", .str m.apiVersion), ("kind", .str m.kind), ("metadata", metadata)]
  pure (.ofMap (SortedMap.ofList (typed ++ m.data.toList)))

/-- The data are all members that are not the type or the metadata. A manifest never comes
as an array. -/
def decode : Decode.Decoder Manifest
  | .obj members => do
    let ms := SortedMap.ofList members
    let apiVersion ← Decode.field? ms "apiVersion" Decode.string
    let kind ← Decode.field? ms "kind" Decode.string
    let metadata ← Decode.field? ms "metadata" ObjectMeta.decode
    let apiVersion ← Decode.required "apiVersion" apiVersion
    let kind ← Decode.required "kind" kind
    let data := ((ms.erase "apiVersion").erase "kind").erase "metadata"
    pure ⟨apiVersion, kind, metadata.getD (.named ""), data⟩
  | x => Decode.wrong x (.record "DynamicObject")

/-- The untyped form of a typed object. -/
def ofResource {α : Type} [Resource α] (r : α) : Except ObjectError Manifest := do
  let members ← (Resource.encode r).mapError .unprintable
  let data := ((members.erase "apiVersion").erase "kind").erase "metadata"
  pure ⟨Resource.apiVersion α, Resource.kind α, Resource.metadata r, data⟩

theorem ofResource_eq_ok {α : Type} [Resource α] {r : α} {m : Manifest}
    (h : ofResource r = .ok m) :
    m.kind = Resource.kind α ∧ m.metadata = Resource.metadata r := by
  rw [ofResource] at h
  cases encoded : Resource.encode r with
  | error c => rw [encoded] at h; contradiction
  | ok members =>
    rw [encoded] at h
    cases h
    exact ⟨rfl, rfl⟩

/-- The typed object behind a manifest of exactly its kind. The API version is not looked
at. -/
def toResource (α : Type) [Resource α] (m : Manifest) : Except ObjectError α := do
  if m.kind ≠ Resource.kind α then .error (.kindMismatch (Resource.kind α) m.kind)
  else
    let metadata ← m.metadata.encode.mapError .unprintable
    (Resource.decode (.ofMap (m.data.insert "metadata" metadata))).mapError .undecodable

/-- Whether writing `desired` over `current` would change nothing that is not in the hands
of the store. -/
def contentMatches (current desired : Manifest) : Bool :=
  current.apiVersion = desired.apiVersion
    && current.metadata.labels = desired.metadata.labels
    && current.metadata.annotations = desired.metadata.annotations
    && current.metadata.ownerReferences = desired.metadata.ownerReferences
    && Json.sameMembers current.data.toList desired.data.toList

end Manifest

end ProviderRoles
