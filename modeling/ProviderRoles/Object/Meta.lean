import ProviderRoles.Object.Owner

/-! The metadata that every stored object has. UID, resource version and creation timestamp
are in the hands of the store; a deletion timestamp marks an object that is being torn
down. -/
namespace ProviderRoles

structure ObjectMeta where
  name : String
  ns : Option String := none
  uid : Uid := ⟨""⟩
  resourceVersion : Option String := none
  creationTimestamp : Option Timestamp := none
  deletionTimestamp : Option Timestamp := none
  labels : SortedMap String := .empty
  annotations : SortedMap String := .empty
  ownerReferences : List OwnerReference := []
  deriving DecidableEq

namespace ObjectMeta

/-- Metadata of a cluster-scoped object. -/
def named (name : String) : ObjectMeta := { name }

instance : Inhabited ObjectMeta := ⟨named ""⟩

def key (m : ObjectMeta) : ObjectKey := ⟨m.ns, m.name⟩

def isBeingDeleted (m : ObjectMeta) : Bool := m.deletionTimestamp.isSome

/-- Stamps `r` as controller on the object. -/
def setController (m : ObjectMeta) (r : OwnerReference) : ObjectMeta :=
  { m with ownerReferences := stampController m.ownerReferences r }

/-! The wire form. What is absent or empty is left out, except the name. -/

def encodeTimestamp : Option Timestamp → Except Timestamp.Component (Option Json)
  | none => .ok none
  | some t => t.write.map fun s => some (.str (String.ofList s))

def encodeTexts (m : SortedMap String) : Option Json :=
  if m.isEmpty then none else some (.obj (m.toList.map fun (k, v) => (k, .str v)))

/-- Fails only on a timestamp that cannot be written. -/
def encode (m : ObjectMeta) : Except Timestamp.Component Json := do
  let created ← encodeTimestamp m.creationTimestamp
  let deleted ← encodeTimestamp m.deletionTimestamp
  pure <| .ofMap <| Json.ofFields
    [("name", some (.str m.name)), ("namespace", m.ns.map .str),
     ("uid", if m.uid.isEmpty then none else some m.uid.encode),
     ("resourceVersion", m.resourceVersion.map .str),
     ("creationTimestamp", created), ("deletionTimestamp", deleted),
     ("labels", encodeTexts m.labels), ("annotations", encodeTexts m.annotations),
     ("ownerReferences", if m.ownerReferences.isEmpty then none
       else some (.arr (m.ownerReferences.map OwnerReference.encode)))]

open Decode

def ofMembers (ms : SortedMap Json) : Except DecodeError ObjectMeta := do
  let annotations ← field? ms "annotations" stringMap
  let created ← field? ms "creationTimestamp" (optional timestamp)
  let deleted ← field? ms "deletionTimestamp" (optional timestamp)
  let labels ← field? ms "labels" stringMap
  let name ← field? ms "name" string
  let ns ← field? ms "namespace" (optional string)
  let owners ← field? ms "ownerReferences" (list OwnerReference.decode)
  let version ← field? ms "resourceVersion" (optional string)
  let uid ← field? ms "uid" Uid.decode
  pure
    { name := name.getD "", ns := ns.join, uid := uid.getD ⟨""⟩, resourceVersion := version.join
      creationTimestamp := created.join, deletionTimestamp := deleted.join
      labels := labels.getD .empty, annotations := annotations.getD .empty
      ownerReferences := owners.getD [] }

def ofItems (xs : List Json) : Except DecodeError ObjectMeta := do
  let name ← item? xs 0 string
  let ns ← item? xs 1 (optional string)
  let uid ← item? xs 2 Uid.decode
  let version ← item? xs 3 (optional string)
  let created ← item? xs 4 (optional timestamp)
  let deleted ← item? xs 5 (optional timestamp)
  let labels ← item? xs 6 stringMap
  let annotations ← item? xs 7 stringMap
  let owners ← item? xs 8 (list OwnerReference.decode)
  pure
    { name := name.getD "", ns := ns.join, uid := uid.getD ⟨""⟩, resourceVersion := version.join
      creationTimestamp := created.join, deletionTimestamp := deleted.join
      labels := labels.getD .empty, annotations := annotations.getD .empty
      ownerReferences := owners.getD [] }

def decode : Decoder ObjectMeta := record "ObjectMeta" 9 ofMembers ofItems

end ObjectMeta

/-- Names a kind of object together with its API group and version. -/
structure GroupVersionKind where
  group : String
  version : String
  kind : String
  deriving DecidableEq

/-- The core group is empty and stays unnamed. -/
def GroupVersionKind.apiVersion (g : GroupVersionKind) : String :=
  if g.group.isEmpty then g.version else g.group ++ "/" ++ g.version

/-- A plain reference to the object of kind `g` that `m` describes. -/
def ObjectMeta.referenceTo (m : ObjectMeta) (g : GroupVersionKind) : OwnerReference :=
  { apiVersion := g.apiVersion, kind := g.kind, name := m.name, uid := m.uid
    controller := none, blockOwnerDeletion := none }

end ProviderRoles
