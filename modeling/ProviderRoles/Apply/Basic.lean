import ProviderRoles.Plan

/-! Create-or-overwrite writes under guards. A fresh read decides, and an overwrite carries
the version of that read: a writer that comes in between makes the store refuse it. -/
namespace ProviderRoles.Apply

def createMissing (object : Manifest) : Plan (Except ApplyError Manifest) := do
  match ← Plan.create { object with metadata.resourceVersion := none } with
  | .error e => pure (.error (.store e))
  | .ok created =>
    Plan.log (.created created.kind object.key)
    pure (.ok created)

/-- `object` with the fields that the store has set on `current`. -/
def adopt (current object : Manifest) : Manifest :=
  { object with
    metadata.resourceVersion := current.metadata.resourceVersion
    metadata.uid := current.metadata.uid
    metadata.creationTimestamp := current.metadata.creationTimestamp }

def overwrite (current object : Manifest) : Plan (Except ApplyError Manifest) := do
  match ← Plan.update (adopt current object) with
  | .error e => pure (.error (.store e))
  | .ok updated =>
    Plan.log (.updated updated.kind object.key updated.metadata.resourceVersion)
    pure (.ok updated)

/-- Writes `object` if every guard lets it replace what is stored, and returns the object as
stored. An object that is as desired is not written again. -/
def apply (object : Manifest) (guards : List Guard) : Plan (Except ApplyError Manifest) := do
  match ← Plan.get object.kind object.key with
  | .error e => if e.isNotFound then createMissing object else pure (.error (.store e))
  | .ok current =>
    match Guard.all guards current object with
    | .error e => pure (.error e)
    | .ok () =>
      if Manifest.contentMatches current object then
        Plan.log (.upToDate current.kind object.key)
        pure (.ok current)
      else overwrite current object

end ProviderRoles.Apply
