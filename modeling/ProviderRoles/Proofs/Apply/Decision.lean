import ProviderRoles.Apply.Basic

/-! An application as one read and what follows from the reply: a creation, a refusal, nothing, or
an overwrite. -/
namespace ProviderRoles.Apply

variable {object current : Manifest} {guards : List Guard}

/-- An object without its version, as it is created when none was found. -/
def unversioned (m : Manifest) : Manifest := { m with metadata.resourceVersion := none }

/-- How an application goes on after its read. -/
def afterRead (object : Manifest) (guards : List Guard) :
    Except StoreError Manifest → Plan (Except ApplyError Manifest)
  | .error e => if e.isNotFound then createMissing object else .done (.error (.store e))
  | .ok current =>
    match Guard.all guards current object with
    | .error e => .done (.error e)
    | .ok () =>
      if Manifest.contentMatches current object then
        (Plan.log (.upToDate current.kind object.key)).bind fun _ => .done (.ok current)
      else overwrite current object

theorem apply_eq (object : Manifest) (guards : List Guard) :
    apply object guards = .call (.get object.kind object.key) (afterRead object guards) := by
  refine congrArg (Plan.call _) (funext fun reply => ?_)
  cases reply <;> rfl

theorem afterRead_missing {e : StoreError} (h : e.isNotFound = true) :
    afterRead object guards (.error e) = createMissing object := by
  simp [afterRead, h]

theorem afterRead_failed {e : StoreError} (h : e.isNotFound = false) :
    afterRead object guards (.error e) = .done (.error (.store e)) := by
  simp [afterRead, h]

theorem afterRead_refused {e : ApplyError} (h : Guard.all guards current object = .error e) :
    afterRead object guards (.ok current) = .done (.error e) := by
  simp [afterRead, h]

theorem afterRead_equal (h : Guard.all guards current object = .ok ())
    (equal : Manifest.contentMatches current object = true) :
    afterRead object guards (.ok current) =
      (Plan.log (.upToDate current.kind object.key)).bind fun _ => .done (.ok current) := by
  simp [afterRead, h, equal]

theorem afterRead_different (h : Guard.all guards current object = .ok ())
    (different : Manifest.contentMatches current object = false) :
    afterRead object guards (.ok current) = overwrite current object := by
  simp [afterRead, h, different]

end ProviderRoles.Apply
