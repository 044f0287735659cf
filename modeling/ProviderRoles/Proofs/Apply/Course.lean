import ProviderRoles.Proofs.Apply.Decision
import ProviderRoles.Proofs.Object.Control
import ProviderRoles.Proofs.Plan.Path

/-! The courses that an application can take at a store that replies as it likes. -/
namespace ProviderRoles.Apply

variable {object current : Manifest} {guards : List Guard} {calls : List Completed}
  {result : Except ApplyError Manifest}

/-- The calls of an application and what it reports. -/
inductive Course (object : Manifest) (guards : List Guard) :
    List Completed → Except ApplyError Manifest → Prop where
  | missing {e : StoreError} (reply : Except StoreError Manifest) : e.isNotFound = true →
      Course object guards
        [⟨.get object.kind object.key, .error e⟩, ⟨.create (unversioned object), reply⟩]
        (reply.mapError .store)
  | unread {e : StoreError} : e.isNotFound = false →
      Course object guards [⟨.get object.kind object.key, .error e⟩] (.error (.store e))
  | refused {current : Manifest} {e : ApplyError} : Guard.all guards current object = .error e →
      Course object guards [⟨.get object.kind object.key, .ok current⟩] (.error e)
  | equal {current : Manifest} : Guard.all guards current object = .ok () →
      Manifest.contentMatches current object = true →
      Course object guards [⟨.get object.kind object.key, .ok current⟩] (.ok current)
  | different {current : Manifest} (reply : Except StoreError Manifest) :
      Guard.all guards current object = .ok () →
      Manifest.contentMatches current object = false →
      Course object guards
        [⟨.get object.kind object.key, .ok current⟩, ⟨.update (adopt current object), reply⟩]
        (reply.mapError .store)

theorem ends_createMissing (h : (createMissing object).Ends calls result) :
    ∃ reply : Except StoreError Manifest,
      calls = [⟨.create (unversioned object), reply⟩] ∧ result = reply.mapError .store := by
  obtain ⟨reply, rest, rfl, next⟩ := Plan.ends_call h
  cases reply with
  | error e =>
    obtain ⟨rfl, rfl⟩ := Plan.ends_done next
    exact ⟨.error e, rfl, rfl⟩
  | ok created =>
    obtain ⟨rfl, rfl⟩ := Plan.ends_done (Plan.ends_note next)
    exact ⟨.ok created, rfl, rfl⟩

theorem ends_overwrite (h : (overwrite current object).Ends calls result) :
    ∃ reply : Except StoreError Manifest,
      calls = [⟨.update (adopt current object), reply⟩] ∧ result = reply.mapError .store := by
  obtain ⟨reply, rest, rfl, next⟩ := Plan.ends_call h
  cases reply with
  | error e =>
    obtain ⟨rfl, rfl⟩ := Plan.ends_done next
    exact ⟨.error e, rfl, rfl⟩
  | ok updated =>
    obtain ⟨rfl, rfl⟩ := Plan.ends_done (Plan.ends_note next)
    exact ⟨.ok updated, rfl, rfl⟩

/-- An application takes one of the courses. -/
theorem course_of_ends (h : (apply object guards).Ends calls result) :
    Course object guards calls result := by
  rw [apply_eq] at h
  obtain ⟨reply, rest, rfl, next⟩ := Plan.ends_call h
  cases reply with
  | error e =>
    cases missing : e.isNotFound with
    | false =>
      rw [afterRead_failed missing] at next
      obtain ⟨rfl, rfl⟩ := Plan.ends_done next
      exact .unread missing
    | true =>
      rw [afterRead_missing missing] at next
      obtain ⟨reply, rfl, rfl⟩ := ends_createMissing next
      exact .missing reply missing
  | ok current =>
    cases allowed : Guard.all guards current object with
    | error e =>
      rw [afterRead_refused allowed] at next
      obtain ⟨rfl, rfl⟩ := Plan.ends_done next
      exact .refused allowed
    | ok u =>
      cases equal : Manifest.contentMatches current object with
      | true =>
        rw [afterRead_equal allowed equal] at next
        obtain ⟨rfl, rfl⟩ := Plan.ends_done (Plan.ends_note next)
        exact .equal allowed equal
      | false =>
        rw [afterRead_different allowed equal] at next
        obtain ⟨reply, rfl, rfl⟩ := ends_overwrite next
        exact .different reply allowed equal

end ProviderRoles.Apply
