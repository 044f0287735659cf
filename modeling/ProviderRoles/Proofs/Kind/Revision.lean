import ProviderRoles.Proofs.Kind.Sections
import ProviderRoles.Proofs.Kind.WireForm

/-! Specification and status are the sections of a revision. -/
namespace ProviderRoles

open Decode

namespace Revision

def data (r : Revision) : SortedMap Json :=
  (SortedMap.empty.insert "spec" r.spec.encode).insert "status" r.status.encode

theorem decode_ofMap (ms : SortedMap Json) :
    Resource.decode (.ofMap ms) = ofMembers ms :=
  record_ofMap "ProviderRevision" 3 ofMembers ofItems ms

instance : Sectioned Revision where
  sections := ["spec", "status"]
  data := data
  withMetadata r m := { r with metadata := m }
  metadata_with _ _ := rfl
  with_metadata _ := rfl
  with_with _ _ _ := rfl
  data_with _ _ := rfl
  apart := by simp [Manifest.reserved]
  confined r k other := by
    have differ : k ≠ "spec" ∧ k ≠ "status" := by simpa using other
    simp [data, differ]
  encode_eq r := by
    show r.encode = r.metadata.encode.map _
    unfold encode
    cases r.metadata.encode with
    | error c => rfl
    | ok x =>
      have spec : (SortedMap.empty.insert "metadata" x).insert "spec" r.spec.encode =
          (SortedMap.empty.insert "spec" r.spec.encode).insert "metadata" x :=
        SortedMap.insert_comm _ (by simp)
      have status : ((SortedMap.empty.insert "spec" r.spec.encode).insert "metadata" x).insert
          "status" r.status.encode = r.data.insert "metadata" x :=
        SortedMap.insert_comm _ (by simp)
      exact congrArg Except.ok ((congrArg (·.insert "status" r.status.encode) spec).trans status)
  decode_data r := by
    have spec : field? r.data "spec" RevisionSpec.decode = .ok (some r.spec) :=
      field?_there (by simp [data]) r.spec.decode_encode
    have status : field? r.data "status" RevisionStatus.decode = .ok (some r.status) :=
      field?_there (by simp [data]) r.status.decode_encode
    have metadata : field? r.data "metadata" ObjectMeta.decode = .ok none :=
      field?_absent (by simp [data])
    simp [decode_ofMap, ofMembers, spec, status, metadata, bind, Except.bind, pure, Except.pure]
  decode_insert ms x m read := by
    simp only [decode_ofMap, ofMembers, field?_metadata_insert read, field?_metadata_erase]
    cases spec : field? ms "spec" RevisionSpec.decode with
    | error e => simp [spec, bind, Except.bind, Except.map]
    | ok s =>
      cases status : field? ms "status" RevisionStatus.decode <;>
        simp [spec, status, bind, Except.bind, pure, Except.pure, Except.map]
  printable_of_decode x r h := by
    rcases record_cases h with ⟨ms, h⟩ | ⟨xs, h⟩
    · obtain ⟨metadata, read, h⟩ := eq_ok_of_bind h
      obtain ⟨spec, _, h⟩ := eq_ok_of_bind h
      obtain ⟨status, _, h⟩ := eq_ok_of_bind h
      cases h
      exact ObjectMeta.printable_getD (exists_of_field? read) ""
    · obtain ⟨metadata, read, h⟩ := eq_ok_of_bind h
      obtain ⟨spec, _, h⟩ := eq_ok_of_bind h
      obtain ⟨status, _, h⟩ := eq_ok_of_bind h
      cases h
      exact ObjectMeta.printable_getD (exists_of_item? read) ""

end Revision

/-- A decoded revision has the name under which it is stored. -/
theorem name_of_toResource {m : Manifest} {revision : Revision}
    (decoded : m.toResource Revision = .ok revision) :
    revision.metadata.name = m.metadata.name := by
  have same : revision.metadata = m.metadata := Sectioned.metadata_of_toResource decoded
  rw [same]

end ProviderRoles
