import ProviderRoles.Proofs.Kind.Sections
import ProviderRoles.Proofs.Kind.WireForm

/-! The specification is the one section of a definition. -/
namespace ProviderRoles.ResourceDefinition

open Decode

def data (d : ResourceDefinition) : SortedMap Json := SortedMap.empty.insert "spec" d.spec.encode

theorem decode_ofMap (ms : SortedMap Json) :
    Resource.decode (.ofMap ms) = ofMembers ms :=
  record_ofMap "CustomResourceDefinition" 2 ofMembers ofItems ms

instance : Sectioned ResourceDefinition where
  sections := ["spec"]
  data := data
  withMetadata d m := { d with metadata := m }
  metadata_with _ _ := rfl
  with_metadata _ := rfl
  with_with _ _ _ := rfl
  data_with _ _ := rfl
  apart := by simp [Manifest.reserved]
  confined d k other := by
    have differ : k ≠ "spec" := by simpa using other
    simp [data, differ]
  encode_eq d := by
    show d.encode = d.metadata.encode.map _
    unfold encode
    cases d.metadata.encode with
    | error c => rfl
    | ok x => exact congrArg Except.ok (SortedMap.insert_comm .empty (by simp))
  decode_data d := by
    have spec : field? d.data "spec" DefinitionSpec.decode = .ok (some d.spec) :=
      field?_there (by simp [data]) d.spec.decode_encode
    have metadata : field? d.data "metadata" ObjectMeta.decode = .ok none :=
      field?_absent (by simp [data])
    simp [decode_ofMap, ofMembers, spec, metadata, bind, Except.bind, pure, Except.pure]
  decode_insert ms x m read := by
    simp only [decode_ofMap, ofMembers, field?_metadata_insert read, field?_metadata_erase]
    cases spec : field? ms "spec" DefinitionSpec.decode <;>
      simp [spec, bind, Except.bind, pure, Except.pure, Except.map]
  printable_of_decode x d h := by
    rcases record_cases h with ⟨ms, h⟩ | ⟨xs, h⟩
    · obtain ⟨metadata, read, h⟩ := eq_ok_of_bind h
      obtain ⟨spec, _, h⟩ := eq_ok_of_bind h
      cases h
      exact ObjectMeta.printable_getD (exists_of_field? read) ""
    · obtain ⟨metadata, read, h⟩ := eq_ok_of_bind h
      obtain ⟨spec, _, h⟩ := eq_ok_of_bind h
      cases h
      exact ObjectMeta.printable_getD (exists_of_item? read) ""

end ProviderRoles.ResourceDefinition
