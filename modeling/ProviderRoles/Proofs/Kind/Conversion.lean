import ProviderRoles.Proofs.Kind.ClusterRole
import ProviderRoles.Proofs.Kind.ResourceDefinition
import ProviderRoles.Proofs.Kind.Revision

/-! The two forms of an object, typed and untyped, tell the same. The metadata goes a way of its own
from the one form to the other, written as a member among the sections and read again, and arrives
as it was. -/
namespace ProviderRoles

open Manifest

/-- Typed and untyped form of a kind whose objects hold the given fields besides their metadata. -/
structure Interchangeable (α : Type) [Resource α] (fields : List String) : Prop where
  restored : ∀ t : α, (Resource.metadata t).Printable → ∃ m, ofResource t = .ok m ∧
    (∀ k ∈ reserved, m.data.get? k = none) ∧ m.metadata = Resource.metadata t ∧
    m.toResource α = .ok t
  unprintable : ∀ t : α, ¬ (Resource.metadata t).Printable →
    ∃ c, ofResource t = .error (.unprintable c)
  mismatch_iff : ∀ x m, decode x = .ok m →
    ((∃ expected actual, m.toResource α = .error (.kindMismatch expected actual)) ↔
      m.kind ≠ Resource.kind α)
  /-- Of an object of the right kind only the data can be wrong. -/
  error_iff : ∀ x m, decode x = .ok m → m.kind = Resource.kind α → ∀ e,
    m.toResource α = .error e ↔
      ∃ e', (Resource.decode (.ofMap m.data) : Except DecodeError α) = .error e' ∧
        e = .undecodable e'
  retyped : ∀ x m t, decode x = .ok m → m.toResource α = .ok t → ∃ m', ofResource t = .ok m' ∧
    m'.kind = m.kind ∧ m'.metadata = m.metadata ∧ m'.apiVersion = Resource.apiVersion α ∧
    (∀ k, m'.data.get? k ≠ none → k ∈ fields) ∧ m'.toResource α = .ok t

namespace Manifest

theorem kind_of_toResource {α : Type} [Resource α] {m : Manifest} {t : α}
    (h : m.toResource α = .ok t) : m.kind = Resource.kind α := by
  unfold toResource at h
  split at h
  · contradiction
  · next kind => exact not_not.1 kind

theorem toResource_of_ne {α : Type} [Resource α] {m : Manifest}
    (other : m.kind ≠ Resource.kind α) :
    m.toResource α = .error (.kindMismatch (Resource.kind α) m.kind) := by
  rw [toResource, if_pos other]

end Manifest

namespace Sectioned

variable {α : Type} [Resource α] [Sectioned α] {t : α} {m : Manifest}

theorem toResource_of_ofResource (h : ofResource t = .ok m) : m.toResource α = .ok t := by
  have printable := ofResource_eq_ok_iff.1 ⟨m, h⟩
  rw [eq_manifest_of_ofResource h]
  exact toResource_manifest printable

theorem erase_of_writable (writable : m.Writable) : m.data.erase "metadata" = m.data := by
  refine SortedMap.ext fun k => ?_
  rw [SortedMap.get?_erase]
  split
  · next here => exact (writable.apart k (by simp [here, reserved])).symm
  · rfl

theorem toResource_of_writable (writable : m.Writable) (kind : m.kind = Resource.kind α) :
    m.toResource α = ((Resource.decode (.ofMap m.data)).map
      (withMetadata · m.metadata)).mapError .undecodable := by
  rw [toResource_of_kind kind writable.printable, erase_of_writable writable]

theorem error_iff (writable : m.Writable) (kind : m.kind = Resource.kind α) (e : ObjectError) :
    m.toResource α = .error e ↔
      ∃ e', (Resource.decode (.ofMap m.data) : Except DecodeError α) = .error e' ∧
        e = .undecodable e' := by
  rw [toResource_of_writable writable kind]
  cases (Resource.decode (.ofMap m.data) : Except DecodeError α) with
  | ok t => simp [Except.map, Except.mapError]
  | error e' => simp [Except.map, Except.mapError, eq_comm]

theorem mismatch_iff (writable : m.Writable) :
    (∃ expected actual, m.toResource α = .error (.kindMismatch expected actual)) ↔
      m.kind ≠ Resource.kind α := by
  constructor
  · rintro ⟨expected, actual, failed⟩ kind
    obtain ⟨e', _, same⟩ := (error_iff writable kind _).1 failed
    cases same
  · intro other
    exact ⟨_, _, toResource_of_ne other⟩

theorem interchangeable : Interchangeable α (sections α) := by
  constructor
  · intro t printable
    have written := ofResource_of_printable printable
    exact ⟨manifest t, written, fun k => data_reserved t, rfl, toResource_of_ofResource written⟩
  · intro t unprintable
    cases written : (Resource.metadata t).encode with
    | error c => exact ⟨c, ofResource_of_error written⟩
    | ok x => exact absurd (ObjectMeta.encode_eq_ok_iff.1 ⟨x, written⟩) unprintable
  · intro x m read
    exact mismatch_iff (writable_of_decode read)
  · intro x m read kind e
    exact error_iff (writable_of_decode read) kind e
  · intro x m t read typed
    have metadata := metadata_of_toResource typed
    have printable : (Resource.metadata t).Printable := by
      rw [metadata]
      exact (writable_of_decode read).printable
    have written := ofResource_of_printable printable
    refine ⟨manifest t, written, (kind_of_toResource typed).symm, metadata, rfl, ?_,
      toResource_of_ofResource written⟩
    intro k there
    by_contra other
    exact there (confined t k other)

end Sectioned

/-- For roles, definitions and revisions the way to the untyped form and back loses nothing, and
fails just where a timestamp has no text. The way from a decoded object and back keeps kind and
metadata. It fails for another kind and for data that do not decode, never for the metadata. -/
theorem forms_interchangeable : Interchangeable ClusterRole ["rules"] ∧
    Interchangeable ResourceDefinition ["spec"] ∧ Interchangeable Revision ["spec", "status"] :=
  ⟨Sectioned.interchangeable, Sectioned.interchangeable, Sectioned.interchangeable⟩

end ProviderRoles
