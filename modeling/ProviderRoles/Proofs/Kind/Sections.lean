import ProviderRoles.Proofs.Object.WireForm

/-! Kinds whose objects are metadata and sections. In an untyped object the two travel apart: the
metadata as it is, the sections as data. What that does to an object is said here for all such kinds
at once. -/
namespace ProviderRoles

open Decode Manifest

/-- A kind whose objects are metadata and sections of their own, each under its name. -/
class Sectioned (α : Type) [Resource α] where
  sections : List String
  data : α → SortedMap Json
  withMetadata : α → ObjectMeta → α
  metadata_with : ∀ t m, Resource.metadata (withMetadata t m) = m
  with_metadata : ∀ t, withMetadata t (Resource.metadata t) = t
  with_with : ∀ t m m', withMetadata (withMetadata t m) m' = withMetadata t m'
  data_with : ∀ t m, data (withMetadata t m) = data t
  apart : ∀ k ∈ reserved, k ∉ sections
  confined : ∀ t, ∀ k ∉ sections, (data t).get? k = none
  encode_eq : ∀ t, Resource.encode t = (Resource.metadata t).encode.map ((data t).insert "metadata")
  decode_data : ∀ t, Resource.decode (.ofMap (data t)) = .ok (withMetadata t (.named ""))
  /-- The metadata is read from its own member, and the sections from the others. -/
  decode_insert : ∀ (ms : SortedMap Json) (x : Json) (m : ObjectMeta), ObjectMeta.decode x = .ok m →
    Resource.decode (.ofMap (ms.insert "metadata" x)) =
      (Resource.decode (.ofMap (ms.erase "metadata"))).map (withMetadata · m)
  printable_of_decode : ∀ (x : Json) (t : α), Resource.decode x = .ok t →
    (Resource.metadata t).Printable

/-! The metadata among the members. -/

theorem field?_metadata_insert {ms : SortedMap Json} {x : Json} {m : ObjectMeta}
    (read : ObjectMeta.decode x = .ok m) :
    field? (ms.insert "metadata" x) "metadata" ObjectMeta.decode = .ok (some m) :=
  field?_there (by simp) read

theorem field?_metadata_erase (ms : SortedMap Json) :
    field? (ms.erase "metadata") "metadata" ObjectMeta.decode = .ok none :=
  field?_absent (by simp)

namespace Sectioned

attribute [simp] metadata_with with_metadata with_with data_with

variable {α : Type} [Resource α] [Sectioned α] {t : α} {m : Manifest} {x : Json}

theorem data_reserved (t : α) {k : String} (h : k ∈ reserved) : (data t).get? k = none :=
  confined t k (apart k h)

theorem erase_data (t : α) {k : String} (h : k ∈ reserved) : (data t).erase k = data t := by
  refine SortedMap.ext fun k' => ?_
  rw [SortedMap.get?_erase]
  split
  · next same => rw [same, data_reserved t h]
  · rfl

theorem decode_encode {ms : SortedMap Json} (written : Resource.encode t = .ok ms) :
    Resource.decode (.ofMap ms) = .ok t := by
  rw [encode_eq] at written
  obtain ⟨x, metadata, rfl⟩ := eq_ok_of_map written
  have read := ObjectMeta.decode_encode metadata
  rw [decode_insert _ x _ read, erase_data t (by simp [reserved]), decode_data]
  simp [Except.map]

/-! From a typed object to an untyped one. -/

def manifest (t : α) : Manifest :=
  ⟨Resource.apiVersion α, Resource.kind α, Resource.metadata t, data t⟩

theorem manifest_with (t : α) (metadata : ObjectMeta) :
    manifest (withMetadata t metadata) = { manifest t with metadata } := by
  simp [manifest]

theorem ofResource_of_encode (written : (Resource.metadata t).encode = .ok x) :
    ofResource t = .ok (manifest t) := by
  have members : Resource.encode t = .ok ((data t).insert "metadata" x) := by
    rw [encode_eq, written]
    rfl
  have data : ((((data t).insert "metadata" x).erase "apiVersion").erase "kind").erase "metadata" =
      data t := by
    -- No section is erased with the type and the metadata.
    refine SortedMap.ext fun k => ?_
    have free := data_reserved t (k := k)
    by_cases inside : k ∈ reserved
    · rw [free inside]
      simp only [reserved, List.mem_cons, List.not_mem_nil, or_false] at inside
      rcases inside with rfl | rfl | rfl <;> simp
    · simp only [reserved, List.mem_cons, List.not_mem_nil, or_false, not_or] at inside
      simp [inside.1, inside.2.1, inside.2.2]
  rw [ofResource, members]
  simp [Except.mapError, bind, Except.bind, pure, Except.pure, data, manifest]

theorem ofResource_of_error {c : Timestamp.Component}
    (unwritten : (Resource.metadata t).encode = .error c) :
    ofResource t = .error (.unprintable c) := by
  have members : Resource.encode t = .error c := by
    rw [encode_eq, unwritten]
    rfl
  rw [ofResource, members]
  rfl

/-- There is an untyped form just if the timestamps have a text. -/
theorem ofResource_eq_ok_iff : (∃ m, ofResource t = .ok m) ↔ (Resource.metadata t).Printable := by
  rw [← ObjectMeta.encode_eq_ok_iff]
  cases written : (Resource.metadata t).encode with
  | ok x => simp [ofResource_of_encode written]
  | error c => simp [ofResource_of_error written]

theorem ofResource_of_printable (printable : (Resource.metadata t).Printable) :
    ofResource t = .ok (manifest t) := by
  obtain ⟨x, written⟩ := ObjectMeta.encode_eq_ok_iff.2 printable
  exact ofResource_of_encode written

theorem eq_manifest_of_ofResource (h : ofResource t = .ok m) : m = manifest t := by
  have printable := ofResource_eq_ok_iff.1 ⟨m, h⟩
  rw [ofResource_of_printable printable] at h
  exact (Except.ok.inj h).symm

/-! And back. -/

theorem toResource_of_kind (kind : m.kind = Resource.kind α) (printable : m.metadata.Printable) :
    m.toResource α = ((Resource.decode (.ofMap (m.data.erase "metadata"))).map
      (withMetadata · m.metadata)).mapError .undecodable := by
  obtain ⟨x, written⟩ := ObjectMeta.encode_eq_ok_iff.2 printable
  have read := ObjectMeta.decode_encode written
  rw [toResource, if_neg (not_not_intro kind), written, ← decode_insert _ x _ read]
  rfl

/-- The metadata arrives as it was, also over data that claim its place. -/
theorem metadata_of_toResource (h : m.toResource α = .ok t) : Resource.metadata t = m.metadata := by
  have converted := h
  unfold toResource at h
  split at h
  · contradiction
  · next kind =>
    obtain ⟨x, written, _⟩ := eq_ok_of_bind h
    have printable := ObjectMeta.encode_eq_ok_iff.1 ⟨x, eq_ok_of_mapError written⟩
    rw [toResource_of_kind (not_not.1 kind) printable] at converted
    obtain ⟨blank, _, rfl⟩ := eq_ok_of_map (eq_ok_of_mapError converted)
    simp

theorem toResource_manifest (printable : (Resource.metadata t).Printable) :
    (manifest t).toResource α = .ok t := by
  have data := erase_data t (k := "metadata") (by simp [reserved])
  rw [toResource_of_kind rfl printable]
  simp [manifest, data, decode_data, Except.map, Except.mapError]

end Sectioned

end ProviderRoles
