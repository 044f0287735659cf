import ProviderRoles.Proofs.Kind.ClusterRole
import ProviderRoles.Proofs.Kind.ResourceDefinition
import ProviderRoles.Proofs.Kind.Revision

/-! Nothing is lost on the wire. The wire forms of all types leave out what is empty or absent, and
each is read back as the very value it was written for. -/
namespace ProviderRoles

open Decode

structure WireForm (α : Type) where
  encode : α → Except Timestamp.Component Json
  decode : Decoder α

namespace WireForm

variable {α : Type}

def total (encode : α → Json) (decode : Decoder α) : WireForm α := ⟨fun a => .ok (encode a), decode⟩

/-- The wire form of a kind, without type information. -/
def ofResource (α : Type) [Resource α] : WireForm α :=
  ⟨fun a => (Resource.encode a).map .ofMap, Resource.decode⟩

/-- What a value on the wire becomes when it is read and written again. -/
def rewrite (w : WireForm α) (x : Json) : Option Json :=
  (w.decode x).toOption.bind fun a => (w.encode a).toOption

/-- A writable value is read back as it is. Only writable ones are read, so that what has been
rewritten once stays as it is. -/
structure Lossless (w : WireForm α) (writable : α → Prop) : Prop where
  restored : ∀ a, writable a → ∃ x, w.encode a = .ok x ∧ w.decode x = .ok a
  writable_of_decode : ∀ x a, w.decode x = .ok a → writable a
  normal : ∀ x a, w.decode x = .ok a →
    ∃ y, w.rewrite x = some y ∧ w.decode y = .ok a ∧ w.rewrite y = some y

theorem lossless_of {w : WireForm α} {writable : α → Prop}
    (restored : ∀ a, writable a → ∃ x, w.encode a = .ok x ∧ w.decode x = .ok a)
    (read : ∀ x a, w.decode x = .ok a → writable a) : w.Lossless writable := by
  refine ⟨restored, read, fun x a decoded => ?_⟩
  obtain ⟨y, written, again⟩ := restored a (read x a decoded)
  refine ⟨y, ?_, again, ?_⟩
  · simp [rewrite, decoded, written, Except.toOption]
  · simp [rewrite, again, written, Except.toOption]

theorem lossless_total {encode : α → Json} {decode : Decoder α}
    (back : ∀ a, decode (encode a) = .ok a) : (total encode decode).Lossless fun _ => True :=
  lossless_of (fun a _ => ⟨encode a, rfl, back a⟩) fun _ _ _ => trivial

theorem lossless_ofResource [Resource α] [Sectioned α] :
    (ofResource α).Lossless fun a => (Resource.metadata a).Printable := by
  refine lossless_of (fun a printable => ?_) Sectioned.printable_of_decode
  obtain ⟨x, metadata⟩ := ObjectMeta.encode_eq_ok_iff.2 printable
  have written := Sectioned.encode_eq a
  rw [metadata] at written
  refine ⟨_, ?_, Sectioned.decode_encode written⟩
  show (Resource.encode a).map Json.ofMap = _
  rw [written]
  rfl

theorem lossless_metadata :
    (WireForm.mk ObjectMeta.encode ObjectMeta.decode).Lossless ObjectMeta.Printable := by
  refine lossless_of (fun m printable => ?_) fun _ _ => ObjectMeta.printable_of_decode
  obtain ⟨x, written⟩ := ObjectMeta.encode_eq_ok_iff.2 printable
  exact ⟨x, written, ObjectMeta.decode_encode written⟩

theorem lossless_manifest :
    (WireForm.mk Manifest.encode Manifest.decode).Lossless Manifest.Writable := by
  refine lossless_of (fun m writable => ?_) fun _ _ => Manifest.writable_of_decode
  obtain ⟨metadata, written⟩ := ObjectMeta.encode_eq_ok_iff.2 writable.printable
  have whole : ∃ x, m.encode = .ok x := by
    simp [Manifest.encode, written, bind, Except.bind, pure, Except.pure]
  obtain ⟨x, whole⟩ := whole
  exact ⟨x, whole, Manifest.decode_encode writable.apart whole⟩

end WireForm

open WireForm in
/-- No wire form loses anything, if the timestamps have a text and the data of a manifest leave the
places of type and metadata free. All that is read is so, and reading and writing a manifest touches
nothing but its metadata. -/
theorem wireForms_lossless :
    (total Uid.encode Uid.decode).Lossless (fun _ => True) ∧
    (total ObjectKey.encode ObjectKey.decode).Lossless (fun _ => True) ∧
    (total OwnerReference.encode OwnerReference.decode).Lossless (fun _ => True) ∧
    (WireForm.mk ObjectMeta.encode ObjectMeta.decode).Lossless ObjectMeta.Printable ∧
    (total PolicyRule.encode PolicyRule.decode).Lossless (fun _ => True) ∧
    (ofResource ClusterRole).Lossless (·.metadata.Printable) ∧
    (total ResourceScope.encode ResourceScope.decode).Lossless (fun _ => True) ∧
    (total DefinitionNames.encode DefinitionNames.decode).Lossless (fun _ => True) ∧
    (total DefinitionSpec.encode DefinitionSpec.decode).Lossless (fun _ => True) ∧
    (ofResource ResourceDefinition).Lossless (·.metadata.Printable) ∧
    (total DesiredState.encode DesiredState.decode).Lossless (fun _ => True) ∧
    (total RevisionSpec.encode RevisionSpec.decode).Lossless (fun _ => True) ∧
    (total RevisionStatus.encode RevisionStatus.decode).Lossless (fun _ => True) ∧
    (ofResource Revision).Lossless (·.metadata.Printable) ∧
    (total Timing.encode Timing.decode).Lossless (fun _ => True) ∧
    (total Settings.encode Settings.decode).Lossless (fun _ => True) ∧
    (WireForm.mk Manifest.encode Manifest.decode).Lossless Manifest.Writable ∧
    ∀ members m x, Manifest.decode (.obj members) = .ok m → m.encode = .ok x →
      ∃ ms, x = .ofMap ms ∧
        ∀ k, k ≠ "metadata" → ms.get? k = (SortedMap.ofList members).get? k :=
  ⟨lossless_total Uid.decode_encode, lossless_total ObjectKey.decode_encode,
    lossless_total OwnerReference.decode_encode, lossless_metadata,
    lossless_total PolicyRule.decode_encode, lossless_ofResource,
    lossless_total ResourceScope.decode_encode, lossless_total DefinitionNames.decode_encode,
    lossless_total DefinitionSpec.decode_encode, lossless_ofResource,
    lossless_total DesiredState.decode_encode, lossless_total RevisionSpec.decode_encode,
    lossless_total RevisionStatus.decode_encode, lossless_ofResource,
    lossless_total Timing.decode_encode, lossless_total Settings.decode_encode, lossless_manifest,
    fun _ _ _ => Manifest.members_kept⟩

end ProviderRoles
