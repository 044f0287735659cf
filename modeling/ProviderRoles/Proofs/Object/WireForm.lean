import ProviderRoles.Object.Manifest
import ProviderRoles.Proofs.Json.Fields

/-! Keys, owner references, metadata and manifests are read back from their wire forms. Metadata
has one if its timestamps have a text, and what has been read has one. -/
namespace ProviderRoles

open Decode Json

theorem ObjectKey.decode_encode (k : ObjectKey) : decode k.encode = .ok k := by
  refine record_ofFields (by simp) fun ms found => ?_
  have name : field? ms "name" string = .ok (some k.name) := field?_string (found _ _ (by simp))
  have ns : field? ms "namespace" (optional string) = .ok (some k.ns) := by
    refine field?_there (found "namespace" (some (k.ns.elim .null .str)) (by simp)) ?_
    cases k.ns <;> rfl
  simp [ofMembers, name, ns, bind, Except.bind, required, pure, Except.pure]

theorem Uid.decode_encode (u : Uid) : decode u.encode = .ok u := rfl

theorem OwnerReference.decode_encode (r : OwnerReference) : decode r.encode = .ok r := by
  refine record_ofFields (by simp) fun ms found => ?_
  have apiVersion : field? ms "apiVersion" string = .ok (some r.apiVersion) :=
    field?_string (found _ _ (by simp))
  have kind : field? ms "kind" string = .ok (some r.kind) := field?_string (found _ _ (by simp))
  have name : field? ms "name" string = .ok (some r.name) := field?_string (found _ _ (by simp))
  have uid : field? ms "uid" Uid.decode = .ok (some r.uid) :=
    field?_there (x := r.uid.encode) (found _ _ (by simp)) rfl
  obtain ⟨controller, controlRead, sameController⟩ :=
    field?_optional (f := .bool) (d := boolean) (v := r.controller) (found "controller" _ (by simp)) (by simp)
      fun _ => rfl
  obtain ⟨block, blockRead, sameBlock⟩ :=
    field?_optional (f := .bool) (d := boolean) (v := r.blockOwnerDeletion)
      (found "blockOwnerDeletion" _ (by simp)) (by simp) fun _ => rfl
  simp [ofMembers, apiVersion, blockRead, controlRead, kind, name, uid, bind, Except.bind, required,
    pure, Except.pure, sameBlock, sameController]

namespace ObjectMeta

/-- Both timestamps, where present, have a text. -/
structure Printable (m : ObjectMeta) : Prop where
  created : ∀ t ∈ m.creationTimestamp, t.Printable
  deleted : ∀ t ∈ m.deletionTimestamp, t.Printable

theorem encodeTimestamp_eq_ok_iff {t : Option Timestamp} :
    (∃ v, encodeTimestamp t = .ok v) ↔ ∀ u ∈ t, u.Printable := by
  cases t with
  | none => simp [encodeTimestamp]
  | some t =>
    have text := Timestamp.write_eq_ok_iff (t := t)
    simp only [encodeTimestamp, Option.mem_def, Option.some.injEq, forall_eq', ← text]
    cases t.write <;> simp [Except.map]

theorem encode_eq_ok_iff {m : ObjectMeta} : (∃ x, m.encode = .ok x) ↔ m.Printable := by
  constructor
  · rintro ⟨x, written⟩
    unfold encode at written
    obtain ⟨created, first, written⟩ := eq_ok_of_bind written
    obtain ⟨deleted, second, written⟩ := eq_ok_of_bind written
    constructor
    · exact encodeTimestamp_eq_ok_iff.1 ⟨created, first⟩
    · exact encodeTimestamp_eq_ok_iff.1 ⟨deleted, second⟩
  · intro h
    obtain ⟨created, first⟩ := encodeTimestamp_eq_ok_iff.2 h.created
    obtain ⟨deleted, second⟩ := encodeTimestamp_eq_ok_iff.2 h.deleted
    simp [encode, first, second, bind, Except.bind, pure, Except.pure]

variable {ms : SortedMap Json} {name : String}

theorem field?_timestamp {t : Option Timestamp} {v : Option Json}
    (written : encodeTimestamp t = .ok v) (there : ms.get? name = v) :
    ∃ w, field? ms name (optional timestamp) = .ok w ∧ w.join = t := by
  cases t with
  | none =>
    cases written
    exact ⟨none, field?_absent there, rfl⟩
  | some t =>
    obtain ⟨s, text, rfl⟩ := eq_ok_of_map written
    have read := timestamp_of_write text
    exact ⟨some (some t), field?_there there (optional_eq (by simp) read), rfl⟩

theorem field?_texts {m : SortedMap String} (there : ms.get? name = encodeTexts m) :
    ∃ w, field? ms name stringMap = .ok w ∧ w.getD .empty = m := by
  refine field?_default there (stringMap_texts m) fun blank => ?_
  have nothing : m.toList = [] := List.isEmpty_iff.1 blank
  exact SortedMap.toList_inj.1 nothing

theorem decode_encode {m : ObjectMeta} {x : Json} (written : m.encode = .ok x) :
    decode x = .ok m := by
  unfold encode at written
  obtain ⟨createdText, createdWritten, written⟩ := eq_ok_of_bind written
  obtain ⟨deletedText, deletedWritten, written⟩ := eq_ok_of_bind written
  cases written
  refine record_ofFields (by simp) fun ms found => ?_
  have name : field? ms "name" string = .ok (some m.name) := field?_string (found _ _ (by simp))
  obtain ⟨ns, nsRead, sameNs⟩ :=
    field?_optional (f := .str) (d := string) (v := m.ns) (found "namespace" _ (by simp)) (by simp) fun _ => rfl
  obtain ⟨uid, uidRead, sameUid⟩ :=
    field?_default (d := Uid.decode) (a := m.uid) (b := ⟨""⟩)
      (found "uid" (if m.uid.isEmpty then none else some m.uid.encode) (by simp)) rfl
      fun blank => congrArg Uid.mk (String.isEmpty_iff.1 blank)
  obtain ⟨version, versionRead, sameVersion⟩ :=
    field?_optional (f := .str) (d := string) (v := m.resourceVersion) (found "resourceVersion" _ (by simp))
      (by simp) fun _ => rfl
  obtain ⟨created, createdRead, sameCreated⟩ :=
    field?_timestamp createdWritten (found "creationTimestamp" _ (by simp))
  obtain ⟨deleted, deletedRead, sameDeleted⟩ :=
    field?_timestamp deletedWritten (found "deletionTimestamp" _ (by simp))
  obtain ⟨labels, labelsRead, sameLabels⟩ :=
    field?_texts (m := m.labels) (found "labels" _ (by simp))
  obtain ⟨annotations, annotationsRead, sameAnnotations⟩ :=
    field?_texts (m := m.annotations) (found "annotations" _ (by simp))
  obtain ⟨owners, ownersRead, sameOwners⟩ :=
    field?_list (l := m.ownerReferences) (f := OwnerReference.encode)
      (found "ownerReferences" _ (by simp)) OwnerReference.decode_encode
  simp [ofMembers, annotationsRead, createdRead, deletedRead, labelsRead, name, nsRead, ownersRead,
    versionRead, uidRead, bind, Except.bind, pure, Except.pure, sameNs, sameUid, sameVersion,
    sameCreated, sameDeleted, sameLabels, sameAnnotations, sameOwners]

/-! Metadata that has been read. -/

theorem printable_join {w : Option (Option Timestamp)}
    (h : ∀ v ∈ w, ∃ x, optional timestamp x = .ok v) : ∀ t ∈ w.join, t.Printable := by
  intro t mem
  have inside : w = some (some t) := Option.join_eq_some_iff.1 mem
  obtain ⟨x, read⟩ := h (some t) inside
  obtain ⟨y, text⟩ := exists_of_optional read t rfl
  exact printable_of_timestamp text

theorem printable_of_ofMembers {m : ObjectMeta} (h : ofMembers ms = .ok m) : m.Printable := by
  unfold ofMembers at h
  obtain ⟨annotations, _, h⟩ := eq_ok_of_bind h
  obtain ⟨created, createdRead, h⟩ := eq_ok_of_bind h
  obtain ⟨deleted, deletedRead, h⟩ := eq_ok_of_bind h
  obtain ⟨labels, _, h⟩ := eq_ok_of_bind h
  obtain ⟨name, _, h⟩ := eq_ok_of_bind h
  obtain ⟨ns, _, h⟩ := eq_ok_of_bind h
  obtain ⟨owners, _, h⟩ := eq_ok_of_bind h
  obtain ⟨version, _, h⟩ := eq_ok_of_bind h
  obtain ⟨uid, _, h⟩ := eq_ok_of_bind h
  cases h
  constructor
  · exact printable_join (exists_of_field? createdRead)
  · exact printable_join (exists_of_field? deletedRead)

theorem printable_of_ofItems {xs : List Json} {m : ObjectMeta} (h : ofItems xs = .ok m) :
    m.Printable := by
  unfold ofItems at h
  obtain ⟨name, _, h⟩ := eq_ok_of_bind h
  obtain ⟨ns, _, h⟩ := eq_ok_of_bind h
  obtain ⟨uid, _, h⟩ := eq_ok_of_bind h
  obtain ⟨version, _, h⟩ := eq_ok_of_bind h
  obtain ⟨created, createdRead, h⟩ := eq_ok_of_bind h
  obtain ⟨deleted, deletedRead, h⟩ := eq_ok_of_bind h
  obtain ⟨labels, _, h⟩ := eq_ok_of_bind h
  obtain ⟨annotations, _, h⟩ := eq_ok_of_bind h
  obtain ⟨owners, _, h⟩ := eq_ok_of_bind h
  cases h
  constructor
  · exact printable_join (exists_of_item? createdRead)
  · exact printable_join (exists_of_item? deletedRead)

theorem printable_of_decode {x : Json} {m : ObjectMeta} (h : decode x = .ok m) : m.Printable := by
  rcases record_cases h with ⟨ms, h⟩ | ⟨xs, h⟩
  · exact printable_of_ofMembers h
  · exact printable_of_ofItems h

theorem printable_named (name : String) : (named name).Printable := by
  constructor <;> simp [named]

/-- A record whose metadata is optional has printable metadata all the same. -/
theorem printable_getD {v : Option ObjectMeta} (h : ∀ m ∈ v, ∃ x, decode x = .ok m) (name : String) :
    (v.getD (named name)).Printable := by
  cases v with
  | none => exact printable_named name
  | some m =>
    obtain ⟨x, read⟩ := h m rfl
    exact printable_of_decode read

end ObjectMeta

namespace Manifest

/-- The members that are not data. -/
def reserved : List String := ["apiVersion", "kind", "metadata"]

/-- A manifest without loss in its wire form. -/
structure Writable (m : Manifest) : Prop where
  printable : m.metadata.Printable
  apart : ∀ k ∈ reserved, m.data.get? k = none

theorem get?_encode {m : Manifest} {x : Json} (apart : ∀ k ∈ reserved, m.data.get? k = none)
    (written : m.encode = .ok x) : ∃ metadata ms, m.metadata.encode = .ok metadata ∧ x = .ofMap ms ∧
      ∀ k, ms.get? k = if k = "apiVersion" then some (.str m.apiVersion)
        else if k = "kind" then some (.str m.kind)
        else if k = "metadata" then some metadata
        else m.data.get? k := by
  unfold encode at written
  obtain ⟨metadata, metadataWritten, written⟩ := eq_ok_of_bind written
  cases written
  refine ⟨metadata, _, metadataWritten, rfl, fun k => ?_⟩
  have others : ∀ e ∈ m.data.toList, e.1 ∉ reserved := by
    intro e mem inside
    have there := SortedMap.mem_toList_iff.1 mem
    rw [apart e.1 inside] at there
    contradiction
  have distinct : ([("apiVersion", Json.str m.apiVersion), ("kind", .str m.kind),
      ("metadata", metadata)] ++ m.data.toList).Pairwise fun a b => a.1 ≠ b.1 := by
    refine List.pairwise_append.2 ⟨by simp, m.data.ascending.imp ?_, ?_⟩
    · intro a b below same
      exact String.lt_irrefl _ (same ▸ below)
    · intro a mem b data same
      refine others b data (same ▸ ?_)
      simp only [List.mem_cons, List.not_mem_nil, or_false] at mem
      rcases mem with rfl | rfl | rfl <;> simp [reserved]
  rw [SortedMap.get?_ofList distinct, List.lookup_append]
  show _ = if k = _ then _ else if k = _ then _ else if k = _ then _ else m.data.toList.lookup k
  by_cases first : k = "apiVersion"
  · simp [first]
  · by_cases second : k = "kind"
    · simp [second, List.lookup_cons]
    · by_cases third : k = "metadata"
      · simp [third, List.lookup_cons]
      · simp [List.lookup_cons, first, second, third, beq_false_of_ne]

theorem decode_encode {m : Manifest} {x : Json} (apart : ∀ k ∈ reserved, m.data.get? k = none)
    (written : m.encode = .ok x) : decode x = .ok m := by
  obtain ⟨metadata, ms, metadataWritten, rfl, found⟩ := get?_encode apart written
  have apiVersion : field? ms "apiVersion" string = .ok (some m.apiVersion) :=
    field?_string (by simp [found])
  have kind : field? ms "kind" string = .ok (some m.kind) := field?_string (by simp [found])
  have metadataRead : field? ms "metadata" ObjectMeta.decode = .ok (some m.metadata) :=
    field?_there (by simp [found]) (ObjectMeta.decode_encode metadataWritten)
  have data : ((ms.erase "apiVersion").erase "kind").erase "metadata" = m.data := by
    refine SortedMap.ext fun k => ?_
    have free := apart k
    simp only [SortedMap.get?_erase, found]
    split
    · next here => simp [free (by simp [here, reserved])]
    · split
      · next here => simp [free (by simp [here, reserved])]
      · split
        · next here => simp [free (by simp [here, reserved])]
        · rfl
  simp [decode, ofMap, SortedMap.ofList_toList, apiVersion, kind, metadataRead, required, bind,
    Except.bind, pure, Except.pure, data]

/-- What a manifest has been read from. -/
theorem decode_cases {x : Json} {m : Manifest} (h : decode x = .ok m) : ∃ members metadata,
    x = .obj members ∧
    (SortedMap.ofList members).get? "apiVersion" = some (.str m.apiVersion) ∧
    (SortedMap.ofList members).get? "kind" = some (.str m.kind) ∧
    field? (SortedMap.ofList members) "metadata" ObjectMeta.decode = .ok metadata ∧
    m.metadata = metadata.getD (.named "") ∧
    m.data = (((SortedMap.ofList members).erase "apiVersion").erase "kind").erase "metadata" := by
  unfold decode at h
  split at h
  · next members =>
    obtain ⟨v, apiVersion, h⟩ := eq_ok_of_bind h
    obtain ⟨w, kind, h⟩ := eq_ok_of_bind h
    obtain ⟨metadata, metadataRead, h⟩ := eq_ok_of_bind h
    obtain ⟨version, presentVersion, h⟩ := eq_ok_of_bind h
    obtain ⟨name, presentKind, h⟩ := eq_ok_of_bind h
    cases h
    exact ⟨members, metadata, rfl, get?_of_required apiVersion presentVersion,
      get?_of_required kind presentKind, metadataRead, rfl, rfl⟩
  · contradiction

theorem writable_of_decode {x : Json} {m : Manifest} (h : decode x = .ok m) : m.Writable := by
  obtain ⟨members, metadata, _, _, _, read, same, data⟩ := decode_cases h
  constructor
  · rw [same]
    exact ObjectMeta.printable_getD (exists_of_field? read) ""
  · intro k inside
    simp only [reserved, List.mem_cons, List.not_mem_nil, or_false] at inside
    rcases inside with rfl | rfl | rfl <;> simp [data]

/-- Reading and writing again leaves all members but the metadata as they are. -/
theorem members_kept {members : List (String × Json)} {m : Manifest} {x : Json}
    (read : decode (.obj members) = .ok m) (written : m.encode = .ok x) : ∃ ms, x = .ofMap ms ∧
      ∀ k, k ≠ "metadata" → ms.get? k = (SortedMap.ofList members).get? k := by
  obtain ⟨members', metadata, same, apiVersion, kind, _, _, data⟩ := decode_cases read
  cases same
  obtain ⟨metadata', ms, _, whole, found⟩ := get?_encode (writable_of_decode read).apart written
  refine ⟨ms, whole, fun k other => ?_⟩
  rw [found]
  by_cases first : k = "apiVersion"
  · simp [first, apiVersion]
  · by_cases second : k = "kind"
    · simp [second, kind]
    · simp [first, second, other, data]

end Manifest

end ProviderRoles
