import ProviderRoles.Proofs.Json.Exact
import ProviderRoles.Proofs.Kind.Sections
import ProviderRoles.Proofs.Kind.WireForm

/-! Cluster roles as they are stored. Their only data are the rules, which hold no floating point
number, so a stored role has the content of a wanted one just if the two are equal there. -/
namespace ProviderRoles

open Decode Json

theorem PolicyRule.isExact_encode (r : PolicyRule) : isExact r.encode = true := by
  have texts : ∀ (l : List String) (x : Json),
      PolicyRule.encodeList l = some x → isExact x = true := by
    intro l x h
    rw [PolicyRule.encodeList] at h
    split at h
    · contradiction
    · cases h
      exact isExact_strings l
  refine membersExact_ofFields fun name x mem => ?_
  simp only [List.mem_cons, Prod.mk.injEq, List.not_mem_nil, or_false] at mem
  rcases mem with ⟨_, h⟩ | ⟨_, h⟩ | ⟨_, h⟩ | ⟨_, h⟩ | ⟨_, h⟩
  · exact texts _ x h.symm
  · exact texts _ x h.symm
  · exact texts _ x h.symm
  · cases h
    exact isExact_strings r.verbs
  · exact texts _ x h.symm

namespace ClusterRole

/-- The rules in their wire form. -/
def data (r : ClusterRole) : SortedMap Json :=
  SortedMap.empty.insert "rules" (.arr (r.rules.map PolicyRule.encode))

def manifest (r : ClusterRole) : Manifest :=
  ⟨Resource.apiVersion ClusterRole, Resource.kind ClusterRole, r.metadata, r.data⟩

theorem rules_decode (r : ClusterRole) :
    list PolicyRule.decode (.arr (r.rules.map PolicyRule.encode)) = .ok r.rules :=
  list_map fun rule _ => rule.decode_encode

theorem decode_ofMap (ms : SortedMap Json) :
    Resource.decode (.ofMap ms) = ofMembers ms :=
  record_ofMap "ClusterRole" 2 ofMembers ofItems ms

instance : Sectioned ClusterRole where
  sections := ["rules"]
  data := data
  withMetadata r m := { r with metadata := m }
  metadata_with _ _ := rfl
  with_metadata _ := rfl
  with_with _ _ _ := rfl
  data_with _ _ := rfl
  apart := by simp [Manifest.reserved]
  confined r k other := by
    have differ : k ≠ "rules" := by simpa using other
    simp [data, differ]
  encode_eq r := by
    show r.encode = r.metadata.encode.map _
    unfold encode
    cases r.metadata.encode with
    | error c => rfl
    | ok x => exact congrArg Except.ok (SortedMap.insert_comm .empty (by simp))
  decode_data r := by
    have rules : field? r.data "rules" (list PolicyRule.decode) = .ok (some r.rules) :=
      field?_there (by simp [data]) r.rules_decode
    have metadata : field? r.data "metadata" ObjectMeta.decode = .ok none :=
      field?_absent (by simp [data])
    simp [decode_ofMap, ofMembers, rules, metadata, bind, Except.bind, pure, Except.pure]
  decode_insert ms x m read := by
    simp only [decode_ofMap, ofMembers, field?_metadata_insert read, field?_metadata_erase]
    cases rules : field? ms "rules" (list PolicyRule.decode) <;>
      simp [rules, bind, Except.bind, pure, Except.pure, Except.map]
  printable_of_decode x r h := by
    rcases record_cases h with ⟨ms, h⟩ | ⟨xs, h⟩
    · obtain ⟨metadata, read, h⟩ := eq_ok_of_bind h
      obtain ⟨rules, _, h⟩ := eq_ok_of_bind h
      cases h
      exact ObjectMeta.printable_getD (exists_of_field? read) ""
    · obtain ⟨metadata, read, h⟩ := eq_ok_of_bind h
      obtain ⟨rules, _, h⟩ := eq_ok_of_bind h
      cases h
      exact ObjectMeta.printable_getD (exists_of_item? read) ""

/-- A role that has no dates has a wire form. -/
theorem ofResource_eq {r : ClusterRole} (created : r.metadata.creationTimestamp = none)
    (deleted : r.metadata.deletionTimestamp = none) : Manifest.ofResource r = .ok r.manifest := by
  refine Sectioned.ofResource_of_printable ?_
  constructor
  · show ∀ t ∈ r.metadata.creationTimestamp, t.Printable
    simp [created]
  · show ∀ t ∈ r.metadata.deletionTimestamp, t.Printable
    simp [deleted]

/-- A role has no other wire form. -/
theorem eq_manifest_of_ofResource {r : ClusterRole} {m : Manifest}
    (written : Manifest.ofResource r = .ok m) : m = r.manifest :=
  Sectioned.eq_manifest_of_ofResource written

theorem membersExact_data (r : ClusterRole) : membersExact r.data.toList = true := by
  rw [membersExact_iff]
  intro e mem
  cases List.mem_singleton.1 mem
  rw [isExact, itemsExact_iff]
  intro x mem
  obtain ⟨rule, _, rfl⟩ := List.mem_map.1 mem
  exact rule.isExact_encode

/-- What has the content of a role has its very content. -/
theorem contentMatches_iff {m : Manifest} {r : ClusterRole} :
    Manifest.contentMatches m r.manifest = true ↔
      m.apiVersion = r.manifest.apiVersion ∧ m.metadata.labels = r.metadata.labels ∧
      m.metadata.annotations = r.metadata.annotations ∧
      m.metadata.ownerReferences = r.metadata.ownerReferences ∧ m.data = r.data := by
  have same : sameMembers m.data.toList r.data.toList = true ↔ m.data = r.data :=
    (sameMembers_iff r.membersExact_data).trans SortedMap.toList_inj
  show (_ && _ && _ && _ && sameMembers m.data.toList r.data.toList) = true ↔ _
  simp only [Bool.and_eq_true, decide_eq_true_eq, same, and_assoc]
  rfl

theorem contentMatches_manifest (r : ClusterRole) :
    Manifest.contentMatches r.manifest r.manifest = true :=
  contentMatches_iff.2 ⟨rfl, rfl, rfl, rfl, rfl⟩

end ClusterRole

end ProviderRoles
