import ProviderRoles.Config.Timing
import ProviderRoles.Kind.ResourceDefinition
import ProviderRoles.Kind.Revision
import ProviderRoles.Proofs.Json.Fields

/-! The sections of objects, and the settings, are read back from their wire forms. -/
namespace ProviderRoles

open Decode

/-! Rules. -/

theorem PolicyRule.field?_encodeList {ms : SortedMap Json} {name : String} (texts : List String)
    (there : ms.get? name = encodeList texts) :
    ∃ w, field? ms name (list string) = .ok w ∧ w.getD [] = texts :=
  field?_list (f := .str) there fun _ => rfl

theorem PolicyRule.decode_encode (r : PolicyRule) : decode r.encode = .ok r := by
  refine record_ofFields (by simp) fun ms found => ?_
  obtain ⟨apiGroups, groupsRead, sameGroups⟩ :=
    field?_encodeList r.apiGroups (found "apiGroups" _ (by simp))
  obtain ⟨resources, resourcesRead, sameResources⟩ :=
    field?_encodeList r.resources (found "resources" _ (by simp))
  obtain ⟨resourceNames, namesRead, sameNames⟩ :=
    field?_encodeList r.resourceNames (found "resourceNames" _ (by simp))
  obtain ⟨urls, urlsRead, sameUrls⟩ :=
    field?_encodeList r.nonResourceURLs (found "nonResourceURLs" _ (by simp))
  have verbs : field? ms "verbs" (list string) = .ok (some r.verbs) :=
    field?_there (found "verbs" (some (Json.strings r.verbs)) (by simp)) (list_strings r.verbs)
  simp [ofMembers, groupsRead, urlsRead, namesRead, resourcesRead, verbs, bind, Except.bind, pure,
    Except.pure, sameGroups, sameResources, sameNames, sameUrls]

/-! Definitions. -/

theorem ResourceScope.decode_encode (s : ResourceScope) : decode s.encode = .ok s := by
  cases s <;> rfl

theorem DefinitionNames.decode_encode (n : DefinitionNames) : decode n.encode = .ok n := by
  refine record_ofFields (by simp) fun ms found => ?_
  have kind : field? ms "kind" string = .ok (some n.kind) := field?_string (found _ _ (by simp))
  have plural : field? ms "plural" string = .ok (some n.plural) :=
    field?_string (found _ _ (by simp))
  obtain ⟨singular, singularRead, sameSingular⟩ :=
    field?_optional (f := .str) (d := string) (v := n.singular) (found "singular" _ (by simp))
      (by simp) fun _ => rfl
  obtain ⟨listKind, listKindRead, sameListKind⟩ :=
    field?_optional (f := .str) (d := string) (v := n.listKind) (found "listKind" _ (by simp))
      (by simp) fun _ => rfl
  simp [ofMembers, kind, listKindRead, plural, singularRead, bind, Except.bind, required, pure,
    Except.pure, sameSingular, sameListKind]

theorem DefinitionSpec.decode_encode (s : DefinitionSpec) : decode s.encode = .ok s := by
  refine record_ofFields (by simp) fun ms found => ?_
  have group : field? ms "group" string = .ok (some s.group) := field?_string (found _ _ (by simp))
  have names : field? ms "names" DefinitionNames.decode = .ok (some s.names) :=
    field?_there (found "names" (some s.names.encode) (by simp)) s.names.decode_encode
  have scope : field? ms "scope" ResourceScope.decode = .ok (some s.scope) :=
    field?_there (found "scope" (some s.scope.encode) (by simp)) s.scope.decode_encode
  simp [ofMembers, group, names, scope, bind, Except.bind, required, pure, Except.pure]

/-! Revisions. -/

theorem DesiredState.decode_encode (s : DesiredState) : decode s.encode = .ok s := by
  cases s <;> rfl

theorem RevisionSpec.decode_encode (s : RevisionSpec) : decode s.encode = .ok s := by
  refine record_ofFields (by simp) fun ms found => ?_
  have package : field? ms "package" string = .ok (some s.package) :=
    field?_string (found _ _ (by simp))
  have revision : field? ms "revision" signed64 = .ok (some s.revision) :=
    field?_there (found "revision" (some (.int s.revision.toInt)) (by simp))
      (signed64_toInt s.revision)
  have desired : field? ms "desiredState" DesiredState.decode = .ok (some s.desiredState) :=
    field?_there (found "desiredState" (some s.desiredState.encode) (by simp))
      s.desiredState.decode_encode
  simp [ofMembers, package, revision, desired, bind, Except.bind, pure, Except.pure]

theorem RevisionStatus.decode_encode (s : RevisionStatus) : decode s.encode = .ok s := by
  refine record_ofFields (by simp) fun ms found => ?_
  obtain ⟨requests, requestsRead, sameRequests⟩ :=
    field?_list (l := s.permissionRequests) (f := PolicyRule.encode)
      (found "permissionRequests" _ (by simp)) PolicyRule.decode_encode
  simp [ofMembers, requestsRead, bind, Except.bind, pure, Except.pure, sameRequests]

/-! Settings. -/

theorem Timing.decode_encode (t : Timing) : decode t.encode = .ok t := by
  refine record_ofFields (by simp) fun ms found => ?_
  have shortWait : field? ms "short_wait_secs" unsigned64 = .ok (some t.shortWait) :=
    field?_there (found "short_wait_secs" (some (.int t.shortWait.toNat)) (by simp))
      (unsigned64_toNat t.shortWait)
  have timeout : field? ms "timeout_secs" unsigned64 = .ok (some t.timeout) :=
    field?_there (found "timeout_secs" (some (.int t.timeout.toNat)) (by simp))
      (unsigned64_toNat t.timeout)
  simp [ofMembers, shortWait, timeout, bind, Except.bind, pure, Except.pure]

theorem Settings.decode_encode (s : Settings) : decode s.encode = .ok s := by
  refine record_ofFields (by simp) fun ms found => ?_
  have reconciler : field? ms "reconciler" Timing.decode = .ok (some s.reconciler) :=
    field?_there (found "reconciler" (some s.reconciler.encode) (by simp)) s.reconciler.decode_encode
  simp [ofMembers, reconciler, bind, Except.bind, pure, Except.pure]

end ProviderRoles
