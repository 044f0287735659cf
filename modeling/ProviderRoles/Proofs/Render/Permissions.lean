import Mathlib.Data.List.Basic
import ProviderRoles.Proofs.Render.Grouping

/-! What the rendered roles permit. The definitions are sorted by name, each API group gets one rule
where it is first seen, and a rule names the resources of its own group and no others. The three
roles share these rules and differ in their verbs. -/
namespace ProviderRoles

/-- `seen` holds each element of `all` once, in the order of their first occurrences. -/
structure FirstSeen (seen all : List String) : Prop where
  mem_iff : ∀ x, x ∈ seen ↔ x ∈ all
  ordered : seen.Pairwise fun x y => all.idxOf x < all.idxOf y

/-- Elements that a filter keeps stay in order. -/
theorem idxOf_lt_of_filter {p : String → Bool} {l : List String} {x y : String} (keeps : p x = true)
    (keeps' : p y = true) (h : (l.filter p).idxOf x < (l.filter p).idxOf y) :
    l.idxOf x < l.idxOf y := by
  induction l with
  | nil => contradiction
  | cons a l ih =>
    by_cases kept : p a = true
    · rw [List.filter_cons_of_pos kept] at h
      by_cases here : a = y
      · simp [here] at h
      · by_cases here' : a = x
        · simp [← here', here]
        · simp only [List.idxOf_cons, beq_false_of_ne here, beq_false_of_ne here', cond_false,
            Nat.add_lt_add_iff_right] at h ⊢
          exact ih h
    · have other : a ≠ x := fun same => kept (same ▸ keeps)
      have other' : a ≠ y := fun same => kept (same ▸ keeps')
      rw [List.filter_cons_of_neg kept] at h
      have rest := ih h
      simpa only [List.idxOf_cons, beq_false_of_ne other, beq_false_of_ne other', cond_false,
        Nat.add_lt_add_iff_right] using rest

theorem firstSeen_eraseDups (l : List String) : FirstSeen l.eraseDups l := by
  refine ⟨fun x => List.mem_eraseDups, ?_⟩
  -- What is left without the first element is shorter, but it is no tail of the list.
  induction h : l.length using Nat.strongRecOn generalizing l with
  | ind n ih =>
    cases l with
    | nil => exact .nil
    | cons a l =>
      have shorter : (l.filter fun x => !x == a).length < n := by
        have atMost := List.length_filter_le (fun x => !x == a) l
        rw [List.length_cons] at h
        omega
      have kept : ∀ x ∈ (l.filter fun x => !x == a).eraseDups, (!x == a) = true := by
        intro x mem
        exact (List.mem_filter.1 (List.mem_eraseDups.1 mem)).2
      have other : ∀ x, (!x == a) = true → a ≠ x := by
        intro x differs same
        rw [same, beq_self_eq_true] at differs
        contradiction
      rw [List.eraseDups_cons]
      refine List.pairwise_cons.2 ⟨?_, ?_⟩
      · intro x mem
        simp [List.idxOf_cons, beq_false_of_ne (other x (kept x mem))]
      · refine (ih _ shorter _ rfl).imp_of_mem fun {x y} mem mem' before => ?_
        have after := idxOf_lt_of_filter (kept x mem) (kept y mem') before
        simpa only [List.idxOf_cons, beq_false_of_ne (other x (kept x mem)),
          beq_false_of_ne (other y (kept y mem')), cond_false, Nat.add_lt_add_iff_right] using after

namespace Render

variable {definitions sorted : List ResourceDefinition} {rules : List PolicyRule}

/-- In ascending order of names, and definitions of one name in the order in which they came. -/
structure StablySorted (definitions sorted : List ResourceDefinition) : Prop where
  perm : sorted.Perm definitions
  ascending : sorted.Pairwise fun a b => a.metadata.name ≤ b.metadata.name
  stable : ∀ name,
    sorted.filter (·.metadata.name = name) = definitions.filter (·.metadata.name = name)

theorem stablySorted_byName (definitions : List ResourceDefinition) :
    StablySorted definitions (byName definitions) := by
  let le : ResourceDefinition → ResourceDefinition → Bool :=
    fun a b => a.metadata.name ≤ b.metadata.name
  have trans : ∀ a b c, le a b = true → le b c = true → le a c = true := by
    intro a b c ab bc
    exact decide_eq_true (String.le_trans (of_decide_eq_true ab) (of_decide_eq_true bc))
  have total : ∀ a b, (le a b || le b a) = true := by
    intro a b
    simpa [le] using String.le_total a.metadata.name b.metadata.name
  have perm : (byName definitions).Perm definitions := List.mergeSort_perm definitions le
  refine ⟨perm, ?_, fun name => ?_⟩
  · exact (List.pairwise_mergeSort trans total definitions).imp of_decide_eq_true
  · have alike : (definitions.filter (·.metadata.name = name)).Pairwise
        fun a b => le a b = true := by
      refine List.pairwise_of_forall_mem_list fun a mem b mem' => ?_
      have here : a.metadata.name = name := by simpa using (List.mem_filter.1 mem).2
      have here' : b.metadata.name = name := by simpa using (List.mem_filter.1 mem').2
      exact decide_eq_true (here ▸ here' ▸ String.le_refl _)
    have kept : (definitions.filter (·.metadata.name = name)).Sublist (byName definitions) :=
      List.sublist_mergeSort trans total alike List.filter_sublist
    have inside := kept.filter (·.metadata.name = name)
    simp only [List.filter_filter, Bool.and_self] at inside
    exact (inside.eq_of_length ((perm.filter _).length_eq).symm).symm

/-- The rules with the verbs in place of their own. -/
def withVerbs (verbs : List String) (rules : List PolicyRule) : List PolicyRule :=
  rules.map fun rule => { rule with verbs }

def Covers (rules : List PolicyRule) (group resource : String) : Prop :=
  ∃ rule ∈ rules, group ∈ rule.apiGroups ∧ resource ∈ rule.resources

/-- One rule for each API group, with the resources of its definitions one after the other. -/
structure ByGroup (sorted : List ResourceDefinition) (rules : List PolicyRule) : Prop where
  single : ∀ rule ∈ rules, ∃ group, rule.apiGroups = [group] ∧
    rule.resources = (sorted.filter (·.spec.group = group)).flatMap
      (fun d => [d.spec.names.plural, d.spec.names.plural ++ "/status"]) ∧
    rule.resourceNames = [] ∧ rule.nonResourceURLs = []
  firstSeen : FirstSeen (rules.flatMap (·.apiGroups)) (sorted.map (·.spec.group))

theorem resourceRules_eq_withVerbs (definitions : List ResourceDefinition) (verbs : List String) :
    resourceRules definitions verbs = withVerbs verbs (resourceRules definitions []) := by
  simp only [resourceRules, Gathered.rules, withVerbs, List.map_map, Function.comp_def]

theorem byGroup_resourceRules (definitions : List ResourceDefinition) (verbs : List String) :
    ByGroup (byName definitions) (resourceRules definitions verbs) := by
  rw [resourceRules_eq_groupedRules]
  constructor
  · intro rule mem
    obtain ⟨group, _, rfl⟩ := List.mem_map.1 mem
    exact ⟨group, rfl, rfl, rfl, rfl⟩
  · have all : (groupedRules (byName definitions) verbs).flatMap (·.apiGroups) =
        groups (byName definitions) := by
      simp only [groupedRules, List.flatMap_map, List.flatMap_singleton']
    rw [all]
    exact firstSeen_eraseDups _

/-- No group occurs in two of the rules. -/
theorem ByGroup.nodup (h : ByGroup sorted rules) : (rules.flatMap (·.apiGroups)).Nodup := by
  refine h.firstSeen.ordered.imp fun {x y} before same => ?_
  rw [same] at before
  exact Nat.lt_irrefl _ before

theorem ByGroup.covers_iff (h : ByGroup sorted rules) {group resource : String} :
    Covers rules group resource ↔ ∃ d ∈ sorted, d.spec.group = group ∧
      (resource = d.spec.names.plural ∨ resource = d.spec.names.plural ++ "/status") := by
  constructor
  · rintro ⟨rule, mem, here, named⟩
    obtain ⟨own, groups, resources, _⟩ := h.single rule mem
    rw [groups, List.mem_singleton] at here
    rw [resources, List.mem_flatMap] at named
    obtain ⟨d, kept, one⟩ := named
    obtain ⟨isIn, same⟩ := List.mem_filter.1 kept
    refine ⟨d, isIn, ?_, by simpa using one⟩
    rw [here]
    exact of_decide_eq_true same
  · rintro ⟨d, isIn, rfl, one⟩
    have seen := (h.firstSeen.mem_iff d.spec.group).2 (List.mem_map_of_mem isIn)
    obtain ⟨rule, mem, here⟩ := List.mem_flatMap.1 seen
    obtain ⟨own, groups, resources, _⟩ := h.single rule mem
    refine ⟨rule, mem, here, ?_⟩
    rw [groups, List.mem_singleton] at here
    rw [resources, List.mem_flatMap]
    exact ⟨d, List.mem_filter.2 ⟨isIn, decide_eq_true here⟩, by simpa using one⟩

/-- The roles permit what the definitions stand for and nothing else, but for the rules that every
provider gets and those that the revision asks for, and these are in the first role only. -/
theorem roles_permit_exactly (revision : Revision) (definitions : List ResourceDefinition) :
    ∃ sorted derived system edit view,
      StablySorted definitions sorted ∧ ByGroup sorted derived ∧
      (derived.flatMap (·.apiGroups)).Nodup ∧
      (∀ group resource, Covers derived group resource ↔
        ∃ d ∈ definitions, d.spec.group = group ∧
          (resource = d.spec.names.plural ∨ resource = d.spec.names.plural ++ "/status")) ∧
      roles revision definitions = [system, edit, view] ∧
      system.rules =
        withVerbs systemVerbs derived ++ extraRules ++ revision.status.permissionRequests ∧
      edit.rules = withVerbs editVerbs derived ∧ view.rules = withVerbs viewVerbs derived := by
  have stable := stablySorted_byName definitions
  have derived := byGroup_resourceRules definitions []
  refine ⟨byName definitions, resourceRules definitions [], _, _, _, stable, derived,
    derived.nodup, fun group resource => ?_, rfl, ?_, ?_, ?_⟩
  · rw [derived.covers_iff]
    simp only [stable.perm.mem_iff]
  · rw [← resourceRules_eq_withVerbs]
  · rw [← resourceRules_eq_withVerbs]
  · rw [← resourceRules_eq_withVerbs]

end Render

end ProviderRoles
