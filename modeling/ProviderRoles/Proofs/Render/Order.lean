import Mathlib.Data.List.Nodup
import ProviderRoles.Proofs.Render.Permissions

/-! The order in which definitions come to the renderer. It sorts them by name first, and names that
differ can be in ascending order in one way only, so no other order shows in the roles. -/
namespace ProviderRoles.Render

variable {definitions definitions' sorted sorted' : List ResourceDefinition}

/-- Definitions of different names have one stable order, however they came. -/
theorem StablySorted.unique (h : StablySorted definitions sorted)
    (h' : StablySorted definitions' sorted') (perm : definitions'.Perm definitions)
    (distinct : (definitions.map (·.metadata.name)).Nodup) : sorted' = sorted := by
  have together : sorted'.Perm sorted := (h'.perm.trans perm).trans h.perm.symm
  refine together.eq_of_pairwise (fun a b mem mem' ab ba => ?_) h'.ascending h.ascending
  have isIn : a ∈ definitions := perm.mem_iff.1 (h'.perm.mem_iff.1 mem)
  have isIn' : b ∈ definitions := h.perm.mem_iff.1 mem'
  exact List.inj_on_of_nodup_map distinct isIn isIn' (String.le_antisymm ab ba)

theorem resourceRules_of_byName (same : byName definitions' = byName definitions)
    (verbs : List String) :
    resourceRules definitions' verbs = resourceRules definitions verbs := by
  rw [resourceRules, same, resourceRules]

/-- Definitions of different names give the same roles in every order: the same rules, and in each
rule the same resources, one after the other. -/
theorem roles_of_perm (revision : Revision)
    (distinct : (definitions.map (·.metadata.name)).Nodup)
    (perm : definitions'.Perm definitions) :
    roles revision definitions' = roles revision definitions := by
  have sorted : byName definitions' = byName definitions :=
    (stablySorted_byName definitions).unique (stablySorted_byName definitions') perm distinct
  have rules := resourceRules_of_byName sorted
  simp only [roles, rules]

/-- In this order and in reverse the groups are seen in another order than by name. -/
def wares : List ResourceDefinition :=
  [("disks", "compute.example.org"), ("buckets", "storage.example.org"),
    ("instances", "compute.example.org")].map fun (plural, group) =>
      { metadata := .named (plural ++ "." ++ group)
        spec := { group, names := { kind := plural, plural } } }

theorem wares_in_reverse :
    wares.reverse ≠ wares ∧
    roles ⟨.named "p", {}, {}⟩ wares.reverse = roles ⟨.named "p", {}, {}⟩ wares :=
  ⟨by decide, roles_of_perm _ (by decide) (List.reverse_perm _)⟩

end ProviderRoles.Render
