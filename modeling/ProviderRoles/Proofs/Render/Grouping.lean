import ProviderRoles.Render

/-! One pass over the definitions gathers the resources of all API groups. At every moment of it the
groups that have occurred stand in the order of their first occurrences, each with the resources of
its definitions so far. So the rules in the end are those that one finds group by group. -/
namespace ProviderRoles.Render

/-- The API groups, each once, in the order in which they first occur. -/
def groups (definitions : List ResourceDefinition) : List String :=
  (definitions.map (·.spec.group)).eraseDups

def resourcesOf (group : String) (definitions : List ResourceDefinition) : List String :=
  (definitions.filter (·.spec.group = group)).flatMap resources

def groupedRules (definitions : List ResourceDefinition) (verbs : List String) : List PolicyRule :=
  (groups definitions).map fun group =>
    { apiGroups := [group], resources := resourcesOf group definitions, verbs }

/-- What has been gathered from the definitions that were seen. -/
structure Gathers (seen : List ResourceDefinition) (g : Gathered) : Prop where
  order : g.groups = groups seen
  known : ∀ group, (g.byGroup.get? group).isSome = true ↔ group ∈ seen.map (·.spec.group)
  resources : ∀ group, (g.byGroup.get? group).getD [] = resourcesOf group seen

variable {seen : List ResourceDefinition} {g : Gathered}

theorem groups_append_singleton (seen : List ResourceDefinition) (d : ResourceDefinition) :
    groups (seen ++ [d]) = if d.spec.group ∈ seen.map (·.spec.group) then groups seen
      else groups seen ++ [d.spec.group] := by
  rw [groups, List.map_append, List.map_singleton, List.eraseDups_append, ← groups]
  by_cases old : d.spec.group ∈ seen.map (·.spec.group)
  · rw [if_pos old, List.removeAll, List.filter_cons_of_neg (by simpa using old), List.filter_nil,
      List.eraseDups_nil, List.append_nil]
  · rw [if_neg old, List.removeAll, List.filter_cons_of_pos (by simpa using old), List.filter_nil]
    rfl

theorem resourcesOf_append_singleton (group : String) (seen : List ResourceDefinition)
    (d : ResourceDefinition) : resourcesOf group (seen ++ [d]) =
      if group = d.spec.group then resourcesOf group seen ++ resources d
      else resourcesOf group seen := by
  rw [resourcesOf, List.filter_append, List.flatMap_append, ← resourcesOf]
  by_cases here : group = d.spec.group
  · simp [here]
  · simp [here, Ne.symm here]

theorem Gathers.add (h : Gathers seen g) (d : ResourceDefinition) :
    Gathers (seen ++ [d]) (g.add d) := by
  -- Of all groups only that of the new definition has a new look-up.
  refine ⟨?_, fun group => ?_, fun group => ?_⟩
  · rw [Gathered.add, groups_append_singleton]
    simp only [h.known, h.order]
  · rw [Gathered.add, SortedMap.get?_insert, List.map_append, List.mem_append, ← h.known]
    by_cases here : group = d.spec.group <;> simp [here]
  · rw [Gathered.add, SortedMap.get?_insert, resourcesOf_append_singleton, ← h.resources]
    by_cases here : group = d.spec.group
    · rw [if_pos here, if_pos here, Option.getD_some, here]
    · rw [if_neg here, if_neg here]

theorem Gathers.foldl (h : Gathers seen g) (rest : List ResourceDefinition) :
    Gathers (seen ++ rest) (rest.foldl Gathered.add g) := by
  induction rest generalizing seen g with
  | nil => simpa using h
  | cons d rest ih => simpa using ih (h.add d)

theorem gathers_nil : Gathers [] {} :=
  ⟨rfl, fun group => by simp, fun _ => rfl⟩

theorem resourceRules_eq_groupedRules (definitions : List ResourceDefinition) (verbs : List String) :
    resourceRules definitions verbs = groupedRules (byName definitions) verbs := by
  have all := gathers_nil.foldl (byName definitions)
  rw [List.nil_append] at all
  rw [resourceRules, Gathered.rules, groupedRules, all.order]
  simp only [all.resources]

end ProviderRoles.Render
