import ProviderRoles.Kind.ResourceDefinition
import ProviderRoles.Kind.Revision

/-! The cluster roles that a revision should have, from the definitions that it controls:
one for the provider's own workload and two that aggregate into the roles of users. -/
namespace ProviderRoles

/-- Computes roles. It sees nothing but its arguments. -/
abbrev Renderer := Revision → List ResourceDefinition → List ClusterRole

/-- The definitions whose sole controller has the UID, in order. -/
def controlledBy (definitions : List ResourceDefinition) (uid : Uid) : List ResourceDefinition :=
  definitions.filter fun d => isControlledBy d.metadata.ownerReferences uid

namespace Render

def roleName (revision suffix : String) : String := "rolesync:provider:" ++ revision ++ suffix

def systemRoleName (revision : String) : String := roleName revision ":system"

def editRoleName (revision : String) : String := roleName revision ":aggregate-to-edit"

def viewRoleName (revision : String) : String := roleName revision ":aggregate-to-view"

def systemVerbs : List String := ["get", "list", "watch", "update", "patch", "create"]

def editVerbs : List String := ["*"]

def viewVerbs : List String := ["get", "list", "watch"]

/-- The resource of a definition and its status. -/
def resources (d : ResourceDefinition) : List String :=
  [d.spec.names.plural, d.spec.names.plural ++ "/status"]

def byName (definitions : List ResourceDefinition) : List ResourceDefinition :=
  definitions.mergeSort fun a b => a.metadata.name ≤ b.metadata.name

/-- What definitions have come to so far: the API groups in the order in which they were first
seen, and the resources of each. -/
structure Gathered where
  groups : List String := []
  byGroup : SortedMap (List String) := .empty

/-- The resources of a definition go behind those of its group. A group that is new goes behind the
others. -/
def Gathered.add (g : Gathered) (d : ResourceDefinition) : Gathered :=
  let group := d.spec.group
  let before := g.byGroup.get? group
  { groups := if before.isSome then g.groups else g.groups ++ [group]
    byGroup := g.byGroup.insert group (before.getD [] ++ resources d) }

def Gathered.rules (g : Gathered) (verbs : List String) : List PolicyRule :=
  g.groups.map fun group =>
    { apiGroups := [group], resources := (g.byGroup.get? group).getD [], verbs }

/-- One rule for each API group, over all its resources. The order does not depend on that
of the definitions as long as their names differ. -/
def resourceRules (definitions : List ResourceDefinition) (verbs : List String) : List PolicyRule :=
  ((byName definitions).foldl Gathered.add {}).rules verbs

/-- What every provider needs besides its own resources. -/
def extraRules : List PolicyRule :=
  [{ apiGroups := ["", "coordination.k8s.io"]
     resources := ["secrets", "configmaps", "events", "leases"]
     verbs := ["*"] }]

/-- The label by which a role becomes part of another one. -/
def aggregation (target : String) : String × String :=
  ("rbac.rolesync.io/aggregate-to-" ++ target, "true")

/-- Metadata of a role that becomes part of the target roles. -/
def aggregating (name : String) (targets : List String) : ObjectMeta :=
  { name, labels := .ofList (targets.map aggregation) }

def roles : Renderer := fun revision definitions =>
  let name := revision.metadata.name
  [{ metadata := .named (systemRoleName name)
     rules := resourceRules definitions systemVerbs ++ extraRules
       ++ revision.status.permissionRequests },
   { metadata := aggregating (editRoleName name) ["rolesync", "admin", "edit"]
     rules := resourceRules definitions editVerbs },
   { metadata := aggregating (viewRoleName name) ["view"]
     rules := resourceRules definitions viewVerbs }]

/-- The default rendering for a revision under another name. -/
def rolesAs (name : String) : Renderer := fun revision =>
  roles { revision with metadata.name := name }

end Render

end ProviderRoles
