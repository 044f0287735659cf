import ProviderRoles.Object.Meta

/-! Which objects of a kind a listing wants. -/
namespace ProviderRoles

/-- Without a namespace objects of all namespaces and of none are selected. Every label must
be there with the given value. -/
structure Selector where
  ns : Option String := none
  labels : SortedMap String := .empty
  deriving DecidableEq

namespace Selector

def all : Selector := {}

def withLabel (s : Selector) (key value : String) : Selector :=
  { s with labels := s.labels.insert key value }

def selects (s : Selector) (m : ObjectMeta) : Bool :=
  (match s.ns with
    | none => true
    | some ns => m.ns = some ns)
  && s.labels.toList.all fun (k, v) => m.labels.get? k = some v

end Selector

end ProviderRoles
