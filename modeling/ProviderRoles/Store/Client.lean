import ProviderRoles.Plan

/-! Typed access to a store. An object that does not decode is an invalid object. -/
namespace ProviderRoles.Client

variable (α : Type) [Resource α]

def typed (m : Manifest) : Except StoreError α :=
  (m.toResource α).mapError .ofObjectError

def get (key : ObjectKey) : Plan (Except StoreError α) := do
  pure ((← Plan.get (Resource.kind α) key).bind (typed α))

def list (selector : Selector) : Plan (Except StoreError (List α)) := do
  pure ((← Plan.list (Resource.kind α) selector).bind (·.mapM (typed α)))

def delete (key : ObjectKey) : Plan (Except StoreError Unit) :=
  Plan.delete (Resource.kind α) key

variable {α}

/-- Hands the untyped form of `r` to `write` and decodes what comes back. -/
def send (write : Manifest → Plan (Except StoreError Manifest)) (r : α) :
    Plan (Except StoreError α) := do
  match Manifest.ofResource r with
  | .error e => pure (.error (.ofObjectError e))
  | .ok m => pure ((← write m).bind (typed α))

def create (r : α) : Plan (Except StoreError α) := send Plan.create r

def update (r : α) : Plan (Except StoreError α) := send Plan.update r

/-- A client as it shows itself: by the name of its store. -/
def description (backend : String) : String :=
  "Client \x7b backend: " ++ Quoted.quote backend ++ " \x7d"

end ProviderRoles.Client
