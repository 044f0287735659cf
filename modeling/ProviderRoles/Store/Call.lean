import ProviderRoles.Store.Basic

/-! Store calls as values, each with the type of its reply. -/
namespace ProviderRoles

inductive Operation where
  | get
  | list
  | create
  | update
  | delete
  deriving DecidableEq

inductive Call where
  | get (kind : String) (key : ObjectKey)
  | list (kind : String) (selector : Selector)
  | create (object : Manifest)
  | update (object : Manifest)
  | delete (kind : String) (key : ObjectKey)

namespace Call

abbrev Reply : Call → Type
  | .get .. => Manifest
  | .list .. => List Manifest
  | .create _ => Manifest
  | .update _ => Manifest
  | .delete .. => Unit

def operation : Call → Operation
  | .get .. => .get
  | .list .. => .list
  | .create _ => .create
  | .update _ => .update
  | .delete .. => .delete

def kind : Call → String
  | .get kind _ => kind
  | .list kind _ => kind
  | .create m => m.kind
  | .update m => m.kind
  | .delete kind _ => kind

/-- The object that the call is about. A listing is about none. -/
def key? : Call → Option ObjectKey
  | .get _ key => some key
  | .list .. => none
  | .create m => some m.key
  | .update m => some m.key
  | .delete _ key => some key

end Call

def Store.perform (birth : Birth) (s : Store) : (c : Call) → Except StoreError c.Reply × Store
  | .get kind key => (s.get kind key, s)
  | .list kind selector => (.ok (s.list kind selector), s)
  | .create m => s.create birth m
  | .update m => s.update m
  | .delete kind key => s.delete kind key

end ProviderRoles
