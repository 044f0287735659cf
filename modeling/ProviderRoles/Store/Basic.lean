import ProviderRoles.Store.Error
import ProviderRoles.Store.Selector

/-! The object store. Objects of all kinds live in one map under text addresses, and one
counter numbers the successful writes to any of them. A write that names the version it was
based on fails when another one has come in between. -/
namespace ProviderRoles

/-- What a newly created object gets from outside the store. -/
structure Birth where
  uid : Uid
  time : Timestamp
  deriving DecidableEq

structure Store where
  objects : SortedMap Manifest
  /-- The version of the next write. It wraps around. -/
  counter : UInt64

namespace Store

def new : Store := ⟨.empty, 1⟩

/-- A store whose first version is zero. -/
def fromZero : Store := ⟨.empty, 0⟩

/-- Where the object of a kind with a key is kept. Names and kinds may contain the
separator, so different objects can have one address. -/
def address (kind : String) (key : ObjectKey) : String := kind ++ "/" ++ key.text

def addressOf (m : Manifest) : String := address m.kind m.key

def size (s : Store) : Nat := s.objects.toList.length

def isEmpty (s : Store) : Bool := s.objects.isEmpty

def kinds (s : Store) : List String := (s.objects.toList.map (·.2.kind)).eraseDups

def get (s : Store) (kind : String) (key : ObjectKey) : Except StoreError Manifest :=
  match s.objects.get? (address kind key) with
  | some m => .ok m
  | none => .error (.notFound kind key.text)

/-- The wanted objects among `ms`, in the order of their keys. -/
def select (kind : String) (selector : Selector) (ms : List Manifest) : List Manifest :=
  (ms.filter fun m => m.kind = kind && selector.selects m.metadata).mergeSort
    fun a b => a.key.le b.key

def list (s : Store) (kind : String) (selector : Selector) : List Manifest :=
  select kind selector (s.objects.toList.map Prod.snd)

/-- Stores `m` at its address with the next version. -/
def write (s : Store) (m : Manifest) : Manifest × Store :=
  let stored := { m with metadata.resourceVersion := some (toString s.counter.toNat) }
  (stored, ⟨s.objects.insert (addressOf m) stored, s.counter + 1⟩)

def nameless (m : Manifest) : StoreError :=
  .invalidObject (m.kind ++ " is missing metadata.name")

/-- An object keeps a UID that it brings along. -/
def create (birth : Birth) (s : Store) (m : Manifest) : Except StoreError Manifest × Store :=
  if m.metadata.name.isEmpty then (.error (nameless m), s)
  else
    match s.objects.get? (addressOf m) with
    | some _ => (.error (.alreadyExists m.kind m.key.text), s)
    | none =>
      let uid := if m.metadata.uid.isEmpty then birth.uid else m.metadata.uid
      let (stored, s) := s.write
        { m with metadata.uid := uid, metadata.creationTimestamp := some birth.time }
      (.ok stored, s)

def versionOf (m : Manifest) : String := m.metadata.resourceVersion.getD ""

/-- Whether `m` may replace `current`: it names no version or the current one. -/
def isFresh (current m : Manifest) : Bool :=
  m.metadata.resourceVersion.all (· = versionOf current)

/-- The object keeps the UID and the creation timestamp that are stored. -/
def update (s : Store) (m : Manifest) : Except StoreError Manifest × Store :=
  if m.metadata.name.isEmpty then (.error (nameless m), s)
  else
    match s.objects.get? (addressOf m) with
    | none => (.error (.notFound m.kind m.key.text), s)
    | some current =>
      if isFresh current m then
        let (stored, s) := s.write
          { m with
            metadata.uid := current.metadata.uid
            metadata.creationTimestamp := current.metadata.creationTimestamp }
        (.ok stored, s)
      else
        (.error (.versionConflict (versionOf m) (versionOf current)), s)

def delete (s : Store) (kind : String) (key : ObjectKey) : Except StoreError Unit × Store :=
  match s.objects.get? (address kind key) with
  | some _ => (.ok (), { s with objects := s.objects.erase (address kind key) })
  | none => (.error (.notFound kind key.text), s)

def backend : String := "memory"

end Store

end ProviderRoles
