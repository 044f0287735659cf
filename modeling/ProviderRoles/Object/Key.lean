import ProviderRoles.Json.Decode

/-! How objects are told apart: by a UID over all time, and by namespace and name among the
objects of their kind. -/
namespace ProviderRoles

/-- The identifier a store gives to an object. An empty one equals another empty one. -/
structure Uid where
  text : String
  deriving DecidableEq, Inhabited

namespace Uid

def isEmpty (u : Uid) : Bool := u.text.isEmpty

def encode (u : Uid) : Json := .str u.text

def decode : Decode.Decoder Uid := fun x => (Decode.string x).map Uid.mk

end Uid

/-- The place of an object within its kind. An empty namespace is not an absent one. -/
structure ObjectKey where
  ns : Option String
  name : String
  deriving DecidableEq, Inhabited

namespace ObjectKey

def cluster (name : String) : ObjectKey := ⟨none, name⟩

/-- The text of a key. Different keys can have one text. -/
def text (k : ObjectKey) : String :=
  match k.ns with
  | none => k.name
  | some ns => ns ++ "/" ++ k.name

/-- Keys without a namespace come first, the others by namespace, and then all by name. -/
def le (a b : ObjectKey) : Bool :=
  match a.ns, b.ns with
  | none, none => a.name ≤ b.name
  | none, some _ => true
  | some _, none => false
  | some m, some n => m < n || m = n && a.name ≤ b.name

def encode (k : ObjectKey) : Json :=
  .ofMap <| Json.ofFields
    [("namespace", some (k.ns.elim .null .str)), ("name", some (.str k.name))]

open Decode

def ofMembers (ms : SortedMap Json) : Except DecodeError ObjectKey := do
  let name ← field? ms "name" string
  let ns ← field? ms "namespace" (optional string)
  pure ⟨ns.join, ← required "name" name⟩

/-- In an array neither field has a default. -/
def ofItems (xs : List Json) : Except DecodeError ObjectKey := do
  let ns ← item "ObjectKey" 2 xs 0 (optional string)
  let name ← item "ObjectKey" 2 xs 1 string
  pure ⟨ns, name⟩

def decode : Decoder ObjectKey := record "ObjectKey" 2 ofMembers ofItems

end ObjectKey

end ProviderRoles
