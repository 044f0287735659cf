import ProviderRoles.Json.Basic
import ProviderRoles.Text.Quoted
import ProviderRoles.Timestamp.Text

/-! Decoding JSON values into typed ones. A failure says what was found and what was
expected in its place. A record comes as an object or as an array of its fields in their
declared order. -/
namespace ProviderRoles

/-- What a message says of a value that has the wrong type. -/
inductive Found where
  | null
  | bool (b : Bool)
  | integer (n : Int)
  | float (x : Binary64)
  | string (s : String)
  | sequence
  | map
  deriving DecidableEq

inductive Expected where
  | string
  | boolean
  | signed64
  | unsigned64
  | sequence
  | map
  | variant
  | unit
  | timestamp
  | record (name : String)
  deriving DecidableEq

inductive DecodeError where
  | wrongType (found : Found) (expected : Expected)
  /-- An integer that does not fit the type. -/
  | outOfRange (n : Int) (expected : Expected)
  | missingField (name : String)
  /-- An array that ends before the fields without a default do. -/
  | tooFew (count : Nat) (record : String) (arity : Nat)
  | tooMany (count : Nat)
  | unknownVariant (name : String) (known : List String)
  /-- An object in place of a variant that has not exactly one member. -/
  | notOneVariant
  | timestamp (e : Timestamp.ReadError)
  deriving DecidableEq

def Json.found : Json → Found
  | .null => .null
  | .bool b => .bool b
  | .int n => .integer n
  | .float x => .float x
  | .str s => .string s
  | .arr _ => .sequence
  | .obj _ => .map

namespace Found

def message : Found → String
  | .null => "null"
  | .bool b => "boolean `" ++ toString b ++ "`"
  | .integer n => "integer `" ++ toString n ++ "`"
  | .float x => "floating point `" ++ DecimalLayout.wire.text x ++ "`"
  | .string s => "string " ++ Quoted.quote s
  | .sequence => "sequence"
  | .map => "map"

end Found

namespace Expected

def message : Expected → String
  | .string => "a string"
  | .boolean => "a boolean"
  | .signed64 => "i64"
  | .unsigned64 => "u64"
  | .sequence => "a sequence"
  | .map => "a map"
  | .variant => "string or map"
  | .unit => "unit"
  | .timestamp => "an RFC3339-formatted `OffsetDateTime`"
  | .record name => "struct " ++ name

end Expected

namespace DecodeError

/-- The names of the variants there are, of which there are at least two. -/
def alternatives (known : List String) : String :=
  String.intercalate " or " (known.map fun k => "`" ++ k ++ "`")

def message : DecodeError → String
  | .wrongType found expected =>
    "invalid type: " ++ found.message ++ ", expected " ++ expected.message
  | .outOfRange n expected =>
    "invalid value: integer `" ++ toString n ++ "`, expected " ++ expected.message
  | .missingField name => "missing field `" ++ name ++ "`"
  | .tooFew count record arity =>
    "invalid length " ++ toString count ++ ", expected struct " ++ record ++ " with " ++
      toString arity ++ " elements"
  | .tooMany count =>
    "invalid length " ++ toString count ++ ", expected fewer elements in array"
  | .unknownVariant name known =>
    "unknown variant `" ++ name ++ "`, expected " ++ alternatives known
  | .notOneVariant => "invalid value: map, expected map with a single key"
  | .timestamp e => e.message

end DecodeError

namespace Decode

abbrev Decoder (α : Type) := Json → Except DecodeError α

def wrong {α : Type} (x : Json) (expected : Expected) : Except DecodeError α :=
  .error (.wrongType x.found expected)

def string : Decoder String
  | .str s => .ok s
  | x => wrong x .string

def boolean : Decoder Bool
  | .bool b => .ok b
  | x => wrong x .boolean

def signed64 : Decoder Int64
  | .int n =>
    if FitsSigned n then .ok (Int64.ofInt n) else .error (.outOfRange n .signed64)
  | x => wrong x .signed64

def unsigned64 : Decoder UInt64
  | .int n =>
    if FitsUnsigned n then .ok (UInt64.ofNat n.toNat) else .error (.outOfRange n .unsigned64)
  | x => wrong x .unsigned64

def timestamp : Decoder Timestamp
  | .str s => (Timestamp.read s.toList).mapError .timestamp
  | x => wrong x .timestamp

def optional {α : Type} (d : Decoder α) : Decoder (Option α)
  | .null => .ok none
  | x => (d x).map some

def list {α : Type} (d : Decoder α) : Decoder (List α)
  | .arr xs => xs.mapM d
  | x => wrong x .sequence

/-- A map of texts, whose values are decoded in the order of the keys. -/
def stringMap : Decoder (SortedMap String)
  | .obj members => do
    let entries ← (SortedMap.ofList members).toList.mapM fun (k, x) => (string x).map (k, ·)
    pure (SortedMap.ofList entries)
  | x => wrong x .map

/-- One of finitely many names, or an object with the name as its one key and `null` under
it. -/
def variant {α : Type} (known : List (String × α)) : Decoder α
  | .str s => choose s
  | .obj members =>
    match (SortedMap.ofList members).toList with
    | [(name, payload)] => do
      let v ← choose name
      match payload with
      | .null => pure v
      | x => wrong x .unit
    | _ => .error .notOneVariant
  | x => wrong x .variant
where
  choose (name : String) : Except DecodeError α :=
    match known.lookup name with
    | some v => .ok v
    | none => .error (.unknownVariant name (known.map Prod.fst))

/-! Fields of an object. -/

def field? {α : Type} (members : SortedMap Json) (name : String) (d : Decoder α) :
    Except DecodeError (Option α) :=
  match members.get? name with
  | none => .ok none
  | some x => (d x).map some

def required {α : Type} (name : String) : Option α → Except DecodeError α
  | some v => .ok v
  | none => .error (.missingField name)

/-! Fields of an array. -/

def item? {α : Type} (items : List Json) (i : Nat) (d : Decoder α) :
    Except DecodeError (Option α) :=
  match items[i]? with
  | none => .ok none
  | some x => (d x).map some

def item {α : Type} (record : String) (arity : Nat) (items : List Json) (i : Nat)
    (d : Decoder α) : Except DecodeError α :=
  match items[i]? with
  | none => .error (.tooFew items.length record arity)
  | some x => d x

/-- A record of `arity` fields. In an array with more of them the fields are decoded first. -/
def record {α : Type} (name : String) (arity : Nat)
    (ofMembers : SortedMap Json → Except DecodeError α)
    (ofItems : List Json → Except DecodeError α) : Decoder α
  | .obj members => ofMembers (SortedMap.ofList members)
  | .arr items => do
    let v ← ofItems items
    if arity < items.length then .error (.tooMany items.length) else pure v
  | x => wrong x (.record name)

end Decode

end ProviderRoles
