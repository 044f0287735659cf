import ProviderRoles.Json.Basic

/-! Configuration values and how layers of them are merged. A later layer wins: its tables
are merged into those of the earlier ones, and everything else replaces what was there. -/
namespace ProviderRoles

inductive SettingOrigin where
  | file (name : String)
  | environment
  deriving DecidableEq

def SettingOrigin.text : SettingOrigin → String
  | .file name => name
  | .environment => "the environment"

inductive Scalar where
  | empty
  | bool (b : Bool)
  | int (n : Int)
  | float (x : Binary64)
  | text (s : String)
  deriving DecidableEq

/-- A value with its origin. A table to which several layers can add has none, but one that
stands in an array has that of the array. -/
inductive Setting where
  | scalar (origin : Option SettingOrigin) (value : Scalar)
  | array (origin : Option SettingOrigin) (items : List Setting)
  | table (origin : Option SettingOrigin) (entries : List (String × Setting))

namespace Setting

def missing : Setting := .scalar none .empty

/-- The entries of a table. Everything else has none. -/
def entries : Setting → List (String × Setting)
  | .table _ es => es
  | _ => []

/-- The origin of a table. Everything else gives place to a table without one. -/
def tableOrigin : Setting → Option SettingOrigin
  | .table origin _ => origin
  | _ => none

mutual

def merge : Setting → Setting → Setting
  | .table _ es, old => .table old.tableOrigin (mergeEntries es old.entries)
  | new, _ => new

def mergeEntries : List (String × Setting) → List (String × Setting) → List (String × Setting)
  | [], old => old
  | (k, new) :: es, old =>
    mergeEntries es (insertEntry k (merge new ((old.lookup k).getD missing)) old)

end

mutual

def ofJson (origin : SettingOrigin) : Json → Setting
  | .null => .scalar (some origin) .empty
  | .bool b => .scalar (some origin) (.bool b)
  | .int n => .scalar (some origin) (.int n)
  | .float x => .scalar (some origin) (.float x)
  | .str s => .scalar (some origin) (.text s)
  | .arr xs => .array (some origin) (ofItems origin xs)
  | .obj ms => .table (some origin) (ofMembers origin ms)

def ofItems (origin : SettingOrigin) : List Json → List Setting
  | [] => []
  | x :: xs => ofJson origin x :: ofItems origin xs

def ofMembers (origin : SettingOrigin) : List (String × Json) → List (String × Setting)
  | [] => []
  | (k, x) :: ms => (k, ofJson origin x) :: ofMembers origin ms

end

end Setting

end ProviderRoles
