import ProviderRoles.Config.Path

/-! Configuration from environment variables. The name says the path and the text of the
value says its type. -/
namespace ProviderRoles.Environment

/-- In the names of variables case does not matter. A path holds ASCII letters only, and the
one other character with such a letter as its lower case is the Kelvin sign. -/
def lower (s : String) : List Char :=
  s.toList.map fun c => if c = '\u212a' then 'k' else c.toLower

def namePrefix : List Char := "rolesync__".toList

/-- A path with points for the double underscores. -/
def withPoints : List Char → List Char
  | '_' :: '_' :: rest => '.' :: withPoints rest
  | c :: rest => c :: withPoints rest
  | [] => []

def path? (name : String) : Option String :=
  let s := lower name
  if namePrefix.isPrefixOf s then some (String.ofList (withPoints (s.drop namePrefix.length)))
  else none

/-- A truth value in any case, an integer, a double, or else the text itself. -/
def scalar (text : String) : Scalar :=
  if lower text = "true".toList then .bool true
  else if lower text = "false".toList then .bool false
  else
    match NumberText.int64? text.toList with
    | some n => .int n
    | none =>
      match NumberText.binary64? text.toList with
      | some x => .float x
      | none => .text text

/-- Lays the variables over `s`, in the order of their names. -/
def lay (environment : SortedMap String) (s : Setting) : Setting :=
  environment.toList.foldl
    (fun s (name, text) =>
      match path? name with
      | some path => s.layAt path (.scalar (some .environment) (scalar text))
      | none => s) s

end ProviderRoles.Environment
