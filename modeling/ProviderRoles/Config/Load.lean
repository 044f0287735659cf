import ProviderRoles.Config.Convert
import ProviderRoles.Config.Environment
import ProviderRoles.Json.Reader
import ProviderRoles.Text.ByteOrderMark
import ProviderRoles.Toml.Reader

/-! Loading the configuration: defaults, then a file if there is one, then the environment,
and at last the check of the timings. -/
namespace ProviderRoles

inductive ConfigError where
  /-- The file cannot be read. -/
  | build
  | deserialize (e : SettingError)
  | validation (flaw : TimingFlaw)
  deriving DecidableEq

def TimingFlaw.report (flaw : TimingFlaw) : String := "Validation error: " ++ flaw.message

namespace Config

/-- Where a path leads to. Beyond the working directory only the directories above it
matter, and they are one place. -/
inductive Place where
  | outside
  /-- The names on the way from the working directory. -/
  | inside (names : List String)
  deriving DecidableEq

inductive Target where
  | missing
  | directory
  | file (name text : String)
  deriving DecidableEq

/-- The texts between the separators. -/
def pieces (separator : Char) (text : String) : List String :=
  (text.toList.splitOn separator).map String.ofList

def parts (path : String) : List String := pieces '/' path

/-- The parts of a path without empty ones and those of the directory itself. -/
def names (path : String) : List String :=
  (parts path).filter fun part => part ≠ "" ∧ part ≠ "."

def fileAt? (files : SortedMap String) : Place → Option String
  | .outside => none
  | .inside path => (files.toList.find? fun (name, _) => names name = path).map Prod.snd

/-- Directories are those that have to be there for the files. -/
def isDirectory (files : SortedMap String) : Place → Bool
  | .outside => true
  | .inside [] => true
  | .inside path =>
    files.toList.any fun (name, _) => path.isPrefixOf (names name) && path ≠ names name

def Place.parent : Place → Place
  | .outside => .outside
  | .inside [] => .outside
  | .inside path => .inside path.dropLast

/-- Goes on by one part of a path, which has to start from a directory. -/
def step (files : SortedMap String) (place : Place) (part : String) : Option Place :=
  if !isDirectory files place then none
  else if part = "" ∨ part = "." then some place
  else if part = ".." then some place.parent
  else
    match place with
    | .outside => none
    | .inside path =>
      let place := .inside (path ++ [part])
      if isDirectory files place ∨ (fileAt? files place).isSome then some place else none

/-- The empty path leads nowhere. -/
def locate (files : SortedMap String) (path : String) : Target :=
  let start := if path.startsWith "/" then .outside else .inside []
  if path.isEmpty then .missing
  else
    match (parts path).foldlM (step files) start with
    | none => .missing
    | some place =>
      match fileAt? files place with
      | some text => .file ("/".intercalate (names path)) text
      | none => .directory

/-- What follows the last point of a file name, unless that is its first character. -/
def extension (name : String) : Option String :=
  let base := (parts name).getLast?.getD name
  match (pieces '.' base).reverse with
  | last :: before :: more => if more.isEmpty ∧ before = "" then none else some last
  | _ => none

def jsonTable? (text : List Char) : Option (SortedMap Json) :=
  match Json.Reader.read text with
  | some (.obj members) => some (SortedMap.ofList members)
  | _ => none

/-- The root table of a file, whose extension says how the text is to be read. A byte order
mark before it is skipped. -/
def table? (name text : String) : Option (SortedMap Json) :=
  let text := ByteOrderMark.strip text.toList
  match extension name with
  | some "toml" => Toml.read text
  | some "json" => jsonTable? text
  | _ => none

/-- Lays the root table of a file over `s`. Its names are paths. -/
def layFile (name : String) (root : SortedMap Json) (s : Setting) : Setting :=
  root.toList.foldl (fun s (path, x) => s.layAt path (.ofJson (.file name) x)) s

def merge (path : String) (files environment : SortedMap String) : Option Setting :=
  match locate files path with
  | .missing => some (Environment.lay environment (.table none []))
  | .directory => none
  | .file name text =>
    (table? name text).map fun root =>
      Environment.lay environment (layFile name root (.table none []))

def defaultPath : String := "rolesync.toml"

def validate (s : Settings) : Except ConfigError Settings :=
  match s.flaw? with
  | some flaw => .error (.validation flaw)
  | none => .ok s

def load (path : Option String) (files environment : SortedMap String) :
    Except ConfigError Settings := do
  match merge (path.getD defaultPath) files environment with
  | none => .error .build
  | some merged => validate (← merged.settings.mapError .deserialize)

end Config

end ProviderRoles
