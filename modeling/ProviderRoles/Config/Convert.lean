import ProviderRoles.Config.Setting
import ProviderRoles.Config.Timing
import ProviderRoles.Number.Text

/-! From merged configuration values to timings. Numbers may be written in many ways; a value
that is none is reported with its path and origin. -/
namespace ProviderRoles

/-- What a message says of a value that does not fit. -/
inductive FoundSetting where
  | unit
  | bool (b : Bool)
  | int (n : Int)
  | float (x : Binary64)
  | text (s : String)
  | sequence
  | map
  deriving DecidableEq

inductive SettingFault where
  | noNumber (found : FoundSetting)
  | negative (n : Int)
  /-- A section that is neither a table nor an array. -/
  | noSection (found : FoundSetting)
  deriving DecidableEq

/-- A fault with the path of the value, and its origin if that is known. -/
structure SettingError where
  fault : SettingFault
  path : String
  origin : Option SettingOrigin
  deriving DecidableEq

namespace SettingError

def foundText : FoundSetting → String
  | .unit => "unit value"
  | .bool b => "boolean `" ++ toString b ++ "`"
  | .int n => "integer `" ++ toString n ++ "`"
  | .float x => "floating point `" ++ DecimalLayout.plain.text x ++ "`"
  | .text s => "string " ++ Quoted.quote s
  | .sequence => "sequence"
  | .map => "map"

def faultText : SettingFault → String
  | .noNumber found => foundText found ++ ", expected an integer"
  | .negative n =>
    "64-bit integer `" ++ toString n ++ "`, expected an unsigned 64 bit or less integer"
  | .noSection found => foundText found ++ ", expected struct ReconcilerConfig"

def message (e : SettingError) : String :=
  let place := match e.origin with
    | none => ""
    | some origin => " in " ++ origin.text
  "config deserialize error: invalid type: " ++ faultText e.fault ++
    " for key `" ++ e.path ++ "`" ++ place

end SettingError

namespace Setting

def foundScalar : Scalar → FoundSetting
  | .empty => .unit
  | .bool b => .bool b
  | .int n => .int n
  | .float x => .float x
  | .text s => .text s

/-- Words that stand for one and zero. -/
def truthWord? (s : String) : Option UInt64 :=
  let word := String.ofList (s.toList.map Char.toLower)
  if word ∈ ["true", "on", "yes"] then some 1
  else if word ∈ ["false", "off", "no"] then some 0
  else none

def scalarNumber : Scalar → Except SettingFault UInt64
  | .empty => .error (.noNumber .unit)
  | .bool b => .ok (if b then 1 else 0)
  | .int n => if n < 0 then .error (.negative n) else .ok (UInt64.ofNat n.toNat)
  | .float x => .ok x.toUInt64
  | .text s =>
    match truthWord? s with
    | some n => .ok n
    | none =>
      match NumberText.uint64? s.toList with
      | some n => .ok n
      | none => .error (.noNumber (.text s))

def number (path : String) : Setting → Except SettingError UInt64
  | .scalar origin v => (scalarNumber v).mapError fun fault => ⟨fault, path, origin⟩
  | .array origin _ => .error ⟨.noNumber .sequence, path, origin⟩
  | .table origin _ => .error ⟨.noNumber .map, path, origin⟩

def number? (path : String) : Option Setting → Except SettingError (Option UInt64)
  | none => .ok none
  | some s => (s.number path).map some

/-- The timings in a section: by name, or by position in an array. What is missing has its
default. -/
def timing : Setting → Except SettingError Timing
  | .table _ es => do
    let shortWait ← number? "reconciler.short_wait_secs" (es.lookup "short_wait_secs")
    let timeout ← number? "reconciler.timeout_secs" (es.lookup "timeout_secs")
    pure ⟨shortWait.getD 30, timeout.getD 60⟩
  | .array _ items => do
    let shortWait ← number? "reconciler[0]" items[0]?
    let timeout ← number? "reconciler[1]" items[1]?
    pure ⟨shortWait.getD 30, timeout.getD 60⟩
  | .scalar _ v => .error ⟨.noSection (foundScalar v), "reconciler", none⟩

def settings (s : Setting) : Except SettingError Settings :=
  match s.entries.lookup "reconciler" with
  | none => .ok {}
  | some reconciler => reconciler.timing.map Settings.mk

end Setting

end ProviderRoles
