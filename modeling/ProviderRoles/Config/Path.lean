import ProviderRoles.Config.Setting
import ProviderRoles.Number.Text

/-! Paths to configuration values, such as `reconciler.short_wait_secs` or `hosts[0].name`.
What is no such path is the name of a value at the top. -/
namespace ProviderRoles

inductive PathStep where
  | child (name : String)
  | index (i : Int)
  deriving DecidableEq

namespace PathStep

def isNameChar (c : Char) : Bool := c.isAlphanum || c = '_' || c = '-'

/-- The index between brackets, a signed 64-bit integer. Blanks may surround it. -/
def index? (s : List Char) : Option Int :=
  let isBlank (c : Char) : Bool := c = ' ' || c = '\t'
  let body := ((s.dropWhile isBlank).reverse.dropWhile isBlank).reverse
  if body.head? = some '+' then none else NumberText.int64? body

/-- The steps after the first name. -/
def rest? : Nat → List Char → Option (List PathStep)
  | 0, _ => none
  | _ + 1, [] => some []
  | fuel + 1, '.' :: s =>
    match s.takeWhile isNameChar with
    | [] => none
    | name => (rest? fuel (s.dropWhile isNameChar)).map (.child (String.ofList name) :: ·)
  | fuel + 1, '[' :: s =>
    match s.dropWhile (· ≠ ']') with
    | [] => none
    | _ :: after => do
      let i ← index? (s.takeWhile (· ≠ ']'))
      let steps ← rest? fuel after
      pure (.index i :: steps)
  | _, _ => none

def steps (text : String) : List PathStep :=
  let s := text.toList
  let name := s.takeWhile isNameChar
  let rest := s.dropWhile isNameChar
  match rest? (s.length + 1) rest with
  | some steps => if name.isEmpty then [.child text] else .child (String.ofList name) :: steps
  | none => [.child text]

end PathStep

namespace Setting

def itemsOf : Setting → List Setting
  | .array _ items => items
  | _ => []

def arrayOrigin : Setting → Option SettingOrigin
  | .array origin _ => origin
  | _ => none

/-- The items with one at index `i`, and its position. A negative index counts from the end;
items that are missing up to it are empty. -/
def reach (i : Int) (items : List Setting) : List Setting × Nat :=
  if 0 ≤ i then
    (items ++ List.replicate (i.toNat + 1 - items.length) missing, i.toNat)
  else if i.natAbs ≤ items.length then (items, items.length - i.natAbs)
  else (List.replicate (i.natAbs - items.length) missing ++ items, 0)

/-- Changes the value at a path. What stands in the way gives place to tables and arrays. -/
def change (f : Setting → Setting) : List PathStep → Setting → Setting
  | [], s => f s
  | .child name :: path, s =>
    let inner := (s.entries.lookup name).getD missing
    .table s.tableOrigin (insertEntry name (change f path inner) s.entries)
  | .index i :: path, s =>
    let (items, position) := reach i s.itemsOf
    .array s.arrayOrigin (items.modify position (change f path))

def layAt (s : Setting) (path : String) (new : Setting) : Setting :=
  change (fun old => new.merge old) (PathStep.steps path) s

end Setting

end ProviderRoles
