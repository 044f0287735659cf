import ProviderRoles.Json.Basic

/-! The tables that a TOML text builds up. A table can be opened by a header only once, and
a value, once set, is never extended. -/
namespace ProviderRoles.Toml

inductive TableOrigin where
  /-- As part of the path in a header. -/
  | implied
  /-- As part of a dotted key. -/
  | dotted
  /-- By a header of its own. -/
  | headed
  deriving DecidableEq

inductive Item where
  | value (x : Json)
  | table (origin : TableOrigin) (entries : List (String × Item))
  /-- An array of tables, the last one first. -/
  | tables (current : List (String × Item)) (earlier : List (List (String × Item)))

abbrev Entries := List (String × Item)

/-- Puts `item` at `k`, in place of what was there or at the end. -/
def Entries.put (k : String) (item : Item) : Entries → Entries
  | [] => [(k, item)]
  | (l, old) :: rest => if l = k then (k, item) :: rest else (l, old) :: Entries.put k item rest

/-- A dotted key that leads through a table makes it its own, so that no header opens the
table any more. -/
def TableOrigin.passed (inKey : Bool) : TableOrigin → TableOrigin
  | .implied => if inKey then .dotted else .implied
  | origin => origin

/-- Changes the table at the end of a path. Tables that are missing on the way are made. A
path leads into the last table of an array of tables. The path of a header leads through
every table; that of a dotted key through none with a header of its own, and it does not end
in an array of tables. -/
def Entries.descend (inKey : Bool) (change : Entries → Option Entries) :
    List String → Entries → Option Entries
  | [], es => change es
  | k :: path, es => do
    match List.lookup k es with
    | none =>
      let inner ← descend inKey change path []
      pure (Entries.put k (.table (if inKey then .dotted else .implied) inner) es)
    | some (.table origin inner) =>
      if inKey ∧ origin = .headed then none
      else
        let inner ← descend inKey change path inner
        pure (Entries.put k (.table (origin.passed inKey) inner) es)
    | some (.tables current earlier) =>
      if inKey ∧ path.isEmpty then none
      else
        let current ← descend inKey change path current
        pure (Entries.put k (.tables current earlier) es)
    | some (.value _) => none

def Entries.setValue (k : String) (x : Json) (es : Entries) : Option Entries :=
  match List.lookup k es with
  | none => some (Entries.put k (.value x) es)
  | some _ => none

/-- Opens the table `k` for its header. -/
def Entries.openTable (k : String) (es : Entries) : Option Entries :=
  match List.lookup k es with
  | none => some (Entries.put k (.table .headed []) es)
  | some (.table .implied inner) => some (Entries.put k (.table .headed inner) es)
  | some _ => none

/-- Adds a table to the array of tables `k`. -/
def Entries.openElement (k : String) (es : Entries) : Option Entries :=
  match List.lookup k es with
  | none => some (Entries.put k (.tables [] []) es)
  | some (.tables current earlier) => some (Entries.put k (.tables [] (current :: earlier)) es)
  | some _ => none

/-- Acts on the last part of a path in the table that the parts before it lead to. -/
def Entries.atEnd (inKey : Bool) (act : String → Entries → Option Entries) (path : List String)
    (es : Entries) : Option Entries := do
  let last ← path.getLast?
  Entries.descend inKey (act last) path.dropLast es

mutual

def Item.toJson : Item → Json
  | .value x => x
  | .table _ es => .obj (entriesToJson es)
  | .tables current earlier => .arr ((tablesToJson earlier).reverse ++ [.obj (entriesToJson current)])

def entriesToJson : List (String × Item) → List (String × Json)
  | [] => []
  | (k, item) :: rest => (k, item.toJson) :: entriesToJson rest

def tablesToJson : List (List (String × Item)) → List Json
  | [] => []
  | es :: rest => .obj (entriesToJson es) :: tablesToJson rest

end

end ProviderRoles.Toml
