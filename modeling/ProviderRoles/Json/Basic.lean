import ProviderRoles.Number.Decimal
import ProviderRoles.SortedMap

/-! JSON values. An integer and a floating point number are different values even when
they are equal as numbers. The members of an object stand in ascending order of their
names when they come from a map; equality goes by position. -/
namespace ProviderRoles

inductive Json where
  | null
  | bool (b : Bool)
  | int (n : Int)
  | float (x : Binary64)
  | str (s : String)
  | arr (items : List Json)
  | obj (members : List (String × Json))
  deriving Inhabited

namespace Json

mutual

/-- Equality that leaves it to `eq` when two floating point numbers are equal. -/
def alike (eq : Binary64 → Binary64 → Bool) : Json → Json → Bool
  | .null, .null => true
  | .bool a, .bool b => a = b
  | .int m, .int n => m = n
  | .float x, .float y => eq x y
  | .str s, .str t => s = t
  | .arr xs, .arr ys => alikeItems eq xs ys
  | .obj xs, .obj ys => alikeMembers eq xs ys
  | _, _ => false

def alikeItems (eq : Binary64 → Binary64 → Bool) : List Json → List Json → Bool
  | [], [] => true
  | x :: xs, y :: ys => alike eq x y && alikeItems eq xs ys
  | _, _ => false

def alikeMembers (eq : Binary64 → Binary64 → Bool) :
    List (String × Json) → List (String × Json) → Bool
  | [], [] => true
  | (k, x) :: xs, (l, y) :: ys => k = l && alike eq x y && alikeMembers eq xs ys
  | _, _ => false

end

mutual

theorem alike_exact_iff : ∀ x y : Json, alike (fun a b => a = b) x y = true ↔ x = y
  | .null, y => by cases y <;> simp [alike]
  | .bool _, y => by cases y <;> simp [alike]
  | .int _, y => by cases y <;> simp [alike]
  | .float _, y => by cases y <;> simp [alike]
  | .str _, y => by cases y <;> simp [alike]
  | .arr xs, y => by cases y <;> simp [alike, alikeItems_exact_iff xs]
  | .obj xs, y => by cases y <;> simp [alike, alikeMembers_exact_iff xs]

theorem alikeItems_exact_iff :
    ∀ xs ys : List Json, alikeItems (fun a b => a = b) xs ys = true ↔ xs = ys
  | [], ys => by cases ys <;> simp [alikeItems]
  | x :: xs, ys => by
    cases ys <;> simp [alikeItems, alike_exact_iff x, alikeItems_exact_iff xs]

theorem alikeMembers_exact_iff :
    ∀ xs ys : List (String × Json), alikeMembers (fun a b => a = b) xs ys = true ↔ xs = ys
  | [], ys => by cases ys <;> simp [alikeMembers]
  | (k, x) :: xs, ys => by
    cases ys <;>
      simp [alikeMembers, alike_exact_iff x, alikeMembers_exact_iff xs, Prod.ext_iff]

end

instance : DecidableEq Json := fun x y => decidable_of_iff _ (alike_exact_iff x y)

/-- Equality of values: floating point numbers by value, so that the two zeros are equal,
and everything else exactly. -/
def same : Json → Json → Bool := alike Binary64.sameValue

def sameMembers : List (String × Json) → List (String × Json) → Bool :=
  alikeMembers Binary64.sameValue

def ofMap (m : SortedMap Json) : Json := .obj m.toList

/-- An object with the given members, without those that have no value. -/
def ofFields (fields : List (String × Option Json)) : SortedMap Json :=
  SortedMap.ofList (fields.filterMap fun (name, value) => value.map (name, ·))

/-- If no name comes twice, every field is found under its name. -/
theorem get?_ofFields {fields : List (String × Option Json)} {name : String} {v : Option Json}
    (apart : fields.Pairwise fun a b => a.1 ≠ b.1) (mem : (name, v) ∈ fields) :
    (ofFields fields).get? name = v := by
  have key : ∀ {field : String × Option Json} {e : String × Json},
      field.2.map (field.1, ·) = some e → e.1 = field.1 := by
    intro field e h
    obtain ⟨y, _, rfl⟩ := Option.map_eq_some_iff.1 h
    rfl
  have differ : (fields.filterMap fun (name, value) =>
      value.map (name, ·)).Pairwise fun a b => a.1 ≠ b.1 := by
    refine List.pairwise_filterMap.2 (apart.imp fun differ e here e' there => ?_)
    rw [key here, key there]
    exact differ
  have absent : ∀ part : List (String × Option Json), (∀ field ∈ part, field.1 ≠ name) →
      (part.filterMap fun (name, value) => value.map (name, ·)).lookup name = none := by
    intro part others
    simp only [List.lookup_eq_none_iff, List.mem_filterMap]
    rintro e ⟨field, mem, here⟩
    simpa [key here] using Ne.symm (others field mem)
  obtain ⟨before, behind, rfl⟩ := List.append_of_mem mem
  obtain ⟨_, last, across⟩ := List.pairwise_append.1 apart
  have front := absent before fun field mem => across field mem _ List.mem_cons_self
  have back := absent behind fun field mem => Ne.symm ((List.pairwise_cons.1 last).1 field mem)
  rw [ofFields, SortedMap.get?_ofList differ, List.filterMap_append, List.lookup_append, front]
  cases v with
  | none => simpa using back
  | some x => simp

def strings (texts : List String) : Json := .arr (texts.map .str)

end Json

end ProviderRoles
