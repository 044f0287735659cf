import ProviderRoles.Json.Basic

/-! Values without a NaN. JSON has no other ones, but a double could hold one, and it would be the
only thing that differs from itself. -/
namespace ProviderRoles

theorem Binary64.sameValue_self (x : Binary64) : x.sameValue x = !x.isNaN := by
  simp [sameValue]

namespace Json

mutual

def isComparable : Json → Bool
  | .null => true
  | .bool _ => true
  | .int _ => true
  | .float x => !x.isNaN
  | .str _ => true
  | .arr items => itemsComparable items
  | .obj members => membersComparable members

def itemsComparable : List Json → Bool
  | [] => true
  | x :: xs => isComparable x && itemsComparable xs

def membersComparable : List (String × Json) → Bool
  | [] => true
  | (_, x) :: xs => isComparable x && membersComparable xs

end

theorem membersComparable_iff {ms : List (String × Json)} :
    membersComparable ms = true ↔ ∀ e ∈ ms, e.2.isComparable = true := by
  induction ms with
  | nil => simp [membersComparable]
  | cons e ms ih => rw [membersComparable, Bool.and_eq_true, ih, List.forall_mem_cons]

mutual

theorem alike_self : ∀ x : Json, alike Binary64.sameValue x x = isComparable x
  | .null => rfl
  | .bool _ => by simp [alike, isComparable]
  | .int _ => by simp [alike, isComparable]
  | .float x => by rw [alike, isComparable, x.sameValue_self]
  | .str _ => by simp [alike, isComparable]
  | .arr xs => by rw [alike, isComparable, alikeItems_self xs]
  | .obj xs => by rw [alike, isComparable, alikeMembers_self xs]

theorem alikeItems_self :
    ∀ xs : List Json, alikeItems Binary64.sameValue xs xs = itemsComparable xs
  | [] => rfl
  | x :: xs => by rw [alikeItems, itemsComparable, alike_self x, alikeItems_self xs]

theorem alikeMembers_self :
    ∀ xs : List (String × Json), alikeMembers Binary64.sameValue xs xs = membersComparable xs
  | [] => rfl
  | (_, x) :: xs => by
    rw [alikeMembers, membersComparable, alike_self x, alikeMembers_self xs]
    simp

end

theorem sameMembers_self (xs : List (String × Json)) :
    sameMembers xs xs = membersComparable xs :=
  alikeMembers_self xs

end Json

end ProviderRoles
