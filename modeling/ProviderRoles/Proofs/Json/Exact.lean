import ProviderRoles.Json.Basic

/-! Values without floating point numbers. Among them equality of values is equality, whereas a
NaN differs from itself and the two zeros are one value. -/
namespace ProviderRoles.Json

mutual

def isExact : Json → Bool
  | .null => true
  | .bool _ => true
  | .int _ => true
  | .float _ => false
  | .str _ => true
  | .arr items => itemsExact items
  | .obj members => membersExact members

def itemsExact : List Json → Bool
  | [] => true
  | x :: xs => isExact x && itemsExact xs

def membersExact : List (String × Json) → Bool
  | [] => true
  | (_, x) :: xs => isExact x && membersExact xs

end

mutual

theorem alike_iff {eq : Binary64 → Binary64 → Bool} :
    ∀ x y : Json, isExact y = true → (alike eq x y = true ↔ x = y)
  | x, .null, _ => by cases x <;> simp [alike]
  | x, .bool _, _ => by cases x <;> simp [alike]
  | x, .int _, _ => by cases x <;> simp [alike]
  | _, .float _, exact => by simp [isExact] at exact
  | x, .str _, _ => by cases x <;> simp [alike]
  | x, .arr ys, exact => by
    rw [isExact] at exact
    cases x <;> simp [alike, alikeItems_iff _ ys exact]
  | x, .obj ys, exact => by
    rw [isExact] at exact
    cases x <;> simp [alike, alikeMembers_iff _ ys exact]

theorem alikeItems_iff {eq : Binary64 → Binary64 → Bool} :
    ∀ xs ys : List Json, itemsExact ys = true → (alikeItems eq xs ys = true ↔ xs = ys)
  | xs, [], _ => by cases xs <;> simp [alikeItems]
  | xs, y :: ys, exact => by
    rw [itemsExact, Bool.and_eq_true] at exact
    cases xs <;> simp [alikeItems, alike_iff _ y exact.1, alikeItems_iff _ ys exact.2]

theorem alikeMembers_iff {eq : Binary64 → Binary64 → Bool} :
    ∀ xs ys : List (String × Json), membersExact ys = true →
      (alikeMembers eq xs ys = true ↔ xs = ys)
  | xs, [], _ => by cases xs <;> simp [alikeMembers]
  | xs, (l, y) :: ys, exact => by
    rw [membersExact, Bool.and_eq_true] at exact
    cases xs <;>
      simp [alikeMembers, alike_iff _ y exact.1, alikeMembers_iff _ ys exact.2, Prod.ext_iff]

end

theorem sameMembers_iff {xs ys : List (String × Json)} (exact : membersExact ys = true) :
    sameMembers xs ys = true ↔ xs = ys :=
  alikeMembers_iff xs ys exact

theorem itemsExact_iff {xs : List Json} : itemsExact xs = true ↔ ∀ x ∈ xs, isExact x = true := by
  induction xs with
  | nil => simp [itemsExact]
  | cons x xs ih => simp [itemsExact, ih]

theorem membersExact_iff {xs : List (String × Json)} :
    membersExact xs = true ↔ ∀ e ∈ xs, isExact e.2 = true := by
  induction xs with
  | nil => simp [membersExact]
  | cons e xs ih => simp [membersExact, ih]

theorem isExact_strings (texts : List String) : isExact (strings texts) = true := by
  rw [strings, isExact, itemsExact_iff]
  intro x mem
  obtain ⟨text, _, rfl⟩ := List.mem_map.1 mem
  rfl

/-- An object is exact if the fields that it is made of are. -/
theorem membersExact_ofFields {fields : List (String × Option Json)}
    (exact : ∀ name x, (name, some x) ∈ fields → isExact x = true) :
    membersExact (ofFields fields).toList = true := by
  rw [membersExact_iff]
  rintro ⟨name, x⟩ mem
  obtain ⟨⟨name', value⟩, field, same⟩ := List.mem_filterMap.1 (SortedMap.mem_of_mem_ofList mem)
  obtain ⟨x', rfl, pair⟩ := Option.map_eq_some_iff.1 same
  cases pair
  exact exact _ _ field

end ProviderRoles.Json
