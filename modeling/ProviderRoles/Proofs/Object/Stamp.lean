import ProviderRoles.Object.Meta

/-! What stamping a reference leaves alone: everything but the references, and of these the plain ones
of other owners, in their order. The new reference takes the place of the first one with its UID, so
a second stamp finds it there and changes nothing. -/
namespace ProviderRoles

/-- `r` has come into a list, in the place of the first reference with its UID or, if there was none,
as the last. -/
inductive Placed (r : OwnerReference) : List OwnerReference → List OwnerReference → Prop where
  | replacing {before after : List OwnerReference} {s : OwnerReference}
      (first : ∀ p ∈ before, p.uid ≠ r.uid) (same : s.uid = r.uid) :
      Placed r (before ++ s :: after) (before ++ r :: after)
  | last {refs : List OwnerReference} (absent : ∀ p ∈ refs, p.uid ≠ r.uid) :
      Placed r refs (refs ++ [r])

/-- What has become of references on which `r` was stamped. -/
structure Stamped (r : OwnerReference) (refs stamped : List OwnerReference) : Prop where
  mem : r ∈ stamped
  /-- No other owner is left as controller. -/
  sole : ∀ s ∈ stamped, s.isController = true → s.uid = r.uid
  others : stamped.filter (·.uid ≠ r.uid) =
    refs.filter fun s => !s.isController && s.uid ≠ r.uid
  placed : Placed r (refs.filter fun s => !s.isController || s.uid = r.uid) stamped

variable {r : OwnerReference} {refs placed : List OwnerReference}

theorem replaceOrAppend_append {before after : List OwnerReference} {s : OwnerReference}
    (first : ∀ p ∈ before, p.uid ≠ r.uid) (same : s.uid = r.uid) :
    replaceOrAppend r (before ++ s :: after) = before ++ r :: after := by
  induction before with
  | nil => rw [List.nil_append, replaceOrAppend, if_pos same, List.nil_append]
  | cons p before ih =>
    obtain ⟨other, others⟩ := List.forall_mem_cons.1 first
    rw [List.cons_append, replaceOrAppend, if_neg other, ih others, List.cons_append]

theorem placed_replaceOrAppend (r : OwnerReference) (refs : List OwnerReference) :
    Placed r refs (replaceOrAppend r refs) := by
  induction refs with
  | nil => exact .last (List.forall_mem_nil _)
  | cons s refs ih =>
    by_cases same : s.uid = r.uid
    · rw [replaceOrAppend, if_pos same]
      exact @Placed.replacing r [] refs s (List.forall_mem_nil _) same
    · rw [replaceOrAppend, if_neg same]
      generalize replaceOrAppend r refs = placed at ih
      cases ih with
      | replacing first found =>
        exact @Placed.replacing r (s :: _) _ _ (List.forall_mem_cons.2 ⟨same, first⟩) found
      | last absent => exact .last (List.forall_mem_cons.2 ⟨same, absent⟩)

namespace Placed

theorem mem (h : Placed r refs placed) : r ∈ placed := by
  cases h with
  | replacing _ _ => exact List.mem_append_right _ List.mem_cons_self
  | last _ => exact List.mem_append_right _ List.mem_cons_self

theorem eq_or_mem (h : Placed r refs placed) {s : OwnerReference} (mem : s ∈ placed) :
    s = r ∨ s ∈ refs := by
  cases h with
  | replacing _ _ =>
    rcases List.mem_append.1 mem with before | rest
    · exact .inr (List.mem_append_left _ before)
    · rcases List.mem_cons.1 rest with here | after
      · exact .inl here
      · exact .inr (List.mem_append_right _ (List.mem_cons_of_mem _ after))
  | last _ =>
    rcases List.mem_append.1 mem with before | here
    · exact .inr before
    · exact .inl (List.mem_singleton.1 here)

theorem others (h : Placed r refs placed) :
    placed.filter (·.uid ≠ r.uid) = refs.filter (·.uid ≠ r.uid) := by
  cases h with
  | replacing _ same => simp [List.filter_append, same]
  | last _ => simp [List.filter_append]

theorem again (h : Placed r refs placed) : replaceOrAppend r placed = placed := by
  cases h with
  | replacing first _ => exact replaceOrAppend_append first rfl
  | last absent => exact replaceOrAppend_append absent rfl

end Placed

theorem stamped_stampController (r : OwnerReference) (refs : List OwnerReference) :
    Stamped r refs (stampController refs r) := by
  have placed := placed_replaceOrAppend r (refs.filter fun s => !s.isController || s.uid = r.uid)
  refine ⟨placed.mem, ?_, ?_, placed⟩
  · intro s mem flagged
    rcases placed.eq_or_mem mem with rfl | kept
    · rfl
    · simpa [flagged] using (List.mem_filter.1 kept).2
  · rw [stampController, placed.others, List.filter_filter]
    refine List.filter_congr fun s _ => ?_
    by_cases same : s.uid = r.uid <;> simp [same]

theorem Stamped.again {stamped : List OwnerReference} (h : Stamped r refs stamped) :
    stampController stamped r = stamped := by
  have kept : (stamped.filter fun s => !s.isController || s.uid = r.uid) = stamped := by
    refine List.filter_eq_self.2 fun s mem => ?_
    cases flagged : s.isController with
    | false => rfl
    | true => simpa using h.sole s mem flagged
  rw [stampController, kept]
  exact h.placed.again

/-- Stamping changes the owner references alone. Of these it keeps the plain ones of other owners,
and doing it again changes nothing. -/
theorem setController_keeps (m : ObjectMeta) (r : OwnerReference) :
    let stamped := m.setController r
    { stamped with ownerReferences := m.ownerReferences } = m ∧
    Stamped r m.ownerReferences stamped.ownerReferences ∧ stamped.setController r = stamped := by
  intro stamped
  have references := stamped_stampController r m.ownerReferences
  refine ⟨rfl, references, ?_⟩
  show { stamped with ownerReferences := stampController stamped.ownerReferences r } = stamped
  rw [show stampController stamped.ownerReferences r = stamped.ownerReferences from references.again]

/-- A plain owner between two references with the UID that is stamped, and another controller. -/
example :
    let owner (uid : String) (controller : Option Bool) : OwnerReference :=
      ⟨"v1", "Owner", uid, ⟨uid⟩, controller, none⟩
    let refs := [owner "x" (some true), owner "u" none, owner "y" none, owner "u" (some true)]
    stampController refs (owner "u" (some false)) =
      [owner "u" (some false), owner "y" none, owner "u" (some true)] := by
  decide

end ProviderRoles
