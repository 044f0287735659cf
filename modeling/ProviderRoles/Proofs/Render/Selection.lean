import Mathlib.Data.List.FinRange
import ProviderRoles.Proofs.Kind.ResourceDefinition
import ProviderRoles.Proofs.Object.Control
import ProviderRoles.Render

/-! Reading and writing agree on who owns an object. The flagged references decide both, with the
same outcome in every order and beside whatever plain references. So no definition is selected for
two owners, and the one it is selected for may overwrite it. -/
namespace ProviderRoles

def Manifest.withOwners (m : Manifest) (refs : List OwnerReference) : Manifest :=
  { m with metadata.ownerReferences := refs }

/-- Who may overwrite `m` and who controls it: with no flagged reference everyone may and nobody
does, with one its owner and nobody else does both, and with several nobody does either. -/
structure Decided (m : Manifest) : Prop where
  unowned : controllers m.metadata.ownerReferences = [] → ∀ uid desired,
    Guard.controllableBy uid m desired = .ok () ∧
      isControlledBy m.metadata.ownerReferences uid = false
  owned : ∀ r, controllers m.metadata.ownerReferences = [r] → ∀ uid desired,
    (Guard.controllableBy uid m desired = .ok () ↔ uid = r.uid) ∧
      (isControlledBy m.metadata.ownerReferences uid = true ↔ uid = r.uid)
  contested : 2 ≤ (controllers m.metadata.ownerReferences).length → ∀ uid desired,
    Guard.controllableBy uid m desired = .error (.notControllable m.kind m.key.text uid) ∧
      isControlledBy m.metadata.ownerReferences uid = false

/-- Two lists of references that decide alike. -/
structure DecideAlike (refs refs' : List OwnerReference) : Prop where
  controlled : ∀ uid, isControlledBy refs uid = isControlledBy refs' uid
  guarded : ∀ (m : Manifest) uid desired, Guard.controllableBy uid (m.withOwners refs) desired =
    Guard.controllableBy uid (m.withOwners refs') desired

/-- The definitions selected for an owner, by their positions: those that it controls, in order. -/
structure Selects (definitions : List ResourceDefinition) (uid : Uid)
    (positions : List (Fin definitions.length)) : Prop where
  ascending : positions.Pairwise (· < ·)
  mem_iff : ∀ i, i ∈ positions ↔
    isControlledBy (definitions.get i).metadata.ownerReferences uid = true
  selected : controlledBy definitions uid = positions.map definitions.get

section

variable {refs refs' : List OwnerReference} {uid : Uid} {m desired : Manifest}

theorem controllableBy_eq_ok_iff :
    Guard.controllableBy uid m desired = .ok () ↔
      isControllableBy m.metadata.ownerReferences uid = true := by
  rw [Guard.controllableBy]
  split <;> simp_all

theorem controllableBy_eq_error (h : isControllableBy m.metadata.ownerReferences uid = false) :
    Guard.controllableBy uid m desired = .error (.notControllable m.kind m.key.text uid) := by
  rw [Guard.controllableBy, h]
  rfl

theorem decided (m : Manifest) : Decided m := by
  constructor
  · intro none uid desired
    rw [controllableBy_eq_ok_iff, isControllableBy_iff, Bool.eq_false_iff, ne_eq, isControlledBy_iff]
    simp [none]
  · intro r sole uid desired
    rw [controllableBy_eq_ok_iff, isControllableBy_iff, isControlledBy_iff]
    simp [sole, eq_comm]
  · intro several uid desired
    have refused : isControllableBy m.metadata.ownerReferences uid = false :=
      isControllableBy_eq_false_iff.2 (.inr several)
    refine ⟨controllableBy_eq_error refused, ?_⟩
    rw [isControllableBy, Bool.or_eq_false_iff] at refused
    exact refused.2

theorem isControlledBy_congr (same : (controllers refs).Perm (controllers refs')) :
    isControlledBy refs uid = isControlledBy refs' uid := by
  -- A list of one reference has no other order.
  rw [Bool.eq_iff_iff, isControlledBy_iff, isControlledBy_iff]
  constructor
  · rintro ⟨r, sole, here⟩
    exact ⟨r, List.perm_singleton.1 (sole ▸ same.symm), here⟩
  · rintro ⟨r, sole, here⟩
    exact ⟨r, List.perm_singleton.1 (sole ▸ same), here⟩

theorem decideAlike_of_perm (same : (controllers refs).Perm (controllers refs')) :
    DecideAlike refs refs' := by
  have controlled : ∀ uid, isControlledBy refs uid = isControlledBy refs' uid :=
    fun _ => isControlledBy_congr same
  refine ⟨controlled, fun m uid desired => ?_⟩
  have none : (controllers refs).isEmpty = (controllers refs').isEmpty := by
    rw [Bool.eq_iff_iff, List.isEmpty_iff_length_eq_zero, List.isEmpty_iff_length_eq_zero,
      same.length_eq]
  have allowed : isControllableBy refs uid = isControllableBy refs' uid := by
    rw [isControllableBy, none, controlled, isControllableBy]
  show (if isControllableBy refs uid = true then _ else _) =
    if isControllableBy refs' uid = true then _ else _
  rw [allowed]
  rfl

theorem controllers_perm (h : refs.Perm refs') : (controllers refs).Perm (controllers refs') :=
  h.filter _

theorem controllers_insert_plain {before after : List OwnerReference} {r : OwnerReference}
    (plain : r.isController = false) :
    controllers (before ++ r :: after) = controllers (before ++ after) := by
  simp [controllers, List.filter_append, plain]

end

theorem selects (definitions : List ResourceDefinition) (uid : Uid) :
    ∃ positions, Selects definitions uid positions := by
  refine ⟨(List.finRange definitions.length).filter fun i =>
    isControlledBy (definitions.get i).metadata.ownerReferences uid, ?_, ?_, ?_⟩
  · exact (List.pairwise_lt_finRange _).filter _
  · simp
  · have all : (List.finRange definitions.length).map definitions.get = definitions :=
      List.map_get_finRange definitions
    rw [controlledBy]
    conv => lhs; rw [← all]
    rw [List.filter_map]
    rfl

theorem Selects.disjoint {definitions : List ResourceDefinition} {uid uid' : Uid}
    {positions positions' : List (Fin definitions.length)} (h : Selects definitions uid positions)
    (h' : Selects definitions uid' positions') (differ : uid ≠ uid') :
    positions.Disjoint positions' := by
  intro i mem mem'
  have mine := (h.mem_iff i).1 mem
  exact differ (eq_of_controllable (isControllableBy_iff.2 (.inr mine)) ((h'.mem_iff i).1 mem')).symm

/-- The object behind a selected definition is the owner's to overwrite. -/
theorem controllable_of_selected {definitions : List ResourceDefinition} {uid : Uid}
    {d : ResourceDefinition} (mem : d ∈ controlledBy definitions uid) {m : Manifest}
    (same : m.toResource ResourceDefinition = .ok d ∨ Manifest.ofResource d = .ok m)
    (desired : Manifest) : Guard.controllableBy uid m desired = .ok () := by
  have controlled := (List.mem_filter.1 mem).2
  have metadata : m.metadata = d.metadata := by
    rcases same with read | written
    · exact (Sectioned.metadata_of_toResource read).symm
    · exact (Manifest.ofResource_eq_ok written).2
  rw [controllableBy_eq_ok_iff, metadata]
  exact isControllableBy_iff.2 (.inr controlled)

/-- The guard of writes and the filter of reads decide by the flagged references alone, and alike.
What the filter selects for two owners has no position in common, and each may overwrite the objects
of its selection. -/
theorem ownership_exclusive :
    (∀ m : Manifest, Decided m) ∧
    (∀ refs refs', refs.Perm refs' → DecideAlike refs refs') ∧
    (∀ before (r : OwnerReference) after, r.isController = false →
      DecideAlike (before ++ r :: after) (before ++ after)) ∧
    ∀ definitions : List ResourceDefinition,
      (∀ uid, ∃ positions, Selects definitions uid positions) ∧
      (∀ uid uid' positions positions', uid ≠ uid' → Selects definitions uid positions →
        Selects definitions uid' positions' → positions.Disjoint positions') ∧
      ∀ uid, ∀ d ∈ controlledBy definitions uid, ∀ m : Manifest,
        m.toResource ResourceDefinition = .ok d ∨ Manifest.ofResource d = .ok m →
          ∀ desired, Guard.controllableBy uid m desired = .ok () := by
  refine ⟨decided, ?_, ?_, fun definitions => ⟨selects definitions, ?_, ?_⟩⟩
  · exact fun refs refs' perm => decideAlike_of_perm (controllers_perm perm)
  · intro before r after plain
    exact decideAlike_of_perm (.of_eq (controllers_insert_plain plain))
  · exact fun uid uid' positions positions' differ mine theirs => mine.disjoint theirs differ
  · exact fun uid d mem m same desired => controllable_of_selected mem same desired

/-- The first is of one owner, the second of two, the third of another one, the last of nobody. -/
def shares : List ResourceDefinition :=
  let flagged (uid : String) : OwnerReference := ⟨"v1", "Owner", uid, ⟨uid⟩, some true, none⟩
  [[flagged "p"], [flagged "p", flagged "p"], [flagged "q"], []].map fun refs =>
    { metadata := { name := "widgets.example.org", ownerReferences := refs }, spec := default }

theorem shares_divided :
    ∃ positions positions', Selects shares ⟨"p"⟩ positions ∧ Selects shares ⟨"q"⟩ positions' ∧
      positions.Disjoint positions' ∧ controlledBy shares ⟨"p"⟩ = [shares[0]] ∧
      controlledBy shares ⟨"q"⟩ = [shares[2]] := by
  obtain ⟨_, _, _, ofDefinitions⟩ := ownership_exclusive
  obtain ⟨selected, disjoint, _⟩ := ofDefinitions shares
  obtain ⟨positions, mine⟩ := selected ⟨"p"⟩
  obtain ⟨positions', theirs⟩ := selected ⟨"q"⟩
  exact ⟨positions, positions', mine, theirs, disjoint _ _ _ _ (by decide) mine theirs,
    by decide, by decide⟩

end ProviderRoles
