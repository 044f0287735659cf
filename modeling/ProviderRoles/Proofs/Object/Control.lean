import ProviderRoles.Apply.Guard

/-! Who controls an object, in terms of its flagged references: the sole one decides, and two or
more leave the object to nobody. -/
namespace ProviderRoles

theorem isControlledBy_iff {refs : List OwnerReference} {uid : Uid} :
    isControlledBy refs uid = true ↔ ∃ r, controllers refs = [r] ∧ r.uid = uid := by
  unfold isControlledBy soleController?
  split
  · rename_i r h
    simp [h]
  · rename_i other
    constructor
    · intro h; simp at h
    · rintro ⟨r, h, _⟩
      exact absurd h (other r)

theorem isControllableBy_iff {refs : List OwnerReference} {uid : Uid} :
    isControllableBy refs uid = true ↔ controllers refs = [] ∨ isControlledBy refs uid = true := by
  rw [isControllableBy, Bool.or_eq_true, List.isEmpty_iff]

/-- Whoever may overwrite an object is its only possible controller. -/
theorem eq_of_controllable {refs : List OwnerReference} {uid other : Uid}
    (h : isControllableBy refs uid = true) (controlled : isControlledBy refs other = true) :
    other = uid := by
  obtain ⟨r, sole, rfl⟩ := isControlledBy_iff.1 controlled
  rcases isControllableBy_iff.1 h with none | mine
  · rw [none] at sole; contradiction
  · obtain ⟨r', sole', rfl⟩ := isControlledBy_iff.1 mine
    rw [sole] at sole'
    exact congrArg OwnerReference.uid (List.cons.inj sole').1

/-- An owner may not overwrite what has another sole controller, or several. -/
theorem isControllableBy_eq_false_iff {refs : List OwnerReference} {uid : Uid} :
    isControllableBy refs uid = false ↔
      (∃ c, controllers refs = [c] ∧ c.uid ≠ uid) ∨ 2 ≤ (controllers refs).length := by
  rw [Bool.eq_false_iff, ne_eq, isControllableBy_iff, isControlledBy_iff]
  cases flagged : controllers refs with
  | nil => simp
  | cons c others =>
    cases others with
    | nil => simp
    | cons c' others => simp

theorem controllers_of_controllable {refs : List OwnerReference} {uid : Uid}
    (h : isControllableBy refs uid = true) : (controllers refs).length ≤ 1 := by
  rcases isControllableBy_iff.1 h with none | mine
  · simp [none]
  · obtain ⟨r, sole, _⟩ := isControlledBy_iff.1 mine
    simp [sole]

theorem all_controllableBy_iff {uid : Uid} {current desired : Manifest} :
    Guard.all [Guard.controllableBy uid] current desired = .ok () ↔
      isControllableBy current.metadata.ownerReferences uid = true := by
  cases h : isControllableBy current.metadata.ownerReferences uid <;>
    simp [Guard.all, Guard.controllableBy, h, bind, Except.bind, pure, Except.pure]

theorem all_controllableBy_refused {uid : Uid} {current desired : Manifest}
    (h : isControllableBy current.metadata.ownerReferences uid = false) :
    Guard.all [Guard.controllableBy uid] current desired =
      .error (.notControllable current.kind current.key.text uid) := by
  simp [Guard.all, Guard.controllableBy, h, bind, Except.bind]

/-- The guard refuses for one reason only. -/
theorem all_controllableBy_error {uid : Uid} {current desired : Manifest} {e : ApplyError}
    (h : Guard.all [Guard.controllableBy uid] current desired = .error e) :
    isControllableBy current.metadata.ownerReferences uid = false ∧
      e = .notControllable current.kind current.key.text uid := by
  cases allowed : isControllableBy current.metadata.ownerReferences uid with
  | true =>
    rw [all_controllableBy_iff.2 allowed] at h
    contradiction
  | false =>
    rw [all_controllableBy_refused allowed] at h
    cases h
    exact ⟨rfl, rfl⟩

/-! Stamping. Of the references with the new controller's UID only the first one is replaced. -/

/-- The references with the UID, except the first one. -/
def furtherOf (uid : Uid) (refs : List OwnerReference) : List OwnerReference :=
  (refs.filter (·.uid = uid)).tail

section

variable {refs : List OwnerReference} {r : OwnerReference}

theorem controllers_filter_uid {uid : Uid} (own : ∀ s ∈ refs, s.isController = true → s.uid = uid) :
    controllers (refs.filter (·.uid = uid)) = controllers refs := by
  rw [controllers, controllers, List.filter_filter]
  refine List.filter_congr fun s mem => ?_
  cases flag : s.isController with
  | false => rfl
  | true => simp [own s mem flag]

theorem controllers_replaceOrAppend (flagged : r.isController = true)
    (own : ∀ s ∈ refs, s.isController = true → s.uid = r.uid) :
    controllers (replaceOrAppend r refs) = r :: controllers (furtherOf r.uid refs) := by
  induction refs with
  | nil => simp [replaceOrAppend, controllers, furtherOf, flagged]
  | cons s refs ih =>
    obtain ⟨first, others⟩ := List.forall_mem_cons.1 own
    by_cases same : s.uid = r.uid
    · have here : furtherOf r.uid (s :: refs) = refs.filter (·.uid = r.uid) := by
        rw [furtherOf, List.filter_cons_of_pos (by simp [same]), List.tail_cons]
      rw [replaceOrAppend, if_pos same, here, controllers_filter_uid others]
      exact List.filter_cons_of_pos flagged
    · have plain : ¬ s.isController = true := fun flag => same (first flag)
      have skipped : furtherOf r.uid (s :: refs) = furtherOf r.uid refs := by
        rw [furtherOf, List.filter_cons_of_neg (by simp [same]), furtherOf]
      rw [replaceOrAppend, if_neg same, skipped, ← ih others]
      exact List.filter_cons_of_neg plain

theorem controllers_stampController (refs : List OwnerReference) (flagged : r.isController = true) :
    controllers (stampController refs r) = r :: controllers (furtherOf r.uid refs) := by
  have kept : furtherOf r.uid (refs.filter fun s => !s.isController || s.uid = r.uid) =
      furtherOf r.uid refs := by
    rw [furtherOf, furtherOf, List.filter_filter]
    refine congrArg List.tail (List.filter_congr fun s _ => ?_)
    cases decide (s.uid = r.uid) <;> simp
  rw [stampController, controllers_replaceOrAppend flagged, kept]
  intro s mem flag
  have choice := (List.mem_filter.1 mem).2
  simpa [flag] using choice

theorem isControlledBy_stampController (flagged : r.isController = true) :
    isControlledBy (stampController refs r) r.uid = true ↔
      controllers (furtherOf r.uid refs) = [] := by
  rw [isControlledBy_iff, controllers_stampController refs flagged]
  constructor
  · rintro ⟨r', sole, _⟩
    exact (List.cons.inj sole).2
  · intro none
    exact ⟨r, by rw [none], rfl⟩

theorem isControllableBy_stampController (flagged : r.isController = true) :
    isControllableBy (stampController refs r) r.uid = true ↔
      controllers (furtherOf r.uid refs) = [] := by
  rw [isControllableBy_iff, isControlledBy_stampController flagged,
    controllers_stampController refs flagged]
  simp

end

end ProviderRoles
