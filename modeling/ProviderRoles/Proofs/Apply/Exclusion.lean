import ProviderRoles.Proofs.Apply.Course
import ProviderRoles.Proofs.Store.Versions

/-! Applying objects at a store that others write too. The owner is checked on a copy that was
read before the write. The write carries the version of that copy, and a version names one write,
so the check holds of what is overwritten at the instant of the write. -/
namespace ProviderRoles

namespace Apply

variable {object : Manifest} {guards : List Guard} {calls : List Completed}

/-- All that an application can have called so far: nothing, a read, or a read and one write. It
creates only after a failed read, and overwrites only what it has read and its guards let pass. -/
theorem follows_apply (h : (apply object guards).Follows calls) :
    calls = [] ∨ ∃ reply rest, calls = ⟨.get object.kind object.key, reply⟩ :: rest ∧
      (rest = [] ∨
      (∃ reply, rest = [⟨.create (unversioned object), reply⟩]) ∨
      (∃ current reply', reply = .ok current ∧ Guard.all guards current object = .ok () ∧
        rest = [⟨.update (adopt current object), reply'⟩])) := by
  obtain ⟨later, result, ends⟩ := h.extends
  generalize split : calls ++ later = all at ends
  have course := course_of_ends ends
  cases calls with
  | nil => exact .inl rfl
  | cons x rest =>
    right
    cases course with
    | missing reply _ =>
      obtain ⟨rfl, tail⟩ := List.cons.inj split
      refine ⟨_, rest, rfl, ?_⟩
      rcases List.append_eq_singleton_iff.1 tail with ⟨none, _⟩ | ⟨created, _⟩
      · exact .inl none
      · exact .inr (.inl ⟨reply, created⟩)
    | unread _ | refused _ | equal _ _ =>
      obtain ⟨rfl, tail⟩ := List.cons.inj split
      exact ⟨_, rest, rfl, .inl (List.append_eq_nil_iff.1 tail).1⟩
    | @different current reply allowed _ =>
      obtain ⟨rfl, tail⟩ := List.cons.inj split
      refine ⟨_, rest, rfl, ?_⟩
      rcases List.append_eq_singleton_iff.1 tail with ⟨none, _⟩ | ⟨updated, _⟩
      · exact .inl none
      · exact .inr (.inr ⟨current, reply, rfl, allowed, updated⟩)

end Apply

/-- Someone who applies an object on behalf of its owner. -/
structure Application where
  owner : Uid
  object : Manifest

def Application.plan (a : Application) : Plan (Except ApplyError Manifest) :=
  Apply.apply a.object [Guard.controllableBy a.owner]

open Store

variable {ι : Type} [DecidableEq ι] {start : Store}

theorem returned_of_completed {moves : List (ι × Turn)} {i : ι} {kind : String} {key : ObjectKey}
    {current : Manifest} (h : ⟨.get kind key, .ok current⟩ ∈ start.completed i moves) :
    Returned start (turnsOf moves) (address kind key) current := by
  obtain ⟨earlier, ⟨birth, call⟩, later, rfl, read⟩ := move_of_completed h
  injection read with same reply
  cases same
  refine ⟨turnsOf earlier, ⟨birth, .get kind key⟩, turnsOf later, by simp [turnsOf], ?_⟩
  rw [← eq_of_heq reply]
  exact ⟨rfl, rfl⟩

/-- The one write of an application in the middle of a run, seen with what it has called before. -/
theorem Application.write_cases {a : Application} {before rest : List Completed} {c : Call}
    {reply : Except StoreError c.Reply} {stored : Manifest}
    (follows : a.plan.Follows (before ++ ⟨c, reply⟩ :: rest))
    (wrote : writtenBy c reply = some stored) :
    c = .create (Apply.unversioned a.object) ∨
    ∃ current, before = [⟨.get a.object.kind a.object.key, .ok current⟩] ∧
      isControllableBy current.metadata.ownerReferences a.owner = true ∧
      c = .update (Apply.adopt current a.object) := by
  rcases Apply.follows_apply follows with none | ⟨read, calls, split, writes⟩
  · simp at none
  cases before with
  | nil =>
    cases (List.cons.inj split).1
    simp [writtenBy] at wrote
  | cons x before =>
    obtain ⟨rfl, tail⟩ := List.cons.inj split
    clear split
    rcases writes with none | ⟨created, one⟩ | ⟨current, updated, rfl, allowed, one⟩
    · simp [none] at tail
    · rw [one] at tail
      cases before with
      | nil => injection (List.cons.inj tail).1 with same; exact .inl same
      | cons y before => simp at tail
    · rw [one] at tail
      cases before with
      | nil =>
        injection (List.cons.inj tail).1 with same
        exact .inr ⟨current, rfl, all_controllableBy_iff.1 allowed, same⟩
      | cons y before => simp at tail

/-- Whatever an application overwrites in a shared run is, at that very instant, an object that
nobody controls or that its own owner alone controls. Everything may happen between its read and
its write, a deletion and another creation included. -/
theorem application_overwrites_controllable (fresh : start.IsNew) {moves : List (ι × Turn)}
    (few : (start.written (turnsOf moves)).length < UInt64.size)
    {applications : ι → Option Application}
    (follow : ∀ i a, applications i = some a → a.plan.Follows (start.completed i moves))
    {earlier later : List (ι × Turn)} {i : ι} {t : Turn} (move : moves = earlier ++ (i, t) :: later)
    {a : Application} (applies : applications i = some a) {stored : Manifest}
    (wrote : writtenBy t.call
      ((start.after (turnsOf earlier)).perform t.birth t.call).1 = some stored) :
    addressOf stored = addressOf a.object ∧
    ∀ current, (start.after (turnsOf earlier)).objects.get? (addressOf stored) = some current →
      (controllers current.metadata.ownerReferences = [] ∨
        isControlledBy current.metadata.ownerReferences a.owner = true) ∧
      (controllers current.metadata.ownerReferences).length ≤ 1 ∧
      ∀ other, other ≠ a.owner →
        isControlledBy current.metadata.ownerReferences other = false := by
  have keeps := follow i a applies
  subst move
  simp only [completed_append, completed] at keeps
  obtain ⟨birth, call⟩ := t
  rcases Application.write_cases keeps wrote with rfl | ⟨read, before, allowed, rfl⟩
  · obtain ⟨vacant, place⟩ := vacant_of_created wrote
    refine ⟨place, fun current there => ?_⟩
    rw [place, vacant] at there
    contradiction
  · obtain ⟨overwritten, there, unchanged, place⟩ := fresh_of_updated wrote
    refine ⟨place, fun current here => ?_⟩
    have returned := returned_of_completed (by rw [before]; exact List.mem_singleton_self _)
    have fewer : (start.written (turnsOf earlier)).length ≤ UInt64.size := by
      simp only [turnsOf, List.map_append, written_append, List.length_append] at few ⊢
      omega
    -- What is overwritten carries the version of what was read, so it is what was read.
    have same : overwritten = read := (returned.isFresh_iff fresh fewer there rfl).1 unchanged
    rw [place, there, same, Option.some.injEq] at here
    subst here
    refine ⟨isControllableBy_iff.1 allowed, controllers_of_controllable allowed, ?_⟩
    intro other different
    rw [Bool.eq_false_iff]
    exact fun controlled => different (eq_of_controllable allowed controlled)

/-- A role that nobody controls is read for an owner, another object is written, and the owner's
write comes last. -/
def adoption : List (Bool × Turn) :=
  [(false, ⟨⟨⟨"r"⟩, .epoch⟩, .create (.new "v1" "ClusterRole" (.named "role"))⟩),
   (true, ⟨⟨⟨"s"⟩, .epoch⟩, .get "ClusterRole" (.cluster "role")⟩),
   (false, ⟨⟨⟨"t"⟩, .epoch⟩, .create (.new "v1" "ClusterRole" (.named "other"))⟩),
   (true, ⟨⟨⟨"u"⟩, .epoch⟩, .update (.new "v2" "ClusterRole"
      { name := "role", uid := ⟨"r"⟩, resourceVersion := some "1"
        creationTimestamp := some .epoch })⟩)]

theorem adoption_overwrites_uncontrolled :
    (new.after (turnsOf (adoption.take 3))).get "ClusterRole" (.cluster "role") =
      .ok (.new "v1" "ClusterRole"
        { name := "role", uid := ⟨"r"⟩, resourceVersion := some "1"
          creationTimestamp := some .epoch }) ∧
    (controllers [] = [] ∨ isControlledBy [] ⟨"owner"⟩ = true) ∧
    (controllers []).length ≤ 1 ∧ isControlledBy [] ⟨"stranger"⟩ = false := by
  have follow : ∀ (i : Bool) (a : Application),
      (if i then some ⟨⟨"owner"⟩, .new "v2" "ClusterRole" (.named "role")⟩ else none) = some a →
        a.plan.Follows (new.completed i adoption) := by
    intro i a applies
    cases i with
    | false => contradiction
    | true =>
      cases Option.some.inj applies
      exact .call _ (.call _ (.start _))
  have move : adoption = adoption.take 3 ++ (true, _) :: [] := rfl
  have overwrites := application_overwrites_controllable (.inl rfl) (by decide) follow move rfl rfl
  obtain ⟨allowed, few, others⟩ := overwrites.2 _ rfl
  exact ⟨rfl, allowed, few, others ⟨"stranger"⟩ (by decide)⟩

end ProviderRoles
