import ProviderRoles.Proofs.Apply.Settling

/-! What the applications of several objects with different addresses leave behind. When they stop
half-way some of the objects are settled, and the store can still be settled as if they had not
been begun. -/
namespace ProviderRoles.Apply

open Store

variable {owner : Uid} {o : Manifest} {os : List Manifest} {s s' s'' : Store}

/-- Of two different objects neither is where the other one is. -/
def Apart (os : List Manifest) : Prop := os.Pairwise fun o o' => addressOf o ≠ addressOf o'

/-- All of `os` are settled, and nothing else has changed. -/
structure Settlement (owner : Uid) (os : List Manifest) (s s' : Store) : Prop where
  settled : ∀ o ∈ os,
    Settled owner o (s.objects.get? (addressOf o)) (s'.objects.get? (addressOf o))
  rest : ∀ k, (∀ o ∈ os, k ≠ addressOf o) → s'.objects.get? k = s.objects.get? k

/-- Some of `os` are settled, and nothing else has changed. -/
def Progress (owner : Uid) (os : List Manifest) (s s' : Store) : Prop :=
  ∀ k, s'.objects.get? k = s.objects.get? k ∨
    ∃ o ∈ os, k = addressOf o ∧ Settled owner o (s.objects.get? k) (s'.objects.get? k)

theorem Settlement.nil : Settlement owner [] s s := by
  constructor
  · intro o mem; contradiction
  · intro k _; rfl

theorem Settlement.cons (birth : Birth) (apart : Apart (o :: os))
    (h : Settlement owner os (settle birth owner o s) s') : Settlement owner (o :: os) s s' := by
  obtain ⟨first, _⟩ := List.pairwise_cons.1 apart
  constructor
  · intro o' mem
    rcases List.mem_cons.1 mem with rfl | mem
    · rw [h.rest _ first]
      exact settled_settle birth
    · have later := h.settled o' mem
      rwa [get?_settle_of_ne birth (first o' mem).symm] at later
  · intro k other
    obtain ⟨here, there⟩ := List.forall_mem_cons.1 other
    rw [h.rest k there, get?_settle_of_ne birth here]

/-- The objects are settled one after the other, each with one of the births. -/
inductive SettledInTurn (births : Nat → Birth) (owner : Uid) :
    List Manifest → Store → Store → Prop
  | nil {s : Store} : SettledInTurn births owner [] s s
  | cons {o : Manifest} {os : List Manifest} {s s' : Store} (i : Nat) :
      SettledInTurn births owner os (settle (births i) owner o s) s' →
      SettledInTurn births owner (o :: os) s s'

theorem SettledInTurn.settlement {births : Nat → Birth} (h : SettledInTurn births owner os s s')
    (apart : Apart os) : Settlement owner os s s' := by
  induction h with
  | nil => exact .nil
  | cons i _ ih => exact (ih apart.of_cons).cons _ apart

/-- New objects have their UIDs from the births, and the others keep theirs. -/
def UidsFrom (births : Nat → Birth) (s s' : Store) : Prop :=
  ∀ k m, s'.objects.get? k = some m →
    (∃ before, s.objects.get? k = some before ∧ m.metadata.uid = before.metadata.uid) ∨
      ∃ i, m.metadata.uid = (births i).uid

theorem UidsFrom.refl {births : Nat → Birth} : UidsFrom births s s :=
  fun _ m stored => .inl ⟨m, stored, rfl⟩

theorem SettledInTurn.uidsFrom {births : Nat → Birth} (h : SettledInTurn births owner os s s')
    (anonymous : ∀ o ∈ os, o.metadata.uid.isEmpty = true) : UidsFrom births s s' := by
  induction h with
  | nil => exact .refl
  | cons i _ ih =>
    intro k m stored
    obtain ⟨first, others⟩ := List.forall_mem_cons.1 anonymous
    rcases ih others k m stored with ⟨between, there, same⟩ | later
    · rcases uid_settle _ first there with ⟨before, there, same'⟩ | now
      · exact .inl ⟨before, there, same.trans same'⟩
      · exact .inr ⟨i, same.trans now⟩
    · exact .inr later

theorem Settlement.progress (h : Settlement owner os s s') : Progress owner os s s' := by
  intro k
  by_cases mem : ∃ o ∈ os, k = addressOf o
  · obtain ⟨o, mem, rfl⟩ := mem
    exact .inr ⟨o, mem, rfl, h.settled o mem⟩
  · exact .inl (h.rest k fun o isIn here => mem ⟨o, isIn, here⟩)

theorem Progress.addressed (h : Progress owner os s s') (addressed : s.Addressed) :
    s'.Addressed := by
  intro k m there
  rcases h k with same | ⟨o, _, here, settled⟩
  · rw [same] at there
    exact addressed k m there
  · rw [there] at settled
    rcases settled.address with old | place
    · exact addressed k m old
    · rw [here, place]

theorem Progress.refl : Progress owner os s s := fun _ => .inl rfl

theorem progress_settle (birth : Birth) (mem : o ∈ os) :
    Progress owner os s (settle birth owner o s) := by
  intro k
  by_cases here : k = addressOf o
  · rw [here]
    exact .inr ⟨o, mem, rfl, settled_settle birth⟩
  · exact .inl (get?_settle_of_ne birth here)

theorem eq_of_addressOf_eq (apart : Apart os) {o o' : Manifest} (mem : o ∈ os) (mem' : o' ∈ os)
    (same : addressOf o = addressOf o') : o = o' := by
  have unique : ∀ a ∈ os, ∀ b ∈ os, addressOf a = addressOf b → a = b := by
    refine List.Pairwise.forall_of_forall_of_flip (fun _ _ _ => rfl) ?_ ?_
    · exact apart.imp fun differ same => absurd same differ
    · exact apart.imp fun differ same => absurd same.symm differ
  exact unique o mem o' mem' same

section

variable (apart : Apart os) (equal : ∀ o ∈ os, Manifest.contentMatches o o = true)
include apart equal

theorem Progress.trans (h : Progress owner os s s') (h' : Progress owner os s' s'') :
    Progress owner os s s'' := by
  intro k
  rcases h' k with same' | ⟨o', mem', here', settled'⟩
  · rw [same']
    exact h k
  · -- An entry that was settled already does not change when it is settled again.
    rcases h k with same | ⟨o, mem, here, settled⟩
    · rw [same] at settled'
      exact .inr ⟨o', mem', here', settled'⟩
    · have one : o' = o := eq_of_addressOf_eq apart mem' mem (here'.symm.trans here)
      subst one
      rw [settled.fixed (equal o' mem') settled']
      exact .inr ⟨o', mem', here', settled⟩

/-- What was settled before stays, and the rest is settled now. -/
theorem Progress.settlement (h : Progress owner os s s') (h' : Settlement owner os s' s'') :
    Settlement owner os s s'' := by
  constructor
  · intro o mem
    have now := h'.settled o mem
    rcases h (addressOf o) with same | ⟨o', mem', here, settled⟩
    · rwa [same] at now
    · have one : o = o' := eq_of_addressOf_eq apart mem mem' here
      subst one
      rw [settled.fixed (equal o mem) now]
      exact settled
  · intro k other
    rw [h'.rest k other]
    rcases h k with same | ⟨o, mem, here, _⟩
    · exact same
    · exact absurd here (other o mem)

end

/-- The same but for what only a store can give, and for an object that was there before even in
that, except for its version. -/
def Agree : (before a b : Option Manifest) → Prop
  | none, a, b => a.map unborn = b.map unborn
  | some _, a, b => a.map unversioned = b.map unversioned

theorem Agree.refl {e e' : Option Manifest} : Agree e e' e' := by
  cases e with
  | none => rfl
  | some m => rfl

theorem Settled.agree {e e' e'' : Option Manifest} (h : Settled owner o e e')
    (h' : Settled owner o e e'') : Agree e e' e'' := by
  cases e with
  | none => exact h.agree_new h'
  | some m => exact h.agree_old h'

theorem Settlement.agree (h : Settlement owner os s s') (h' : Settlement owner os s s'')
    (k : String) : Agree (s.objects.get? k) (s'.objects.get? k) (s''.objects.get? k) := by
  by_cases mem : ∃ o ∈ os, k = addressOf o
  · obtain ⟨o, mem, rfl⟩ := mem
    exact (h.settled o mem).agree (h'.settled o mem)
  · have other : ∀ o ∈ os, k ≠ addressOf o := fun o isIn here => mem ⟨o, isIn, here⟩
    rw [h.rest k other, h'.rest k other]
    exact .refl

end ProviderRoles.Apply
