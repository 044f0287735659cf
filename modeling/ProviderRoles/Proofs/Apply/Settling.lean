import ProviderRoles.Proofs.Apply.Undisturbed

/-! What an owner's application of an object leaves behind at a store that nobody else writes.
An entry is settled once nothing is left to do about it, and stays as it is from then on. -/
namespace ProviderRoles

open Store

/-- An object without what only its store could have given it. -/
def unborn (m : Manifest) : Manifest :=
  { m with
    metadata.resourceVersion := none
    metadata.creationTimestamp := none
    metadata.uid := ⟨""⟩ }

namespace Apply

/-- Whether `owner` may overwrite `current` with `o`, and has to. -/
def due (owner : Uid) (o current : Manifest) : Bool :=
  isControllableBy current.metadata.ownerReferences owner && !Manifest.contentMatches current o

/-- The store after `owner` has applied `o` to it undisturbed. -/
def settle (birth : Birth) (owner : Uid) (o : Manifest) (s : Store) : Store :=
  match s.objects.get? (addressOf o) with
  | none => (s.write (born birth (unversioned o))).2
  | some current => if due owner o current then (s.write (adopt current o)).2 else s

/-- How the entry at an address of `o` changes: it appears, stays as it was because nothing was
due, or is overwritten because something was. Versions are left open. -/
inductive Settled (owner : Uid) (o : Manifest) : Option Manifest → Option Manifest → Prop
  | created {m : Manifest} : unborn m = unborn o → Settled owner o none (some m)
  | kept {m : Manifest} : due owner o m = false → Settled owner o (some m) (some m)
  | overwritten {m m' : Manifest} : due owner o m = true →
      unversioned m' = unversioned (adopt m o) → Settled owner o (some m) (some m')

variable {owner : Uid} {o current m m' : Manifest} {s : Store} {e e' e'' : Option Manifest}

theorem due_iff :
    due owner o m = true ↔ isControllableBy m.metadata.ownerReferences owner = true ∧
      Manifest.contentMatches m o = false := by
  rw [due, Bool.and_eq_true, Bool.not_eq_true']

theorem not_due_of_equal (h : Manifest.contentMatches m o = true) : due owner o m = false := by
  rw [due, h, Bool.not_true, Bool.and_false]

theorem not_due_of_refused (h : isControllableBy m.metadata.ownerReferences owner = false) :
    due owner o m = false := by
  rw [due, h, Bool.false_and]

theorem contentMatches_of_unborn (h : unborn m = unborn m') :
    Manifest.contentMatches m o = Manifest.contentMatches m' o := by
  show Manifest.contentMatches (unborn m) o = _
  rw [h]
  rfl

theorem contentMatches_of_unversioned (h : unversioned m = unversioned m') :
    Manifest.contentMatches m o = Manifest.contentMatches m' o := by
  show Manifest.contentMatches (unversioned m) o = _
  rw [h]
  rfl

section

variable (equal : Manifest.contentMatches o o = true)
include equal

theorem contentMatches_of_adopted (h : unversioned m' = unversioned (adopt m o)) :
    Manifest.contentMatches m' o = true := by
  have taken : Manifest.contentMatches (adopt m o) o = true := equal
  exact (contentMatches_of_unversioned h).trans taken

theorem Settled.not_due (h : Settled owner o e (some m)) : due owner o m = false := by
  cases h with
  | created same => exact not_due_of_equal ((contentMatches_of_unborn same).trans equal)
  | kept nothing => exact nothing
  | overwritten _ same => exact not_due_of_equal (contentMatches_of_adopted equal same)

/-- Settling it once more changes nothing. -/
theorem Settled.fixed (h : Settled owner o e e') (again : Settled owner o e' e'') : e'' = e' := by
  cases again with
  | created same => cases h
  | kept nothing => rfl
  | overwritten something same =>
    rw [h.not_due equal] at something
    contradiction

/-- Where the owner may write, the entry gets the content of `o`. -/
theorem Settled.content (h : Settled owner o e e')
    (allowed : e.all (isControllableBy ·.metadata.ownerReferences owner) = true) :
    ∃ m, e' = some m ∧ Manifest.contentMatches m o = true := by
  cases h with
  | created same => exact ⟨_, rfl, (contentMatches_of_unborn same).trans equal⟩
  | kept nothing =>
    rw [Option.all_some] at allowed
    rw [due, allowed, Bool.true_and, Bool.not_eq_false'] at nothing
    exact ⟨_, rfl, nothing⟩
  | overwritten _ same => exact ⟨_, rfl, contentMatches_of_adopted equal same⟩

end

/-- Two ways to settle an entry differ in nothing that the object says. -/
theorem Settled.agree_new (h : Settled owner o none e) (h' : Settled owner o none e') :
    e.map unborn = e'.map unborn := by
  cases h with
  | created same =>
    cases h' with
    | created same' => rw [Option.map_some, Option.map_some, same, same']

theorem Settled.agree_old (h : Settled owner o (some m) e) (h' : Settled owner o (some m) e') :
    e.map unversioned = e'.map unversioned := by
  cases h with
  | kept nothing =>
    cases h' with
    | kept _ => rfl
    | overwritten something _ => rw [nothing] at something; contradiction
  | overwritten something same =>
    cases h' with
    | kept nothing => rw [nothing] at something; contradiction
    | overwritten _ same' => rw [Option.map_some, Option.map_some, same, same']

theorem Settled.address (h : Settled owner o e (some m)) :
    e = some m ∨ addressOf m = addressOf o := by
  cases h with
  | created same =>
    have places := congrArg addressOf same
    exact .inr places
  | kept nothing => exact .inl rfl
  | overwritten something same =>
    have places := congrArg addressOf same
    exact .inr places

/-- Where the owner may not write, nothing changes. -/
theorem Settled.refused (h : Settled owner o e e')
    (refused : e.all (isControllableBy ·.metadata.ownerReferences owner) = false) : e' = e := by
  cases h with
  | created same => contradiction
  | kept nothing => rfl
  | overwritten something _ =>
    rw [Option.all_some] at refused
    rw [not_due_of_refused refused] at something
    contradiction

theorem Settled.idle (h : Settled owner o (some m) e) (nothing : due owner o m = false) :
    e = some m := by
  cases h with
  | kept _ => rfl
  | overwritten something _ =>
    rw [nothing] at something
    contradiction

theorem Settled.stays (h : Settled owner o (some m) e) : ∃ m', e = some m' := by
  cases h with
  | kept nothing => exact ⟨_, rfl⟩
  | overwritten something same => exact ⟨_, rfl⟩

theorem settle_none (birth : Birth) (vacant : s.objects.get? (addressOf o) = none) :
    settle birth owner o s = (s.write (born birth (unversioned o))).2 := by
  simp only [settle, vacant]

theorem settle_due (birth : Birth) (there : s.objects.get? (addressOf o) = some current)
    (something : due owner o current = true) :
    settle birth owner o s = (s.write (adopt current o)).2 := by
  simp only [settle, there, something, ↓reduceIte]

theorem settle_not_due (birth : Birth) (there : s.objects.get? (addressOf o) = some current)
    (nothing : due owner o current = false) : settle birth owner o s = s := by
  simp only [settle, there, nothing, Bool.false_eq_true, ↓reduceIte]

theorem get?_settle_of_ne (birth : Birth) {k : String} (other : k ≠ addressOf o) :
    (settle birth owner o s).objects.get? k = s.objects.get? k := by
  rw [settle]
  split
  · exact (get?_write ..).trans (if_neg other)
  · split
    · exact (get?_write ..).trans (if_neg other)
    · rfl

theorem settled_settle (birth : Birth) :
    Settled owner o (s.objects.get? (addressOf o))
      ((settle birth owner o s).objects.get? (addressOf o)) := by
  cases there : s.objects.get? (addressOf o) with
  | none =>
    have stored := get?_write_self s (born birth (unversioned o))
    rw [settle_none birth there]
    exact stored ▸ .created rfl
  | some current =>
    cases something : due owner o current with
    | false =>
      rw [settle_not_due birth there something, there]
      exact .kept something
    | true =>
      have stored := get?_write_self s (adopt current o)
      rw [settle_due birth there something]
      exact stored ▸ .overwritten something rfl

/-- An object that brings no UID along gets the one of its birth, and one that is overwritten keeps
its own. -/
theorem uid_settle (birth : Birth) (anonymous : o.metadata.uid.isEmpty = true) {k : String}
    (stored : (settle birth owner o s).objects.get? k = some m) :
    (∃ before, s.objects.get? k = some before ∧ m.metadata.uid = before.metadata.uid) ∨
      m.metadata.uid = birth.uid := by
  by_cases here : k = addressOf o
  · subst here
    cases there : s.objects.get? (addressOf o) with
    | none =>
      have new := get?_write_self s (born birth (unversioned o))
      rw [settle_none birth there] at stored
      cases stored.symm.trans new
      exact .inr (if_pos anonymous)
    | some current =>
      cases something : due owner o current with
      | false =>
        rw [settle_not_due birth there something, there] at stored
        cases stored
        exact .inl ⟨_, rfl, rfl⟩
      | true =>
        have new := get?_write_self s (adopt current o)
        rw [settle_due birth there something] at stored
        cases stored.symm.trans new
        exact .inl ⟨_, rfl, rfl⟩
  · rw [get?_settle_of_ne birth here] at stored
    exact .inl ⟨m, stored, rfl⟩

/-! Applications at a store, with and without faults. -/

variable (meet : Nat → Circumstance) (births : Nat → Birth)

theorem afterRead_due (something : due owner o current = true) :
    afterRead o [Guard.controllableBy owner] (.ok current) = overwrite current o := by
  obtain ⟨allowed, different⟩ := due_iff.1 something
  exact afterRead_different (all_controllableBy_iff.2 allowed) different

/-- When nothing is due, an application ends with its read, and only its guard can refuse it. -/
theorem afterRead_not_due (nothing : due owner o current = false) :
    ∃ result, (∀ e, result = .error e → e.isNotControllable = true) ∧
      ∀ (meet : Nat → Circumstance) (w : Store × Nat),
        (afterRead o [Guard.controllableBy owner] (.ok current)).exec (serve meet) w =
          (result, w) := by
  cases allowed : isControllableBy current.metadata.ownerReferences owner with
  | false =>
    refine ⟨.error (.notControllable current.kind current.key.text owner), ?_, ?_⟩
    · intro e h
      cases h
      rfl
    · intro meet w
      rw [afterRead_refused (all_controllableBy_refused allowed)]
      rfl
  | true =>
    rw [due, allowed, Bool.true_and, Bool.not_eq_false'] at nothing
    refine ⟨.ok current, ?_, ?_⟩
    · intro e h
      contradiction
    · intro meet w
      rw [afterRead_equal (all_controllableBy_iff.2 allowed) nothing]
      rfl

theorem exec_createMissing_state (w : Store × Nat) :
    ((createMissing o).exec (serve meet) w).2 = (serve meet (.create (unversioned o)) w).2 := by
  show ((Plan.create (unversioned o) >>= _).exec (serve meet) w).2 = _
  rw [Plan.exec_bind']
  split <;> rfl

theorem exec_overwrite_state (w : Store × Nat) :
    ((overwrite current o).exec (serve meet) w).2 =
      (serve meet (.update (adopt current o)) w).2 := by
  show ((Plan.update (adopt current o) >>= _).exec (serve meet) w).2 = _
  rw [Plan.exec_bind']
  split <;> rfl

theorem Undisturbed.settles {births : Nat → Birth} {result : Except ApplyError Manifest}
    {s' : Store} (h : Undisturbed births owner o s result s')
    (named : o.metadata.name.isEmpty = false) :
    (∃ i, s' = settle (births i) owner o s) ∧
      ∀ e, result = .error e → e.isNotControllable = true := by
  cases h with
  | created i _ vacant => exact ⟨⟨i, (settle_none _ vacant).symm⟩, fun e failed => by contradiction⟩
  | equal there _ equal =>
    have idle := settle_not_due (births 0) there (not_due_of_equal equal : due owner o _ = false)
    exact ⟨⟨0, idle.symm⟩, fun e failed => by contradiction⟩
  | overwritten _ there allowed different =>
    have done := settle_due (births 0) there (due_iff.2 ⟨allowed, different⟩)
    exact ⟨⟨0, done.symm⟩, fun e failed => by contradiction⟩
  | refused there foreign =>
    have idle := settle_not_due (births 0) there (not_due_of_refused foreign)
    refine ⟨⟨0, idle.symm⟩, fun e failed => ?_⟩
    cases failed
    rfl
  | nameless unnamed _ =>
    rw [named] at unnamed
    contradiction

/-- Without faults an application settles its object, and only its guard can refuse it. -/
theorem exec_apply_calm (owner : Uid) (named : o.metadata.name.isEmpty = false) (n : Nat) :
    ∃ result n' i,
      (apply o [Guard.controllableBy owner]).exec (serve (calm births)) (s, n) =
        (result, settle (births i) owner o s, n') ∧
      ∀ e, result = .error e → e.isNotControllable = true := by
  obtain ⟨result, s', n', run, ends⟩ := exec_apply_undisturbed births owner o s n
  obtain ⟨⟨i, rfl⟩, conflict⟩ := ends.settles named
  exact ⟨result, n', i, run, conflict⟩

theorem exec_createMissing_faulty (n : Nat) :
    ((createMissing o).exec (serve meet) (s, n)).2.1 = s ∨
    ∃ birth, ((createMissing o).exec (serve meet) (s, n)).2.1 = settle birth owner o s := by
  rw [exec_createMissing_state]
  rcases serve_create meet (unversioned o) s n with same | ⟨birth, vacant, created⟩
  · exact .inl same
  · exact .inr ⟨birth, created.trans (settle_none birth vacant).symm⟩

/-- With faults an application settles its object or does nothing, whatever it reports. -/
theorem exec_apply_faulty (owner : Uid) (o : Manifest) (n : Nat) :
    ((apply o [Guard.controllableBy owner]).exec (serve meet) (s, n)).2.1 = s ∨
    ∃ birth, ((apply o [Guard.controllableBy owner]).exec (serve meet) (s, n)).2.1 =
      settle birth owner o s := by
  rw [apply_eq, Plan.exec_call]
  rcases serve_get meet o.kind o.key s n with read | ⟨e, failed⟩
  · rw [read]
    cases there : s.objects.get? (addressOf o) with
    | none =>
      rw [get_vacant there, afterRead_missing rfl]
      exact exec_createMissing_faulty meet (n + 1)
    | some current =>
      rw [get_eq_ok_iff.2 there]
      cases something : due owner o current with
      | false =>
        obtain ⟨result, _, ends⟩ := afterRead_not_due something
        rw [ends]
        exact .inl rfl
      | true =>
        rw [afterRead_due something, exec_overwrite_state]
        rcases serve_update meet (adopt current o) s (n + 1) with same | ⟨other, here, updated⟩
        · exact .inl same
        · cases Option.some.inj (there.symm.trans here)
          exact .inr ⟨(meet n).birth, updated.trans (settle_due _ there something).symm⟩
  · rw [failed]
    cases missing : e.isNotFound with
    | true =>
      rw [afterRead_missing missing]
      exact exec_createMissing_faulty meet (n + 1)
    | false =>
      rw [afterRead_failed missing]
      exact .inl rfl

end Apply

end ProviderRoles
