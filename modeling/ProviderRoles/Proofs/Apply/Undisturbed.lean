import ProviderRoles.Proofs.Apply.Decision
import ProviderRoles.Proofs.Object.Control
import ProviderRoles.Proofs.Store.Faults

/-! Applications for an owner at a store without faults that nobody else writes. Each of them ends
in one of five ways, and what is reported tells what is stored then. -/
namespace ProviderRoles.Apply

open Store

/-- What is reported and what is stored in the end. -/
inductive Undisturbed (births : Nat → Birth) (owner : Uid) (o : Manifest) (s : Store) :
    Except ApplyError Manifest → Store → Prop where
  | created (i : Nat) : o.metadata.name.isEmpty = false →
      s.objects.get? (addressOf o) = none →
      Undisturbed births owner o s (.ok (s.write (born (births i) (unversioned o))).1)
        (s.write (born (births i) (unversioned o))).2
  | equal {current : Manifest} : s.objects.get? (addressOf o) = some current →
      isControllableBy current.metadata.ownerReferences owner = true →
      Manifest.contentMatches current o = true → Undisturbed births owner o s (.ok current) s
  | overwritten {current : Manifest} : o.metadata.name.isEmpty = false →
      s.objects.get? (addressOf o) = some current →
      isControllableBy current.metadata.ownerReferences owner = true →
      Manifest.contentMatches current o = false →
      Undisturbed births owner o s (.ok (s.write (adopt current o)).1)
        (s.write (adopt current o)).2
  | refused {current : Manifest} : s.objects.get? (addressOf o) = some current →
      isControllableBy current.metadata.ownerReferences owner = false →
      Undisturbed births owner o s
        (.error (.notControllable current.kind current.key.text owner)) s
  | nameless : o.metadata.name.isEmpty = true →
      (∀ current, s.objects.get? (addressOf o) = some current →
        isControllableBy current.metadata.ownerReferences owner = true ∧
          Manifest.contentMatches current o = false) →
      Undisturbed births owner o s (.error (.store (Store.nameless o))) s

variable {owner : Uid} {o current : Manifest} {s : Store} (births : Nat → Birth)

theorem isFresh_adopt : isFresh current (adopt current o) = true := by
  cases version : current.metadata.resourceVersion <;> simp [isFresh, versionOf, adopt, version]

theorem exec_createMissing_calm (named : o.metadata.name.isEmpty = false)
    (vacant : s.objects.get? (addressOf o) = none) (n : Nat) :
    (createMissing o).exec (serve (calm births)) (s, n) =
      (.ok (s.write (born (births n) (unversioned o))).1,
        (s.write (born (births n) (unversioned o))).2, n + 1) := by
  have created := create_vacant (m := unversioned o) (births n) named vacant
  show ((Plan.create (unversioned o) >>= _).exec (serve (calm births)) (s, n)) = _
  rw [Plan.exec_bind', Plan.create, Plan.exec_call, serve_calm, perform, created]
  rfl

theorem exec_createMissing_nameless (nameless : o.metadata.name.isEmpty = true) (n : Nat) :
    (createMissing o).exec (serve (calm births)) (s, n) =
      (.error (.store (Store.nameless o)), s, n + 1) := by
  have refused := create_nameless (s := s) (m := unversioned o) (births n) nameless
  show ((Plan.create (unversioned o) >>= _).exec (serve (calm births)) (s, n)) = _
  rw [Plan.exec_bind', Plan.create, Plan.exec_call, serve_calm, perform, refused]
  rfl

theorem exec_overwrite_calm (named : o.metadata.name.isEmpty = false)
    (there : s.objects.get? (addressOf o) = some current) (n : Nat) :
    (overwrite current o).exec (serve (calm births)) (s, n) =
      (.ok (s.write (adopt current o)).1, (s.write (adopt current o)).2, n + 1) := by
  have updated := update_fresh (m := adopt current o) named there isFresh_adopt
  show ((Plan.update (adopt current o) >>= _).exec (serve (calm births)) (s, n)) = _
  rw [Plan.exec_bind', Plan.update, Plan.exec_call, serve_calm, perform, updated]
  rfl

theorem exec_overwrite_nameless (nameless : o.metadata.name.isEmpty = true) (n : Nat) :
    (overwrite current o).exec (serve (calm births)) (s, n) =
      (.error (.store (Store.nameless o)), s, n + 1) := by
  have refused := update_nameless (s := s) (m := adopt current o) nameless
  show ((Plan.update (adopt current o) >>= _).exec (serve (calm births)) (s, n)) = _
  rw [Plan.exec_bind', Plan.update, Plan.exec_call, serve_calm, perform, refused]
  rfl

theorem exec_apply_vacant (owner : Uid) (vacant : s.objects.get? (addressOf o) = none) (n : Nat) :
    ∃ result s' n', (apply o [Guard.controllableBy owner]).exec (serve (calm births)) (s, n) =
        (result, s', n') ∧ Undisturbed births owner o s result s' := by
  rw [apply_eq, Plan.exec_call, serve_calm, perform, get_vacant vacant, afterRead_missing rfl]
  cases named : o.metadata.name.isEmpty with
  | true =>
    rw [exec_createMissing_nameless births named]
    refine ⟨_, _, _, rfl, .nameless named fun current there => ?_⟩
    rw [vacant] at there
    contradiction
  | false =>
    rw [exec_createMissing_calm births named vacant]
    exact ⟨_, _, _, rfl, .created _ named vacant⟩

theorem exec_apply_occupied (owner : Uid) (there : s.objects.get? (addressOf o) = some current)
    (n : Nat) :
    ∃ result s' n', (apply o [Guard.controllableBy owner]).exec (serve (calm births)) (s, n) =
        (result, s', n') ∧ Undisturbed births owner o s result s' := by
  rw [apply_eq, Plan.exec_call, serve_calm, perform, get_eq_ok_iff.2 there]
  cases allowed : isControllableBy current.metadata.ownerReferences owner with
  | false =>
    rw [afterRead_refused (all_controllableBy_refused allowed)]
    exact ⟨_, _, _, rfl, .refused there allowed⟩
  | true =>
    have passed : Guard.all [Guard.controllableBy owner] current o = .ok () :=
      all_controllableBy_iff.2 allowed
    cases equal : Manifest.contentMatches current o with
    | true =>
      rw [afterRead_equal passed equal]
      exact ⟨_, _, _, rfl, .equal there allowed equal⟩
    | false =>
      rw [afterRead_different passed equal]
      cases named : o.metadata.name.isEmpty with
      | true =>
        rw [exec_overwrite_nameless births named]
        refine ⟨_, _, _, rfl, .nameless named fun other here => ?_⟩
        cases there.symm.trans here
        exact ⟨allowed, equal⟩
      | false =>
        rw [exec_overwrite_calm births named there]
        exact ⟨_, _, _, rfl, .overwritten named there allowed equal⟩

/-- An application ends in one of the five ways. -/
theorem exec_apply_undisturbed (owner : Uid) (o : Manifest) (s : Store) (n : Nat) :
    ∃ result s' n', (apply o [Guard.controllableBy owner]).exec (serve (calm births)) (s, n) =
        (result, s', n') ∧ Undisturbed births owner o s result s' := by
  cases there : s.objects.get? (addressOf o) with
  | none => exact exec_apply_vacant births owner there n
  | some current => exact exec_apply_occupied births owner there n

end ProviderRoles.Apply
