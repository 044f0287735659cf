import ProviderRoles.Proofs.Apply.Settling

/-! Which stored objects an application overwrites, under any guards. The others stay as they are,
whatever the calls meet, and of an overwritten one nothing is left but three fields. -/
namespace ProviderRoles

open Store

namespace Apply

variable {guards : List Guard} {object current : Manifest} {s : Store}

/-- An application of `object` that finds `current` writes. -/
structure Overwrites (guards : List Guard) (object current : Manifest) : Prop where
  named : object.metadata.name.isEmpty = false
  allowed : Guard.all guards current object = .ok ()
  different : Manifest.contentMatches current object = false

theorem overwrites_iff_due {owner : Uid} (named : object.metadata.name.isEmpty = false) :
    Overwrites [Guard.controllableBy owner] object current ↔ due owner object current = true := by
  rw [due_iff]
  constructor
  · intro h
    exact ⟨all_controllableBy_iff.1 h.allowed, h.different⟩
  · rintro ⟨allowed, different⟩
    exact ⟨named, all_controllableBy_iff.2 allowed, different⟩

theorem serve_update_nameless (nameless : object.metadata.name.isEmpty = true)
    (meet : Nat → Circumstance) (n : Nat) :
    (serve meet (.update object) (s, n)).2.1 = s := by
  have refused := update_nameless (s := s) nameless
  obtain ⟨birth, done | ⟨e, failed | failed⟩⟩ := serve_cases meet (.update object) s n
  · rw [done, perform, refused]
  · rw [failed]
  · rw [failed, perform, refused]

theorem exec_apply_kept (there : s.objects.get? (addressOf object) = some current)
    (spared : ¬ Overwrites guards object current) (meet : Nat → Circumstance) (n : Nat) :
    ((apply object guards).exec (serve meet) (s, n)).2.1 = s := by
  rw [apply_eq, Plan.exec_call]
  rcases serve_get meet object.kind object.key s n with read | ⟨e, failed⟩
  · rw [read, get_eq_ok_iff.2 there]
    cases allowed : Guard.all guards current object with
    | error e =>
      rw [afterRead_refused allowed]
      rfl
    | ok u =>
      cases equal : Manifest.contentMatches current object with
      | true =>
        rw [afterRead_equal allowed equal]
        rfl
      | false =>
        rw [afterRead_different allowed equal, exec_overwrite_state]
        cases named : object.metadata.name.isEmpty with
        | false => exact absurd ⟨named, allowed, equal⟩ spared
        | true =>
          have unnamed : (adopt current object).metadata.name.isEmpty = true := named
          exact serve_update_nameless unnamed meet (n + 1)
  · rw [failed]
    cases missing : e.isNotFound with
    | false =>
      rw [afterRead_failed missing]
      rfl
    | true =>
      -- The object is there all the same, and a creation fails.
      rw [afterRead_missing missing, exec_createMissing_state]
      rcases serve_create meet (unversioned object) s (n + 1) with same | ⟨_, vacant, _⟩
      · exact same
      · have occupied : s.objects.get? (addressOf (unversioned object)) = some current := there
        rw [occupied] at vacant
        contradiction

theorem exec_apply_overwrites (there : s.objects.get? (addressOf object) = some current)
    (h : Overwrites guards object current) (births : Nat → Birth) (n : Nat) :
    ((apply object guards).exec (serve (calm births)) (s, n)).2.1 =
      (s.write (adopt current object)).2 := by
  rw [apply_eq, Plan.exec_call, serve_calm, perform, get_eq_ok_iff.2 there,
    afterRead_different h.allowed h.different]
  rw [exec_overwrite_calm births h.named there]

end Apply

end ProviderRoles
