import ProviderRoles.Proofs.Plan.Immediate
import ProviderRoles.Proofs.Store.History

/-! A store with faults. Any call may report an error, and a write that reports one may have been
done all the same. -/
namespace ProviderRoles

/-- An error that a call reports in place of its effect, or after it. -/
structure Fault where
  error : StoreError
  takesEffect : Bool

/-- What a call meets: what an object created by it would get, and a fault, if there is one. -/
structure Circumstance where
  birth : Birth
  fault : Option Fault

namespace Store

/-- Serves calls one after the other. The state counts them, and the `n`-th call meets
`meet n`. -/
def serve (meet : Nat → Circumstance) (c : Call) (w : Store × Nat) :
    Except StoreError c.Reply × Store × Nat :=
  let done := w.1.perform (meet w.2).birth c
  match (meet w.2).fault with
  | none => (done.1, done.2, w.2 + 1)
  | some f => (.error f.error, if f.takesEffect then done.2 else w.1, w.2 + 1)

def calm (births : Nat → Birth) (n : Nat) : Circumstance := ⟨births n, none⟩

@[simp] theorem serve_calm (births : Nat → Birth) (c : Call) (s : Store) (n : Nat) :
    serve (calm births) c (s, n) =
      ((s.perform (births n) c).1, (s.perform (births n) c).2, n + 1) := rfl

/-- A call is done as it should be, or reports an error and leaves the store as it was or as it
should be. -/
theorem serve_cases (meet : Nat → Circumstance) (c : Call) (s : Store) (n : Nat) :
    ∃ birth,
      serve meet c (s, n) = ((s.perform birth c).1, (s.perform birth c).2, n + 1) ∨
      ∃ e, serve meet c (s, n) = (.error e, s, n + 1) ∨
        serve meet c (s, n) = (.error e, (s.perform birth c).2, n + 1) := by
  refine ⟨(meet n).birth, ?_⟩
  cases fault : (meet n).fault with
  | none =>
    left
    simp only [serve, fault]
  | some f =>
    refine .inr ⟨f.error, ?_⟩
    cases effect : f.takesEffect with
    | false => left; simp only [serve, fault, effect]; rfl
    | true => right; simp only [serve, fault, effect, ↓reduceIte]

theorem serve_get (meet : Nat → Circumstance) (kind : String) (key : ObjectKey) (s : Store)
    (n : Nat) :
    serve meet (.get kind key) (s, n) = (s.get kind key, s, n + 1) ∨
    ∃ e, serve meet (.get kind key) (s, n) = (.error e, s, n + 1) := by
  obtain ⟨birth, done | ⟨e, failed | failed⟩⟩ := serve_cases meet (.get kind key) s n
  · exact .inl done
  · exact .inr ⟨e, failed⟩
  · exact .inr ⟨e, failed⟩

theorem serve_list (meet : Nat → Circumstance) (kind : String) (selector : Selector) (s : Store)
    (n : Nat) :
    serve meet (.list kind selector) (s, n) = (.ok (s.list kind selector), s, n + 1) ∨
    ∃ e, serve meet (.list kind selector) (s, n) = (.error e, s, n + 1) := by
  obtain ⟨birth, done | ⟨e, failed | failed⟩⟩ := serve_cases meet (.list kind selector) s n
  · exact .inl done
  · exact .inr ⟨e, failed⟩
  · exact .inr ⟨e, failed⟩

theorem serve_create (meet : Nat → Circumstance) (m : Manifest) (s : Store) (n : Nat) :
    (serve meet (.create m) (s, n)).2.1 = s ∨
    ∃ birth, s.objects.get? (addressOf m) = none ∧
      (serve meet (.create m) (s, n)).2.1 = (s.write (born birth m)).2 := by
  obtain ⟨birth, outcome⟩ := serve_cases meet (.create m) s n
  have state : (serve meet (.create m) (s, n)).2.1 = s ∨
      (serve meet (.create m) (s, n)).2.1 = (s.create birth m).2 := by
    rcases outcome with done | ⟨e, failed | failed⟩
    · exact .inr (by rw [done]; rfl)
    · exact .inl (by rw [failed])
    · exact .inr (by rw [failed]; rfl)
  rcases create_cases birth s m with ⟨e, refused⟩ | ⟨vacant, created⟩
  · rw [refused, or_self] at state
    exact .inl state
  · rw [created] at state
    exact state.imp id fun done => ⟨birth, vacant, done⟩

theorem serve_update (meet : Nat → Circumstance) (m : Manifest) (s : Store) (n : Nat) :
    (serve meet (.update m) (s, n)).2.1 = s ∨
    ∃ current, s.objects.get? (addressOf m) = some current ∧
      (serve meet (.update m) (s, n)).2.1 = (s.write (inheriting current m)).2 := by
  obtain ⟨birth, outcome⟩ := serve_cases meet (.update m) s n
  have state : (serve meet (.update m) (s, n)).2.1 = s ∨
      (serve meet (.update m) (s, n)).2.1 = (s.update m).2 := by
    rcases outcome with done | ⟨e, failed | failed⟩
    · exact .inr (by rw [done]; rfl)
    · exact .inl (by rw [failed])
    · exact .inr (by rw [failed]; rfl)
  rcases update_cases s m with ⟨e, refused⟩ | ⟨current, there, fresh, updated⟩
  · rw [refused, or_self] at state
    exact .inl state
  · rw [updated] at state
    exact state.imp id fun done => ⟨current, there, done⟩

end Store

end ProviderRoles
