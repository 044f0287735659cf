import ProviderRoles.Proofs.Plan.Interleaving

/-! Paths through a plan: the calls that it makes, each with some reply, up to a result. A path
does not say where the replies come from, so what holds of every path holds at every server. -/
namespace ProviderRoles

def Completed.failure? (x : Completed) : Option StoreError :=
  match x.reply with
  | .error e => some e
  | .ok _ => none

namespace Plan

variable {α β σ : Type}

/-- A plan that gets the replies in `calls` makes just these calls and comes to the result. -/
inductive Ends : Plan α → List Completed → α → Prop where
  | done (a : α) : Ends (.done a) [] a
  | note {n : Note} {next : Plan α} {calls : List Completed} {a : α} :
      Ends next calls a → Ends (.note n next) calls a
  | call {c : Call} {next : Except StoreError c.Reply → Plan α} {calls : List Completed} {a : α}
      (reply : Except StoreError c.Reply) :
      Ends (next reply) calls a → Ends (.call c next) (⟨c, reply⟩ :: calls) a

theorem ends_done {a b : α} {calls : List Completed} (h : (done a).Ends calls b) :
    calls = [] ∧ b = a := by
  cases h
  exact ⟨rfl, rfl⟩

theorem ends_note {n : Note} {p : Plan α} {calls : List Completed} {a : α}
    (h : ((note n (done ())).bind fun _ => p).Ends calls a) : p.Ends calls a := by
  cases h with
  | note h => exact h

theorem ends_call {c : Call} {next : Except StoreError c.Reply → Plan α} {calls : List Completed}
    {a : α} (h : (call c next).Ends calls a) :
    ∃ reply rest, calls = ⟨c, reply⟩ :: rest ∧ (next reply).Ends rest a := by
  cases h with
  | call reply h => exact ⟨reply, _, rfl, h⟩

/-- A path through a plan in two parts goes through one part after the other. -/
theorem ends_bind {p : Plan α} {f : α → Plan β} {calls : List Completed} {b : β}
    (h : (p.bind f).Ends calls b) :
    ∃ first a rest, calls = first ++ rest ∧ p.Ends first a ∧ (f a).Ends rest b := by
  induction p generalizing calls with
  | done a => exact ⟨[], a, calls, rfl, .done a, h⟩
  | note n next ih =>
    cases h with
    | note h =>
      obtain ⟨first, a, rest, split, head, tail⟩ := ih h
      exact ⟨first, a, rest, split, .note head, tail⟩
  | call c next ih =>
    cases h with
    | call reply h =>
      obtain ⟨first, a, rest, rfl, head, tail⟩ := ih reply h
      exact ⟨⟨c, reply⟩ :: first, a, rest, rfl, .call reply head, tail⟩

/-- A run that is not given up goes along a path. -/
theorem ends_run (serve : Server σ) (limit : Option Nat) (p : Plan α) {elapsed : Nat} {s : σ}
    {a : α} (inTime : (p.run serve limit elapsed s).result = some a) :
    p.Ends (p.run serve limit elapsed s).calls a := by
  induction p generalizing elapsed s with
  | done b =>
    cases inTime
    exact .done _
  | note n next ih => exact .note (ih inTime)
  | call c next ih =>
    simp only [run] at inTime ⊢
    split at inTime
    · contradiction
    · rename_i soon
      rw [if_neg soon]
      exact .call _ (ih _ inTime)

/-- Given up or not, a run goes along the beginning of a path. -/
theorem follows_run (serve : Server σ) (limit : Option Nat) (p : Plan α) (elapsed : Nat) (s : σ) :
    p.Follows (p.run serve limit elapsed s).calls := by
  induction p generalizing elapsed s with
  | done a => exact .start _
  | note n next ih => exact .note (ih elapsed s)
  | call c next ih =>
    simp only [run]
    split
    · exact .start _
    · exact .call _ (ih _ _ _)

theorem exists_ends (p : Plan α) : ∃ calls a, p.Ends calls a := by
  induction p with
  | done a => exact ⟨[], a, .done a⟩
  | note n next ih =>
    obtain ⟨calls, a, h⟩ := ih
    exact ⟨calls, a, .note h⟩
  | call c next ih =>
    -- Some reply will do, and an error is one for every call.
    obtain ⟨calls, a, h⟩ := ih (.error (.internal ""))
    exact ⟨_, a, .call _ h⟩

/-- The first calls of a plan are the beginning of a path. -/
theorem Follows.extends {p : Plan α} {calls : List Completed} (h : p.Follows calls) :
    ∃ later a, p.Ends (calls ++ later) a := by
  induction h with
  | start p => exact exists_ends p
  | note _ ih =>
    obtain ⟨later, a, h⟩ := ih
    exact ⟨later, a, .note h⟩
  | call reply _ ih =>
    obtain ⟨later, a, h⟩ := ih
    exact ⟨later, a, .call reply h⟩

end Plan

end ProviderRoles
