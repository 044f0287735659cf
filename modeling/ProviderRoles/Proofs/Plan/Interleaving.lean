import ProviderRoles.Plan
import ProviderRoles.Proofs.Store.History

/-! Actors that share a store. The calls of all actors come in one order, each of them done at
once, and an actor sees only its own calls. A plan says nothing of when its calls come, so any
order in which every actor keeps to its plan is a run. -/
namespace ProviderRoles

namespace Plan

variable {α : Type}

/-- `calls` are the first calls of a plan that got these replies. -/
inductive Follows : Plan α → List Completed → Prop where
  | start (p : Plan α) : Follows p []
  | note {n : Note} {next : Plan α} {calls : List Completed} :
      Follows next calls → Follows (.note n next) calls
  | call {c : Call} {next : Except StoreError c.Reply → Plan α} {calls : List Completed}
      (reply : Except StoreError c.Reply) :
      Follows (next reply) calls → Follows (.call c next) (⟨c, reply⟩ :: calls)

end Plan

namespace Store

variable {ι : Type}

/-- The store's own view of a run, without the actors. -/
def turnsOf (moves : List (ι × Turn)) : List Turn := moves.map Prod.snd

variable [DecidableEq ι]

/-- The calls that actor `i` has completed in a run. -/
def completed (i : ι) (s : Store) : List (ι × Turn) → List Completed
  | [] => []
  | (j, t) :: moves =>
    let rest := completed i (s.perform t.birth t.call).2 moves
    if j = i then ⟨t.call, (s.perform t.birth t.call).1⟩ :: rest else rest

theorem completed_append (i : ι) (s : Store) (xs ys : List (ι × Turn)) :
    s.completed i (xs ++ ys) = s.completed i xs ++ (s.after (turnsOf xs)).completed i ys := by
  induction xs generalizing s with
  | nil => rfl
  | cons x xs ih =>
    simp only [List.cons_append, completed, ih, turnsOf, List.map_cons, after]
    split <;> rfl

theorem move_of_completed {i : ι} {s : Store} {moves : List (ι × Turn)} {x : Completed}
    (h : x ∈ s.completed i moves) : ∃ earlier t later, moves = earlier ++ (i, t) :: later ∧
      x = ⟨t.call, ((s.after (turnsOf earlier)).perform t.birth t.call).1⟩ := by
  induction moves generalizing s with
  | nil => simp [completed] at h
  | cons move moves ih =>
    obtain ⟨j, t⟩ := move
    have later : x ∈ (s.perform t.birth t.call).2.completed i moves →
        ∃ earlier u later, (j, t) :: moves = earlier ++ (i, u) :: later ∧
          x = ⟨u.call, ((s.after (turnsOf earlier)).perform u.birth u.call).1⟩ := by
      intro h
      obtain ⟨earlier, u, rest, rfl, eq⟩ := ih h
      exact ⟨(j, t) :: earlier, u, rest, rfl, eq⟩
    simp only [completed] at h
    split at h
    · rename_i same
      rcases List.mem_cons.1 h with rfl | h
      · exact ⟨[], t, moves, by rw [same]; rfl, rfl⟩
      · exact later h
    · exact later h

end Store

end ProviderRoles
