import Mathlib.Data.Fintype.Basic
import ProviderRoles.Proofs.Plan.Path

/-! Runs of several actors from their beginning to their end. Nobody has to wait for anybody: each
actor can go on alone, and its plan comes to an end whatever the replies are. -/
namespace ProviderRoles

open Store

variable {ι α : Type} [DecidableEq ι] {plans : ι → Plan α} {s : Store} {moves : List (ι × Turn)}

/-- Every actor has kept to its plan so far. -/
def UnderWay (plans : ι → Plan α) (s : Store) (moves : List (ι × Turn)) : Prop :=
  ∀ i, (plans i).Follows (s.completed i moves)

/-- Every actor has come to the end of its plan. -/
def Finished (plans : ι → Plan α) (s : Store) (moves : List (ι × Turn)) (results : ι → α) : Prop :=
  ∀ i, (plans i).Ends (s.completed i moves) (results i)

/-- Moves of one actor. -/
def solo (i : ι) (turns : List Turn) : List (ι × Turn) := turns.map (Prod.mk i)

theorem completed_solo_of_ne {i j : ι} (other : j ≠ i) (s : Store) (turns : List Turn) :
    s.completed i (solo j turns) = [] := by
  induction turns generalizing s with
  | nil => rfl
  | cons t turns ih => exact (if_neg other).trans (ih _)

theorem call_of_move {j : ι} {t : Turn} (mem : (j, t) ∈ moves) :
    ∃ x ∈ s.completed j moves, x.call = t.call := by
  induction moves generalizing s with
  | nil => contradiction
  | cons move moves ih =>
    obtain ⟨i, u⟩ := move
    rcases List.mem_cons.1 mem with here | later
    · cases here
      rw [completed, if_pos rfl]
      exact ⟨_, List.mem_cons_self, rfl⟩
    · obtain ⟨x, isIn, same⟩ := ih (s := (s.perform u.birth u.call).2) later
      rw [completed]
      split
      · exact ⟨x, List.mem_cons_of_mem _ isIn, same⟩
      · exact ⟨x, isIn, same⟩

theorem exists_ends_solo (p : Plan α) (i : ι) (s : Store) :
    ∃ turns a, p.Ends (s.completed i (solo i turns)) a := by
  induction p generalizing s with
  | done a => exact ⟨[], a, .done a⟩
  | note n next ih =>
    obtain ⟨turns, a, ends⟩ := ih s
    exact ⟨turns, a, .note ends⟩
  | call c next ih =>
    let birth : Birth := ⟨⟨""⟩, .epoch⟩
    obtain ⟨turns, a, ends⟩ := ih (s.perform birth c).1 (s.perform birth c).2
    refine ⟨⟨birth, c⟩ :: turns, a, ?_⟩
    show (Plan.call c next).Ends (s.completed i ((i, ⟨birth, c⟩) :: solo i turns)) a
    rw [completed, if_pos rfl]
    exact .call _ ends

/-- An actor that has kept to its plan can go on to its end. -/
theorem Plan.Follows.goesOn {p : Plan α} {calls : List Completed} (h : p.Follows calls) (i : ι)
    (s : Store) : ∃ turns a, p.Ends (calls ++ s.completed i (solo i turns)) a := by
  induction h with
  | start p => exact exists_ends_solo p i s
  | note _ ih =>
    obtain ⟨turns, a, ends⟩ := ih
    exact ⟨turns, a, .note ends⟩
  | call reply _ ih =>
    obtain ⟨turns, a, ends⟩ := ih
    exact ⟨turns, a, .call reply ends⟩

/-- Some of the actors can go on, one after the other, while the rest waits. -/
theorem UnderWay.goesOn_some (h : UnderWay plans s moves) (actors : Finset ι) :
    ∃ more, (∀ i ∈ actors, ∃ a, (plans i).Ends (s.completed i (moves ++ more)) a) ∧
      ∀ i ∉ actors, s.completed i (moves ++ more) = s.completed i moves := by
  induction actors using Finset.induction_on with
  | empty =>
    refine ⟨[], fun i none => absurd none (Finset.notMem_empty i), fun i _ => ?_⟩
    rw [List.append_nil]
  | insert j actors new ih =>
    obtain ⟨more, ended, waiting⟩ := ih
    have follows : (plans j).Follows (s.completed j (moves ++ more)) := by
      rw [waiting j new]
      exact h j
    obtain ⟨turns, a, ends⟩ := follows.goesOn j (s.after (turnsOf (moves ++ more)))
    -- The others do not see that `j` has gone on.
    have others : ∀ i, j ≠ i →
        s.completed i (moves ++ (more ++ solo j turns)) = s.completed i (moves ++ more) := by
      intro i other
      rw [← List.append_assoc, completed_append, completed_solo_of_ne other, List.append_nil]
    refine ⟨more ++ solo j turns, fun i mem => ?_, fun i notMem => ?_⟩
    · by_cases same : j = i
      · subst same
        rw [← List.append_assoc, completed_append]
        exact ⟨a, ends⟩
      · rw [others i same]
        exact ended i ((Finset.mem_insert.1 mem).resolve_left (Ne.symm same))
    · rw [Finset.mem_insert, not_or] at notMem
      rw [others i (Ne.symm notMem.1)]
      exact waiting i notMem.2

/-- Finitely many actors can all be brought to an end. -/
theorem UnderWay.goesOn [Fintype ι] (h : UnderWay plans s moves) :
    ∃ more results, Finished plans s (moves ++ more) results := by
  obtain ⟨more, ended, _⟩ := h.goesOn_some Finset.univ
  choose results ends using fun i => ended i (Finset.mem_univ i)
  exact ⟨more, results, ends⟩

end ProviderRoles
