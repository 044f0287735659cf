import ProviderRoles.Proofs.Plan.Path

/-! A run call by call. The moments of a plan are those at which its calls complete when nobody
gives it up. A run with a time limit gets through the moments within the limit and no further. -/
namespace ProviderRoles

/-- The completion of a call, and the state after it. -/
structure Moment (σ : Type) where
  time : Nat
  completed : Completed
  state : σ

/-- The state after some moments that start from `s`. -/
def latest {σ : Type} (s : σ) : List (Moment σ) → σ
  | [] => s
  | m :: ms => latest m.state ms

namespace Plan

variable {α σ τ : Type}

def moments (serve : Server σ) : Plan α → Nat → σ → List (Moment σ)
  | .done _, _, _ => []
  | .note _ next, elapsed, s => next.moments serve elapsed s
  | .call c next, elapsed, s =>
    let pending := serve c s
    let later := elapsed + pending.delay
    ⟨later, ⟨c, pending.finish.1⟩, pending.finish.2⟩ ::
      (next pending.finish.1).moments serve later pending.finish.2

variable (serve : Server σ) (p : Plan α) (elapsed : Nat) (s : σ)

theorem result_run_unlimited : ∃ a, (p.run serve none elapsed s).result = some a := by
  induction p generalizing elapsed s with
  | done a => exact ⟨a, rfl⟩
  | note n next ih => exact ih elapsed s
  | call c next ih => exact ih _ _ _

theorem calls_run_unlimited :
    (p.run serve none elapsed s).calls = (p.moments serve elapsed s).map Moment.completed := by
  induction p generalizing elapsed s with
  | done a => rfl
  | note n next ih => exact ih elapsed s
  | call c next ih => exact congrArg (_ :: ·) (ih _ _ _)

theorem state_run_unlimited :
    (p.run serve none elapsed s).state = latest s (p.moments serve elapsed s) := by
  induction p generalizing elapsed s with
  | done a => rfl
  | note n next ih => exact ih elapsed s
  | call c next ih => exact ih _ _ _

theorem le_elapsed_run_unlimited : elapsed ≤ (p.run serve none elapsed s).elapsed := by
  induction p generalizing elapsed s with
  | done a => exact Nat.le_refl _
  | note n next ih => exact ih elapsed s
  | call c next ih => exact Nat.le_trans (Nat.le_add_right _ _) (ih _ _ _)

variable {p elapsed s} {limit : Nat}

theorem le_time_of_mem_moments {m : Moment σ} (mem : m ∈ p.moments serve elapsed s) :
    elapsed ≤ m.time := by
  induction p generalizing elapsed s with
  | done a => contradiction
  | note n next ih => exact ih mem
  | call c next ih =>
    rcases List.mem_cons.1 mem with rfl | mem
    · exact Nat.le_add_right _ _
    · exact Nat.le_trans (Nat.le_add_right _ _) (ih _ mem)

theorem filter_moments_eq_nil (late : limit < elapsed) :
    (p.moments serve elapsed s).filter (·.time ≤ limit) = [] := by
  rw [List.filter_eq_nil_iff]
  intro m mem within
  have soon : m.time ≤ limit := of_decide_eq_true within
  have later := le_time_of_mem_moments serve mem
  omega

theorem filter_moments_call (c : Call) (next : Except StoreError c.Reply → Plan α) :
    ((call c next).moments serve elapsed s).filter (·.time ≤ limit) =
      let pending := serve c s
      let later := elapsed + pending.delay
      if limit < later then []
      else ⟨later, ⟨c, pending.finish.1⟩, pending.finish.2⟩ ::
        ((next pending.finish.1).moments serve later pending.finish.2).filter
          (·.time ≤ limit) := by
  by_cases late : limit < elapsed + (serve c s).delay
  · -- What comes after this call is too late as well.
    rw [moments, List.filter_cons_of_neg (by simpa using late), filter_moments_eq_nil serve late]
    exact (if_pos late).symm
  · rw [moments, List.filter_cons_of_pos (by simpa using late)]
    exact (if_neg late).symm

/-- A limit that the run does not come up to makes no difference. -/
theorem run_within (within : (p.run serve none elapsed s).elapsed ≤ limit) :
    p.run serve (some limit) elapsed s = p.run serve none elapsed s := by
  induction p generalizing elapsed s with
  | done a => rfl
  | note n next ih =>
    rw [run, ih within]
    rfl
  | call c next ih =>
    have soon : ¬ limit < elapsed + (serve c s).delay :=
      Nat.not_lt.2 (Nat.le_trans (le_elapsed_run_unlimited serve _ _ _) within)
    simp only [run, Option.any_some, decide_eq_true_eq, if_neg soon, Option.any_none,
      Bool.false_eq_true, ↓reduceIte]
    rw [ih _ within]

/-- A run that is given up waits for one more call at least. -/
theorem run_beyond (soon : elapsed ≤ limit)
    (beyond : limit < (p.run serve none elapsed s).elapsed) :
    (p.run serve (some limit) elapsed s).result = none ∧
    ∃ x later, (p.run serve none elapsed s).calls =
      (p.run serve (some limit) elapsed s).calls ++ x :: later := by
  induction p generalizing elapsed s with
  | done a => exact absurd soon (Nat.not_le.2 beyond)
  | note n next ih => exact ih soon beyond
  | call c next ih =>
    simp only [run, Option.any_some, decide_eq_true_eq, Option.any_none,
      Bool.false_eq_true, ↓reduceIte]
    -- The limit falls into this call, or into one of those after it.
    split
    · exact ⟨rfl, _, _, rfl⟩
    · rename_i inTime
      obtain ⟨givenUp, x, later, split⟩ := ih _ (Nat.not_lt.1 inTime) beyond
      exact ⟨givenUp, x, later, congrArg (_ :: ·) split⟩

theorem filter_moments_prefix (limit : Nat) (serve : Server σ) (p : Plan α) (elapsed : Nat)
    (s : σ) :
    (p.moments serve elapsed s).filter (·.time ≤ limit) <+: p.moments serve elapsed s := by
  induction p generalizing elapsed s with
  | done a => exact List.prefix_rfl
  | note n next ih => exact ih elapsed s
  | call c next ih =>
    rw [filter_moments_call, moments]
    simp only
    split
    · exact List.nil_prefix
    · exact (List.prefix_cons_inj _).2 (ih _ _ _)

/-- Calls that have no effect leave what was stored before them. -/
theorem stored_latest_of_quiet {quiet : Call → Prop} {stored : σ → τ}
    (idle : ∀ c w, quiet c → stored (serve c w).finish.2 = stored w)
    {first between later : List (Moment σ)}
    (split : p.moments serve elapsed s = first ++ (between ++ later))
    (all : ∀ m ∈ between, quiet m.completed.call) :
    stored (latest s (first ++ between)) = stored (latest s first) := by
  -- Along the plan: the calls of `first` set the state, and those of `between` leave it.
  induction p generalizing elapsed s first between with
  | done a =>
    obtain ⟨rfl, rest⟩ := List.append_eq_nil_iff.1 split.symm
    obtain ⟨rfl, _⟩ := List.append_eq_nil_iff.1 rest
    rfl
  | note n next ih => exact ih split all
  | call c next ih =>
    cases first with
    | cons m first =>
      obtain ⟨rfl, rest⟩ := List.cons.inj split
      simp only [List.cons_append, latest]
      exact ih _ rest all
    | nil =>
      cases between with
      | nil => rfl
      | cons m between =>
        obtain ⟨rfl, rest⟩ := List.cons.inj split
        obtain ⟨head, others⟩ := List.forall_mem_cons.1 all
        have kept := ih _ (show _ = [] ++ (between ++ later) from rest) others
        exact kept.trans (idle c s head)

theorem calls_run_limited (p : Plan α) (elapsed : Nat) (s : σ) :
    (p.run serve (some limit) elapsed s).calls =
      ((p.moments serve elapsed s).filter (·.time ≤ limit)).map Moment.completed := by
  induction p generalizing elapsed s with
  | done a => rfl
  | note n next ih => exact ih elapsed s
  | call c next ih =>
    simp only [run, filter_moments_call, Option.any_some, decide_eq_true_eq]
    split
    · rfl
    · exact congrArg (_ :: ·) (ih _ _ _)

/-- If calls under way change nothing of what is stored, a run with a time limit leaves what the
calls within the limit have left. -/
theorem stored_run_limited {stored : σ → τ}
    (atCompletion : ∀ c w, stored (serve c w).begun = stored w) (p : Plan α) (elapsed : Nat)
    (s : σ) : stored (p.run serve (some limit) elapsed s).state =
      stored (latest s ((p.moments serve elapsed s).filter (·.time ≤ limit))) := by
  induction p generalizing elapsed s with
  | done a => rfl
  | note n next ih => exact ih elapsed s
  | call c next ih =>
    simp only [run, filter_moments_call, Option.any_some, decide_eq_true_eq]
    split
    · exact atCompletion c s
    · exact ih _ _ _

end Plan

end ProviderRoles
