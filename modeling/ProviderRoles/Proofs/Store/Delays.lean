import ProviderRoles.Proofs.Plan.Amid

/-! A store that takes its time. To give a plan up in the middle of a call leaves the store as if
that call, and all that would have followed it, had failed. -/
namespace ProviderRoles

namespace Store

variable {α : Type} {s : Store} {meet meet' : Nat → Circumstance}

/-- Serves the `n`-th call within `delays n` seconds. It has no effect until then. -/
def slow (delays : Nat → Nat) (meet : Nat → Circumstance) : Server (Store × Nat) :=
  fun c w => ⟨delays w.2, w, serve meet c w⟩

/-- What a call meets that does not come through. -/
def severed : Circumstance := ⟨⟨⟨""⟩, .epoch⟩, some ⟨.cancelled "", false⟩⟩

theorem serve_count (meet : Nat → Circumstance) (c : Call) (w : Store × Nat) :
    (serve meet c w).2.2 = w.2 + 1 := by
  rw [serve]
  split <;> rfl

theorem serve_congr {c : Call} {w : Store × Nat} (same : meet w.2 = meet' w.2) :
    serve meet c w = serve meet' c w := by
  rw [serve, serve, same]

/-- What the calls before have met does not matter. -/
theorem exec_congr (p : Plan α) {w : Store × Nat} (same : ∀ i, w.2 ≤ i → meet i = meet' i) :
    p.exec (serve meet) w = p.exec (serve meet') w := by
  induction p generalizing w with
  | done a => rfl
  | note n next ih => exact ih same
  | call c next ih =>
    rw [Plan.exec_call, Plan.exec_call, serve_congr (same w.2 (Nat.le_refl _))]
    refine ih _ fun i later => same i ?_
    rw [serve_count] at later
    omega

theorem exec_severed (p : Plan α) (w : Store × Nat) :
    (p.exec (serve fun _ => severed) w).2.1 = w.1 := by
  induction p generalizing w with
  | done a => rfl
  | note n next ih => exact ih w
  | call c next ih => exact ih _ _

theorem state_run_slow (delays : Nat → Nat) (meet : Nat → Circumstance) (limit : Option Nat)
    (p : Plan α) (elapsed : Nat) (w : Store × Nat) :
    ∃ meet', (p.run (slow delays meet) limit elapsed w).state.1 =
      (p.exec (serve meet') w).2.1 := by
  induction p generalizing elapsed w with
  | done a => exact ⟨meet, rfl⟩
  | note n next ih => exact ih elapsed w
  | call c next ih =>
    by_cases late : limit.any (· < elapsed + (slow delays meet c w).delay) = true
    · refine ⟨fun _ => severed, ?_⟩
      rw [exec_severed, Plan.run, if_pos late]
      rfl
    · obtain ⟨meet', rest⟩ := ih (serve meet c w).1 (elapsed + delays w.2) (serve meet c w).2
      -- The first call meets what it has met, and only the others what is right for them.
      let meets := fun i => if i = w.2 then meet i else meet' i
      have first : serve meets c w = serve meet c w := serve_congr (if_pos rfl)
      have others : ∀ i, (serve meet c w).2.2 ≤ i → meets i = meet' i := by
        intro i later
        rw [serve_count] at later
        exact if_neg (by omega)
      refine ⟨meets, ?_⟩
      rw [Plan.exec_call, first, exec_congr _ others, ← rest, Plan.run, if_neg late]
      rfl

theorem state_run_of_reads {delays : Nat → Nat} {limit : Option Nat} {p : Plan α} {elapsed : Nat}
    {w : Store × Nat}
    (reads : ∀ x ∈ (p.run (slow delays meet) limit elapsed w).calls, x.call.target? = none) :
    (p.run (slow delays meet) limit elapsed w).state.1 = w.1 := by
  induction p generalizing elapsed w with
  | done a => rfl
  | note n next ih => exact ih reads
  | call c next ih =>
    simp only [Plan.run] at reads ⊢
    split
    · rfl
    · rename_i inTime
      rw [if_neg inTime] at reads
      obtain ⟨first, others⟩ := List.forall_mem_cons.1 reads
      exact (ih _ others).trans (serve_of_read first w)

end Store

/-- Given up or not, a reconcile leaves what it leaves at a store with faults that answers at
once. -/
theorem Reconciler.state_reconcile_slow (r : Reconciler) (delays : Nat → Nat)
    (meet : Nat → Circumstance) (key : ObjectKey) (w : Store × Nat) :
    ∃ meet', (r.reconcile (Store.slow delays meet) key w).state.1 =
      ((r.plan key).exec (Store.serve meet') w).2.1 := by
  rw [state_reconcile]
  exact Store.state_run_slow ..

end ProviderRoles
