import ProviderRoles.Proofs.Kind.Revision
import ProviderRoles.Proofs.Plan.Completion
import ProviderRoles.Proofs.Reconcile.Agenda
import ProviderRoles.Proofs.Reconcile.Convergence

/-! Reconciles of different revisions at one store. None of them writes what another one reads, so
however their calls come between each other, each of them goes as it would go alone. -/
namespace ProviderRoles

open Apply Store

namespace Reconciler

section

variable {s s' s'' : Store} {calls calls' : List Completed} {ending ending' : Ending}
  {plan : Agenda} {others others' : Call → Prop}

/-- Two reconciles with one agenda, each with others that keep away from its roles. -/
theorem Execution.agree (h : Execution others s s' plan calls ending)
    (h' : Execution others' s s'' plan calls' ending')
    (apart : plan.roles.Pairwise fun a b => a.address ≠ b.address)
    (spared : ∀ role ∈ plan.roles, Spares others role.address)
    (spared' : ∀ role ∈ plan.roles, Spares others' role.address) :
    ending' = ending ∧ ∀ role ∈ plan.roles,
      Agree (s.objects.get? role.address) (s'.objects.get? role.address)
        (s''.objects.get? role.address) := by
  cases h with
  | idle _ _ =>
    cases h' with
    | idle _ _ => exact ⟨rfl, fun role mem => by contradiction⟩
  | working _ visits amid =>
    cases h' with
    | working _ visits' amid' =>
      have worked := visits.worked apart spared (fun _ _ => rfl) amid
      have worked' := visits'.worked apart spared' (fun _ _ => rfl) amid'
      obtain ⟨same, agree⟩ := worked.agree worked'
      exact ⟨by rw [same], agree⟩

end

variable {ι : Type} {r : ι → Reconciler} {keys : ι → ObjectKey} {s : Store}

/-- Every reconciler works on a revision of its own. -/
def plans (r : ι → Reconciler) (keys : ι → ObjectKey) (i : ι) :
    Plan (Except ReconcileError Outcome) :=
  (r i).plan (keys i)

/-- Neither one reconcile nor two of them have roles at the same address. -/
structure Separate (r : ι → Reconciler) (keys : ι → ObjectKey) (s : Store) : Prop where
  own : ∀ i, (agenda (r i).render (keys i) s).roles.Pairwise fun a b => a.address ≠ b.address
  others : ∀ i j, i ≠ j → ∀ role ∈ (agenda (r i).render (keys i) s).roles,
    ∀ role' ∈ (agenda (r j).render (keys j) s).roles, role.address ≠ role'.address

theorem separate_of_names (default : ∀ i, (r i).render = Render.roles)
    (names : ∀ i j, i ≠ j → ∀ m m', s.get (Resource.kind Revision) (keys i) = .ok m →
      s.get (Resource.kind Revision) (keys j) = .ok m' → m.metadata.name ≠ m'.metadata.name) :
    Separate r keys s := by
  constructor
  · intro i
    rcases roles_agenda (r i).render (keys i) s with none | ⟨m, revision, _, _, rendered⟩
    · rw [none]
      exact .nil
    · rw [rendered, default i]
      exact Render.pairwise_roles revision _
  · intro i j other role mem role' mem' same
    rcases roles_agenda (r i).render (keys i) s with
      none | ⟨m, revision, there, decoded, rendered⟩
    · rw [none] at mem
      contradiction
    rcases roles_agenda (r j).render (keys j) s with
      none | ⟨m', revision', there', decoded', rendered'⟩
    · rw [none] at mem'
      contradiction
    rw [rendered, default i] at mem
    rw [rendered', default j] at mem'
    have one := Render.name_eq_of_address_eq mem mem' same
    rw [name_of_toResource decoded, name_of_toResource decoded'] at one
    exact names i j other m m' there there' one

variable [DecidableEq ι] {moves moves' : List (ι × Turn)}
  {results results' : ι → Except ReconcileError Outcome}

def callsOfOthers (i : ι) (moves : List (ι × Turn)) (c : Call) : Prop :=
  ∃ move ∈ moves, move.1 ≠ i ∧ move.2.call = c

theorem atRoles_of_finished (finished : Finished (plans r keys) s moves results) :
    ∀ move ∈ moves, AtRoles move.2.call := by
  rintro ⟨i, t⟩ mem
  obtain ⟨x, isIn, same⟩ := call_of_move (s := s) mem
  obtain ⟨ending, course, _⟩ := course_of_ends (finished i)
  exact same ▸ course.atRoles isIn

theorem execution_of_finished (reachable : s.Reachable)
    (finished : Finished (plans r keys) s moves results) (i : ι) :
    ∃ ending, Execution (callsOfOthers i moves) s (s.after (turnsOf moves))
        (agenda (r i).render (keys i) s) (s.completed i moves) ending ∧
      results i = ending.result (r i).timing.shortWait := by
  obtain ⟨ending, course, reported⟩ := course_of_ends (finished i)
  have theirs : ∀ c, callsOfOthers i moves c → AtRoles c := by
    rintro c ⟨move, mem, _, rfl⟩
    exact atRoles_of_finished finished move mem
  have amid : Amid (callsOfOthers i moves) s (s.completed i moves) (s.after (turnsOf moves)) :=
    amid_completed fun move mem other => ⟨move, mem, other, rfl⟩
  exact ⟨ending, course.execution theirs reachable amid, reported⟩

theorem target_of_finished (reachable : s.Reachable)
    (finished : Finished (plans r keys) s moves results) {i : ι} {t : Turn}
    (mem : (i, t) ∈ moves) {k : String} (target : t.call.target? = some k) :
    ∃ role ∈ (agenda (r i).render (keys i) s).roles, k = role.address := by
  obtain ⟨x, isIn, same⟩ := call_of_move (s := s) mem
  obtain ⟨ending, execution, _⟩ := execution_of_finished reachable finished i
  exact execution.target isIn (same ▸ target)

theorem kept_of_finished (reachable : s.Reachable)
    (finished : Finished (plans r keys) s moves results) {k : String}
    (elsewhere : ∀ i, ∀ role ∈ (agenda (r i).render (keys i) s).roles, k ≠ role.address) :
    (s.after (turnsOf moves)).objects.get? k = s.objects.get? k := by
  have meanwhile : Meanwhile (fun c => c.target? ≠ some k) s (s.after (turnsOf moves)) := by
    refine ⟨turnsOf moves, fun t mem target => ?_, rfl⟩
    obtain ⟨⟨i, t⟩, isMove, rfl⟩ := List.mem_map.1 mem
    obtain ⟨role, onAgenda, here⟩ := target_of_finished reachable finished isMove target
    exact elsewhere i role onAgenda here
  exact meanwhile.get? fun c other => other

section

variable (separate : Separate r keys s) (reachable : s.Reachable)
  (finished : Finished (plans r keys) s moves results)
include separate reachable finished

theorem spares_of_finished (i : ι) : ∀ role ∈ (agenda (r i).render (keys i) s).roles,
    Spares (callsOfOthers i moves) role.address := by
  rintro role mem c ⟨⟨j, t⟩, isMove, other, rfl⟩ target
  obtain ⟨role', mem', here⟩ := target_of_finished reachable finished isMove target
  exact separate.others i j (Ne.symm other) role mem role' mem' here

theorem result_of_finished (i : ι) (births : Nat → Birth) :
    results i =
      ((r i).reconcile (Server.immediate (serve (calm births))) (keys i) (s, 0)).result := by
  obtain ⟨ending, execution, result⟩ := execution_of_finished reachable finished i
  obtain ⟨calls, ending', execution', result', _⟩ :=
    execution_reconcile (r i) reachable (keys i) births
  obtain ⟨same, _⟩ := execution.agree execution' (separate.own i)
    (spares_of_finished separate reachable finished i)
    (fun _ _ => spares_nobody)
  rw [result, result', same]

theorem agree_of_finished (finished' : Finished (plans r keys) s moves' results')
    (k : String) : Agree (s.objects.get? k) ((s.after (turnsOf moves)).objects.get? k)
      ((s.after (turnsOf moves')).objects.get? k) := by
  by_cases planned : ∃ i, ∃ role ∈ (agenda (r i).render (keys i) s).roles, k = role.address
  · obtain ⟨i, role, mem, rfl⟩ := planned
    obtain ⟨ending, execution, _⟩ := execution_of_finished reachable finished i
    obtain ⟨ending', execution', _⟩ := execution_of_finished reachable finished' i
    obtain ⟨_, agree⟩ := execution.agree execution' (separate.own i)
      (spares_of_finished separate reachable finished i)
      (spares_of_finished separate reachable finished' i)
    exact agree role mem
  · have elsewhere : ∀ i, ∀ role ∈ (agenda (r i).render (keys i) s).roles, k ≠ role.address :=
      fun i role mem here => planned ⟨i, role, mem, here⟩
    rw [kept_of_finished reachable finished elsewhere,
      kept_of_finished reachable finished' elsewhere]
    exact .refl

end

/-- Reconcilers with the default renderer work on revisions of different names, and nobody else
writes. However far they have come, all of them can go on to their ends. Whatever the order of
their calls has been, each of them then reports what it would have reported alone, and every entry
says the same as after any other order, but for its version and what the store gives to a new
object. -/
theorem reconciles_independent [Fintype ι] (default : ∀ i, (r i).render = Render.roles)
    (reachable : s.Reachable)
    (names : ∀ i j, i ≠ j → ∀ m m', s.get (Resource.kind Revision) (keys i) = .ok m →
      s.get (Resource.kind Revision) (keys j) = .ok m' → m.metadata.name ≠ m'.metadata.name) :
    (∀ moves, UnderWay (plans r keys) s moves →
      ∃ more results, Finished (plans r keys) s (moves ++ more) results) ∧
    (∀ moves results, Finished (plans r keys) s moves results → ∀ i births, results i =
      ((r i).reconcile (Server.immediate (serve (calm births))) (keys i) (s, 0)).result) ∧
    ∀ moves moves' results results', Finished (plans r keys) s moves results →
      Finished (plans r keys) s moves' results' → ∀ k, Agree (s.objects.get? k)
        ((s.after (turnsOf moves)).objects.get? k) ((s.after (turnsOf moves')).objects.get? k) := by
  have separate := separate_of_names default names
  refine ⟨fun moves underWay => underWay.goesOn, ?_, ?_⟩
  · intro moves results finished i births
    exact result_of_finished separate reachable finished i births
  · intro moves moves' results results' finished finished' k
    exact agree_of_finished separate reachable finished finished' k

end Reconciler

/-- One more provider comes to the store. -/
def installations : List Turn :=
  installation ++ [⟨⟨⟨"q"⟩, .epoch⟩,
    .create (.new "pkg.rolesync.io/v1alpha1" "ProviderRevision" (.named "q"))⟩]

/-- Both revisions have been read before any role is, by one reconciler or the other first. -/
theorem installations_independent :
    let s := new.after installations
    let r : Bool → Reconciler := fun _ => ⟨Render.roles, {}, by decide⟩
    let keys : Bool → ObjectKey := fun i => .cluster (if i then "p" else "q")
    let read : Bool → Bool × Turn := fun i =>
      (i, ⟨⟨⟨"new"⟩, .epoch⟩, .get (Resource.kind Revision) (keys i)⟩)
    ∃ more more' results results',
      Finished (Reconciler.plans r keys) s ([read true, read false] ++ more) results ∧
      Finished (Reconciler.plans r keys) s ([read false, read true] ++ more') results' ∧
      (∀ i, results i = .ok .done ∧ results' i = .ok .done) ∧
      ∀ k, Agree (s.objects.get? k)
        ((s.after (turnsOf ([read true, read false] ++ more))).objects.get? k)
        ((s.after (turnsOf ([read false, read true] ++ more'))).objects.get? k) := by
  intro s r keys read
  have reachable : s.Reachable := ⟨new, installations, .inl rfl, rfl⟩
  have named : ∀ i m, s.get (Resource.kind Revision) (keys i) = .ok m →
      m.metadata.name = (keys i).name := by
    intro i m there
    cases i with
    | false => cases there; rfl
    | true => cases there; rfl
  have names : ∀ i j, i ≠ j → ∀ m m', s.get (Resource.kind Revision) (keys i) = .ok m →
      s.get (Resource.kind Revision) (keys j) = .ok m' → m.metadata.name ≠ m'.metadata.name := by
    intro i j other m m' there there'
    have different : ∀ i j : Bool, i ≠ j → (keys i).name ≠ (keys j).name := by decide
    rw [named i m there, named j m' there']
    exact different i j other
  obtain ⟨goesOn, alone, agree⟩ :=
    Reconciler.reconciles_independent (r := r) (fun _ => rfl) reachable names
  have underWay : ∀ i, UnderWay (Reconciler.plans r keys) s [read i, read !i] := by
    intro i j
    cases i <;> cases j <;> exact .call _ (.start _)
  have done : ∀ i, ((r i).reconcile (Server.immediate (serve (calm fun _ => ⟨⟨"new"⟩, .epoch⟩)))
      (keys i) (s, 0)).result = .ok .done := by decide +kernel
  obtain ⟨more, results, finished⟩ := goesOn _ (underWay true)
  obtain ⟨more', results', finished'⟩ := goesOn _ (underWay false)
  refine ⟨more, more', results, results', finished, finished', fun i => ⟨?_, ?_⟩, ?_⟩
  · exact (alone _ _ finished i _).trans (done i)
  · exact (alone _ _ finished' i _).trans (done i)
  · exact agree _ _ _ _ finished finished'

end ProviderRoles
