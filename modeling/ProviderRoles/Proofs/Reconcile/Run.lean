import ProviderRoles.Proofs.Reconcile.Roles
import ProviderRoles.Proofs.Store.Client

/-! Reconciling a revision at a store that nobody else writes. An undisturbed reconcile settles all
its roles, and whatever faults a reconcile meets, it settles some of them or none. Neither touches
what the next reconcile reads first: the revision and the definitions. -/
namespace ProviderRoles

open Apply Store

/-- The stored definitions that decode. -/
def Store.definitions (s : Store) : List ResourceDefinition :=
  (s.list (Resource.kind ResourceDefinition) .all).filterMap fun m =>
    (m.toResource ResourceDefinition).toOption

/-- A store as a reconcile can work on it: the revision decodes and is there to stay, and the
definitions decode. -/
structure Ready (s : Store) (key : ObjectKey) (revision : Revision) : Prop where
  stored : ∃ m, s.get (Resource.kind Revision) key = .ok m ∧ m.toResource Revision = .ok revision
  live : revision.metadata.isBeingDeleted = false
  readable : ∀ k m, s.objects.get? k = some m → m.kind = Resource.kind ResourceDefinition →
    ∃ d, m.toResource ResourceDefinition = .ok d

theorem mem_definitions {s : Store} {d : ResourceDefinition} :
    d ∈ s.definitions ↔ ∃ k m, s.objects.get? k = some m ∧
      m.kind = Resource.kind ResourceDefinition ∧ m.toResource ResourceDefinition = .ok d := by
  have decodes : ∀ m : Manifest, (m.toResource ResourceDefinition).toOption = some d ↔
      m.toResource ResourceDefinition = .ok d := by
    intro m
    cases m.toResource ResourceDefinition <;> simp [Except.toOption]
  have everything : ∀ m : ObjectMeta, Selector.all.selects m = true := fun _ => rfl
  simp only [Store.definitions, List.mem_filterMap, mem_list, decodes, everything, and_true]
  constructor
  · rintro ⟨m, ⟨⟨k, there⟩, kind⟩, decoded⟩
    exact ⟨k, m, there, kind, decoded⟩
  · rintro ⟨k, m, there, kind, decoded⟩
    exact ⟨m, ⟨⟨k, there⟩, kind⟩, decoded⟩

/-- Whether all definitions decode can be looked up entry by entry. -/
theorem readable_of_entries {s : Store} (all : ∀ e ∈ s.objects.toList,
    e.2.kind = Resource.kind ResourceDefinition →
      (e.2.toResource ResourceDefinition).toOption.isSome = true) :
    ∀ k m, s.objects.get? k = some m → m.kind = Resource.kind ResourceDefinition →
      ∃ d, m.toResource ResourceDefinition = .ok d := by
  intro k m there kind
  have decodes := all (k, m) (SortedMap.mem_toList_iff.2 there) kind
  cases decoded : m.toResource ResourceDefinition with
  | ok d => exact ⟨d, rfl⟩
  | error e =>
    rw [decoded] at decodes
    contradiction

/-! Reads through a client. They leave the store alone, and what they come back with was there. -/

section

variable {α : Type} [Resource α] {key : ObjectKey} {selector : Selector} {s : Store} {n : Nat}
  {meet : Nat → Circumstance}

theorem exec_get_state :
    ((Client.get α key).exec (serve meet) (s, n)).2 = (s, n + 1) := by
  rw [Plan.exec_get]
  rcases serve_get meet (Resource.kind α) key s n with read | ⟨e, failed⟩
  · rw [read]
  · rw [failed]

theorem exec_list_state :
    ((Client.list α selector).exec (serve meet) (s, n)).2 = (s, n + 1) := by
  rw [Plan.exec_list]
  rcases serve_list meet (Resource.kind α) selector s n with listed | ⟨e, failed⟩
  · rw [listed]
  · rw [failed]

theorem stored_of_exec_get {a : α}
    (found : ((Client.get α key).exec (serve meet) (s, n)).1 = .ok a) :
    ∃ m, s.get (Resource.kind α) key = .ok m ∧ m.toResource α = .ok a := by
  rw [Plan.exec_get] at found
  rcases serve_get meet (Resource.kind α) key s n with read | ⟨e, failed⟩
  · rw [read] at found
    cases there : s.get (Resource.kind α) key with
    | error e => rw [there] at found; contradiction
    | ok m =>
      rw [there] at found
      exact ⟨m, rfl, eq_ok_of_typed found⟩
  · rw [failed] at found
    contradiction

theorem mapM_of_exec_list {as : List α}
    (listed : ((Client.list α selector).exec (serve meet) (s, n)).1 = .ok as) :
    (s.list (Resource.kind α) selector).mapM (Client.typed α) = .ok as := by
  rw [Plan.exec_list] at listed
  rcases serve_list meet (Resource.kind α) selector s n with read | ⟨e, failed⟩
  · rw [read] at listed
    exact listed
  · rw [failed] at listed
    contradiction

end

namespace Reconciler

variable {r : Reconciler} {key : ObjectKey} {revision : Revision} {s : Store}

/-- The objects that the default renderer wants, given what is stored. -/
def target (s : Store) (revision : Revision) : List Manifest :=
  wanted revision (Render.roles revision (controlledBy s.definitions revision.metadata.uid))

theorem mapM_definitions (ready : Ready s key revision) :
    (s.list (Resource.kind ResourceDefinition) .all).mapM (Client.typed ResourceDefinition) =
      .ok s.definitions := by
  refine mapM_typed fun m mem => ?_
  obtain ⟨⟨k, there⟩, kind, _⟩ := mem_list.1 mem
  exact ready.readable k m there kind

theorem exec_converge_calm (default : r.render = Render.roles) (births : Nat → Birth)
    (n : Nat) :
    ∃ s' n', (r.converge revision s.definitions).exec (serve (calm births)) (s, n) =
        (.ok .done, s', n') ∧
      SettledInTurn births revision.metadata.uid (target s revision) s s' := by
  obtain ⟨tally, s', n', run, settled⟩ := @exec_applyRoles_calm revision _ s births
    (fun _ => Render.blank_of_mem_roles) {} n
  refine ⟨s', n', ?_, settled⟩
  rw [converge, default]
  simp only [Plan.exec_bind', Plan.exec_note, Plan.exec_pure, run, Plan.exec_log]

/-- Without faults everything is settled, role by role. -/
theorem exec_plan_inTurn (default : r.render = Render.roles) (ready : Ready s key revision)
    (births : Nat → Birth) (n : Nat) :
    ∃ s' n', (r.plan key).exec (serve (calm births)) (s, n) = (.ok .done, s', n') ∧
      SettledInTurn births revision.metadata.uid (target s revision) s s' := by
  obtain ⟨m, there, decoded⟩ := ready.stored
  obtain ⟨s', n', run, settled⟩ := exec_converge_calm default births (n + 2)
  refine ⟨s', n', ?_, settled⟩
  have found := typed_eq_ok decoded
  simp only [plan, withDefinitions, Plan.exec_bind', Plan.exec_get, Plan.exec_list, serve_calm,
    perform, there, Except.bind, found, ready.live, Bool.false_eq_true, ↓reduceIte,
    mapM_definitions ready]
  exact run

theorem exec_plan_calm (default : r.render = Render.roles) (ready : Ready s key revision)
    (births : Nat → Birth) (n : Nat) :
    ∃ s' n', (r.plan key).exec (serve (calm births)) (s, n) = (.ok .done, s', n') ∧
      Settlement revision.metadata.uid (target s revision) s s' := by
  obtain ⟨s', n', run, settled⟩ := exec_plan_inTurn default ready births n
  exact ⟨s', n', run, settled.settlement (Render.apart_roles ..)⟩

section

variable {σ : Type} {serve : (c : Call) → σ → Except StoreError c.Reply × σ} {w : σ}
  {e : StoreError}

theorem exec_plan_unread (unread : ((Client.get Revision key).exec serve w).1 = .error e) :
    ((r.plan key).exec serve w).2 = ((Client.get Revision key).exec serve w).2 := by
  rw [plan, Plan.exec_bind', unread]
  simp only
  split
  · rfl
  · split <;> rfl

theorem exec_withDefinitions_unread
    (unread : ((Client.list ResourceDefinition .all).exec serve w).1 = .error e) :
    ((r.withDefinitions revision).exec serve w).2 =
      ((Client.list ResourceDefinition .all).exec serve w).2 := by
  rw [withDefinitions, Plan.exec_bind', unread]
  simp only
  split <;> rfl

end

/-- Without a revision that is there to stay, or without the definitions, nothing is written. -/
theorem exec_plan_unready (unready : ∀ revision, ¬ Ready s key revision)
    (meet : Nat → Circumstance) (n : Nat) : ((r.plan key).exec (serve meet) (s, n)).2.1 = s := by
  cases found : ((Client.get Revision key).exec (serve meet) (s, n)).1 with
  | error e => rw [exec_plan_unread found, exec_get_state]
  | ok revision =>
    rw [plan, Plan.exec_bind', found, exec_get_state]
    cases live : revision.metadata.isBeingDeleted with
    | true =>
      simp only [live, ↓reduceIte]
      rfl
    | false =>
      simp only [live, Bool.false_eq_true, ↓reduceIte]
      cases listed : ((Client.list ResourceDefinition .all).exec (serve meet) (s, n + 1)).1 with
      | error e => rw [exec_withDefinitions_unread listed, exec_list_state]
      | ok definitions =>
        have readable := readable_of_mapM_typed (mapM_of_exec_list listed)
        refine absurd ⟨stored_of_exec_get found, live, fun k m there kind => ?_⟩ (unready revision)
        exact readable m (mem_list.2 ⟨⟨k, there⟩, kind, rfl⟩)

/-! What a reconcile leaves is what its loop over the roles leaves, if it gets to that. -/

theorem exec_converge_state {σ : Type} {serve : (c : Call) → σ → Except StoreError c.Reply × σ}
    {w : σ} (definitions : List ResourceDefinition) :
    ((r.converge revision definitions).exec serve w).2 =
      ((applyRoles revision
        (r.render revision (controlledBy definitions revision.metadata.uid)) {}).exec serve w).2 := by
  rw [converge]
  simp only [Plan.exec_bind', Plan.exec_note, Plan.exec_pure]
  split
  · rfl
  · rfl
  · rfl

section

variable (ready : Ready s key revision) (meet : Nat → Circumstance) (n : Nat)
include ready

theorem exec_withDefinitions_state :
    ((r.withDefinitions revision).exec (serve meet) (s, n)).2.1 = s ∨
    ((r.withDefinitions revision).exec (serve meet) (s, n)).2 =
      ((applyRoles revision (r.render revision (controlledBy s.definitions revision.metadata.uid))
        {}).exec (serve meet) (s, n + 1)).2 := by
  cases listed : ((Client.list ResourceDefinition .all).exec (serve meet) (s, n)).1 with
  | error e =>
    rw [exec_withDefinitions_unread listed, exec_list_state]
    exact .inl rfl
  | ok definitions =>
    have same : definitions = s.definitions :=
      Except.ok.inj ((mapM_of_exec_list listed).symm.trans (mapM_definitions ready))
    rw [withDefinitions, Plan.exec_bind', listed, exec_list_state, same]
    exact .inr (exec_converge_state _)

theorem exec_plan_state :
    ((r.plan key).exec (serve meet) (s, n)).2.1 = s ∨
    ((r.plan key).exec (serve meet) (s, n)).2 =
      ((applyRoles revision (r.render revision (controlledBy s.definitions revision.metadata.uid))
        {}).exec (serve meet) (s, n + 2)).2 := by
  cases found : ((Client.get Revision key).exec (serve meet) (s, n)).1 with
  | error e =>
    rw [exec_plan_unread found, exec_get_state]
    exact .inl rfl
  | ok revision' =>
    obtain ⟨m, there, decoded⟩ := ready.stored
    obtain ⟨m', there', decoded'⟩ := stored_of_exec_get found
    cases there.symm.trans there'
    cases decoded.symm.trans decoded'
    rw [plan, Plan.exec_bind', found, exec_get_state]
    simp only [ready.live, Bool.false_eq_true, ↓reduceIte]
    exact exec_withDefinitions_state ready meet (n + 1)

/-- Whatever faults it meets, a reconcile does nothing but settle some of what it wants. -/
theorem exec_plan_faulty (default : r.render = Render.roles) :
    Progress revision.metadata.uid (target s revision) s
      ((r.plan key).exec (serve meet) (s, n)).2.1 := by
  rcases exec_plan_state (r := r) ready meet n with idle | worked
  · rw [idle]
    exact .refl
  · rw [worked, default]
    exact exec_applyRoles_faulty meet (fun _ => Render.blank_of_mem_roles)
      (Render.apart_roles revision (controlledBy s.definitions revision.metadata.uid)) {} (n + 2)

end

/-! What stays: everything of a kind that is not that of the roles. -/

section

variable {s' : Store} {roles : List ClusterRole} {owner : Uid}
  (progress : Progress owner (wanted revision roles) s s')
include progress

theorem sameButRoles_of_progress : SameButRoles s s' := by
  intro k elsewhere
  rcases progress k with same | ⟨o, mem, here, _⟩
  · exact same
  · obtain ⟨role, _, rfl⟩ := List.mem_map.1 mem
    exact absurd here (elsewhere role)

theorem list_kept (addressed : s.Addressed) :
    s'.list (Resource.kind ResourceDefinition) .all =
      s.list (Resource.kind ResourceDefinition) .all :=
  (sameButRoles_of_progress progress).list_definitions addressed (progress.addressed addressed)

theorem definitions_kept (addressed : s.Addressed) : s'.definitions = s.definitions := by
  rw [Store.definitions, list_kept progress addressed, Store.definitions]

/-- A revision stays ready, whether the roles are its own or not. -/
theorem ready_kept (addressed : s.Addressed) {revision' : Revision}
    (ready : Ready s key revision') : Ready s' key revision' := by
  constructor
  · rw [(sameButRoles_of_progress progress).get_revision]
    exact ready.stored
  · exact ready.live
  · intro k m there kind
    have listed : m ∈ s'.list (Resource.kind ResourceDefinition) .all :=
      mem_list.2 ⟨⟨k, there⟩, kind, rfl⟩
    rw [list_kept progress addressed] at listed
    obtain ⟨⟨k', before⟩, _⟩ := mem_list.1 listed
    exact ready.readable k' m before kind

end

end Reconciler

end ProviderRoles
