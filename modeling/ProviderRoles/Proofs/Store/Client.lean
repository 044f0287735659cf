import ProviderRoles.Proofs.Kind.Conversion
import ProviderRoles.Proofs.Store.Faults
import ProviderRoles.Proofs.Store.Listing

/-! Typed access to a store. A typed write converts, writes, and converts what the store answers, and
that last step comes after the effect. It cannot fail: what could not be converted back has not been
written. -/
namespace ProviderRoles

open Store

theorem typed_eq_ok {α : Type} [Resource α] {m : Manifest} {a : α}
    (decoded : m.toResource α = .ok a) : Client.typed α m = .ok a := by
  rw [Client.typed, decoded]
  rfl

theorem mapM_typed {α : Type} [Resource α] {ms : List Manifest}
    (readable : ∀ m ∈ ms, ∃ a, m.toResource α = .ok a) :
    ms.mapM (Client.typed α) = .ok (ms.filterMap fun m => (m.toResource α).toOption) := by
  induction ms with
  | nil => rfl
  | cons m ms ih =>
    obtain ⟨⟨a, decoded⟩, others⟩ := List.forall_mem_cons.1 readable
    rw [List.mapM_cons, typed_eq_ok decoded, ih others, List.filterMap_cons, decoded]
    rfl

theorem eq_ok_of_typed {α : Type} [Resource α] {m : Manifest} {a : α}
    (decoded : Client.typed α m = .ok a) : m.toResource α = .ok a :=
  eq_ok_of_mapError decoded

theorem readable_of_mapM_typed {α : Type} [Resource α] {ms : List Manifest} {as : List α}
    (decoded : ms.mapM (Client.typed α) = .ok as) : ∀ m ∈ ms, ∃ a, m.toResource α = .ok a := by
  induction ms generalizing as with
  | nil => simp
  | cons m ms ih =>
    rw [List.mapM_cons] at decoded
    obtain ⟨a, first, decoded⟩ := eq_ok_of_bind decoded
    obtain ⟨as', others, _⟩ := eq_ok_of_bind decoded
    exact List.forall_mem_cons.2 ⟨⟨a, eq_ok_of_typed first⟩, ih others⟩

/-! What a store puts into an object is a UID, a version and a date, and the date comes from its
clock. -/

/-- The date of creation, where there is one, has a text. -/
def DatedInText (m : Manifest) : Prop := ∀ t ∈ m.metadata.creationTimestamp, t.Printable

theorem hereditary_datedInText :
    Hereditary (fun birth => birth.time.Printable) DatedInText := by
  constructor
  · intro birth m printable _ t mem
    cases Option.some.inj mem
    exact printable
  · intro current m _ before
    exact before
  · intro m version h
    exact h

theorem datedInText_after {start : Store} (fresh : start.IsNew) {turns : List Turn}
    (clock : ∀ t ∈ turns, t.birth.time.Printable) {k : String} {m : Manifest}
    (stored : (start.after turns).objects.get? k = some m) : DatedInText m := by
  refine hereditary_datedInText.after ?_ clock k m stored
  intro k m stored
  rw [fresh.vacant k] at stored
  contradiction

namespace Client

variable {α : Type} [Resource α] {births : Nat → Birth} {s s' : Store} {n : Nat} {t : α}

/-! A write through a client. -/

theorem exec_send_error {write : Manifest → Plan (Except StoreError Manifest)} {e : ObjectError}
    (unwritten : Manifest.ofResource t = .error e) :
    (send write t).exec (serve (calm births)) (s, n) = (.error (.ofObjectError e), s, n) := by
  rw [send, unwritten]
  rfl

theorem exec_create {m : Manifest} (written : Manifest.ofResource t = .ok m) :
    (create t).exec (serve (calm births)) (s, n) =
      ((s.create (births n) m).1.bind (typed α), (s.create (births n) m).2, n + 1) := by
  rw [create, send, written]
  rfl

theorem exec_update {m : Manifest} (written : Manifest.ofResource t = .ok m) :
    (update t).exec (serve (calm births)) (s, n) =
      ((s.update m).1.bind (typed α), (s.update m).2, n + 1) := by
  rw [update, send, written]
  rfl

variable [Sectioned α] {allowed : Uid → Prop}

/-- How a write of `t` ends that has met the store `s`: undone, or such that `t` is there for every
reader, with a version and a date of the store's own and a UID that is `allowed`. -/
structure Faithful (births : Nat → Birth) (t : α) (s : Store) (allowed : Uid → Prop)
    (ended : Except StoreError α × Store × Nat) : Prop where
  undone : ∀ e, ended.1 = .error e → ended.2.1 = s
  found : ∀ t', ended.1 = .ok t' →
    ((get α (Resource.metadata t).key).exec (serve (calm births)) ended.2).1 = .ok t'
  listed : ∀ t', ended.1 = .ok t' → ∀ selector : Selector,
    selector.selects (Resource.metadata t') = true →
    (∀ k m, ended.2.1.objects.get? k = some m → m.kind = Resource.kind α →
      ∃ a, m.toResource α = .ok a) →
    ∃ ts, ((list α selector).exec (serve (calm births)) ended.2).1 = .ok ts ∧ t' ∈ ts
  kept : ∀ t', ended.1 = .ok t' → ∃ uid version created, allowed uid ∧
    t' = Sectioned.withMetadata t
      { Resource.metadata t with
        uid := uid, resourceVersion := version, creationTimestamp := created }

theorem faithful_of_error (e : StoreError) : Faithful births t s allowed (.error e, s, n) := by
  constructor
  · intro _ _
    rfl
  · intro t' done
    contradiction
  · intro t' done
    contradiction
  · intro t' done
    contradiction

theorem faithful_of_write {m : Manifest} {t' : α} {uid : Uid} {version : Option String}
    {created : Option Timestamp} (place : addressOf m = addressOf (Sectioned.manifest t))
    (stored : (s.write m).1 = Sectioned.manifest t') (printable : (Resource.metadata t').Printable)
    (identified : allowed uid)
    (kept : t' = Sectioned.withMetadata t { Resource.metadata t with
      uid := uid, resourceVersion := version, creationTimestamp := created }) :
    Faithful births t s allowed
      ((Except.ok (s.write m).1).bind (typed α), (s.write m).2, n + 1) := by
  have there := get?_write_self s m
  rw [stored, place] at there
  have read : (Sectioned.manifest t').toResource α = .ok t' :=
    Sectioned.toResource_manifest printable
  have answer : (Except.ok (s.write m).1).bind (typed α) = .ok t' := by
    rw [stored]
    exact typed_eq_ok read
  rw [answer]
  -- The object under the key of `t` is the untyped form of the answer, for this reader and that one.
  constructor
  · intro e failed
    contradiction
  · rintro t' ⟨⟩
    have got : (s.write m).2.get (Resource.kind α) (Resource.metadata t).key =
        .ok (Sectioned.manifest t') := get_eq_ok_iff.2 there
    show ((s.write m).2.get _ _).bind (typed α) = .ok t'
    rw [got]
    exact typed_eq_ok read
  · rintro t' ⟨⟩ selector selected readable
    have member : Sectioned.manifest t' ∈ (s.write m).2.list (Resource.kind α) selector :=
      mem_list.2 ⟨⟨_, there⟩, rfl, selected⟩
    have decodes : ∀ x ∈ (s.write m).2.list (Resource.kind α) selector,
        ∃ a, x.toResource α = .ok a := by
      intro x mem
      obtain ⟨⟨k, stored⟩, kind, _⟩ := mem_list.1 mem
      exact readable k x stored kind
    have whole := mapM_typed decodes
    refine ⟨_, whole, List.mem_filterMap.2 ⟨_, member, ?_⟩⟩
    rw [read]
    rfl
  · rintro t' ⟨⟩
    exact ⟨uid, version, created, identified, kept⟩

def OwnUid (t : α) (uid : Uid) : Prop :=
  (Resource.metadata t).uid.isEmpty = false → uid = (Resource.metadata t).uid

def StoredUid (s : Store) (t : α) (uid : Uid) : Prop :=
  ∃ current, s.get (Resource.kind α) (Resource.metadata t).key = .ok current ∧
    uid = current.metadata.uid

theorem faithful_create (clock : (births n).time.Printable) :
    Faithful births t s (OwnUid t) ((create t).exec (serve (calm births)) (s, n)) := by
  cases written : Manifest.ofResource t with
  | error e =>
    rw [create, exec_send_error written]
    exact faithful_of_error _
  | ok m =>
    have printable := Sectioned.ofResource_eq_ok_iff.1 ⟨m, written⟩
    rw [exec_create written, Sectioned.eq_manifest_of_ofResource written]
    rcases create_cases (births n) s (Sectioned.manifest t) with ⟨e, refused⟩ | ⟨_, created⟩
    · rw [refused]
      exact faithful_of_error e
    · rw [created]
      refine faithful_of_write rfl (Sectioned.manifest_with t _).symm ?_ ?_ rfl
      -- Of what the store has put in, only the date could be without a text.
      · rw [Sectioned.metadata_with]
        constructor
        · intro time mem
          cases Option.some.inj mem
          exact clock
        · exact printable.deleted
      · intro own
        exact if_neg (by simp [Sectioned.manifest, own])

theorem faithful_update (dated : ∀ k m, s.objects.get? k = some m → DatedInText m) :
    Faithful births t s (StoredUid s t) ((update t).exec (serve (calm births)) (s, n)) := by
  cases written : Manifest.ofResource t with
  | error e =>
    rw [update, exec_send_error written]
    exact faithful_of_error _
  | ok m =>
    have printable := Sectioned.ofResource_eq_ok_iff.1 ⟨m, written⟩
    rw [exec_update written, Sectioned.eq_manifest_of_ofResource written]
    rcases update_cases s (Sectioned.manifest t) with ⟨e, refused⟩ | ⟨current, there, _, updated⟩
    · rw [refused]
      exact faithful_of_error e
    · rw [updated]
      refine faithful_of_write rfl (Sectioned.manifest_with t _).symm ?_ ?_ rfl
      · rw [Sectioned.metadata_with]
        constructor
        · exact dated _ current there
        · exact printable.deleted
      · exact ⟨current, get_eq_ok_iff.2 there, rfl⟩

/-- Both writes of a kind are faithful, whatever is written. -/
structure Reliable (α : Type) [Resource α] [Sectioned α] (births : Nat → Birth) (s : Store) :
    Prop where
  create : ∀ (t : α) n,
    Faithful births t s (OwnUid t) ((Client.create t).exec (serve (calm births)) (s, n))
  update : ∀ (t : α) n,
    Faithful births t s (StoredUid s t) ((Client.update t).exec (serve (calm births)) (s, n))

theorem reliable (clock : ∀ n, (births n).time.Printable)
    (dated : ∀ k m, s.objects.get? k = some m → DatedInText m) : Reliable α births s := by
  constructor
  · intro t n
    exact faithful_create (clock n)
  · intro t n
    exact faithful_update dated

end Client

/-- At a store whose clock gives dates that have a text, a typed write is done and can be read back,
or not done at all. -/
theorem typed_writes_reliable {start : Store} (fresh : start.IsNew) {turns : List Turn}
    (past : ∀ t ∈ turns, t.birth.time.Printable) {births : Nat → Birth}
    (clock : ∀ n, (births n).time.Printable) :
    Client.Reliable ClusterRole births (start.after turns) ∧
    Client.Reliable ResourceDefinition births (start.after turns) ∧
    Client.Reliable Revision births (start.after turns) := by
  have dated : ∀ k m, (start.after turns).objects.get? k = some m → DatedInText m :=
    fun k m stored => datedInText_after fresh past stored
  exact ⟨Client.reliable clock dated, Client.reliable clock dated, Client.reliable clock dated⟩

def viewer (uid : String) (rules : List PolicyRule) : ClusterRole :=
  { metadata := { name := "viewer", uid := ⟨uid⟩ }, rules }

def viewerCreated : List Turn :=
  [⟨⟨⟨"v"⟩, .epoch⟩, .create (viewer "" []).manifest⟩]

/-- A role that is written once more, with another UID, keeps the one it has been given. -/
theorem viewer_rewritten :
    let births : Nat → Birth := fun _ => ⟨⟨"new"⟩, .epoch⟩
    let ended := (Client.update (viewer "other" [{ verbs := ["get"] }])).exec (serve (calm births))
      (new.after viewerCreated, 0)
    ∃ role : ClusterRole, ended.1 = .ok role ∧ role.metadata.uid = ⟨"v"⟩ ∧
      role.rules = [{ verbs := ["get"] }] ∧
      ((Client.get ClusterRole (.cluster "viewer")).exec (serve (calm births)) ended.2).1 =
        .ok role := by
  intro births ended
  have epoch : Timestamp.epoch.Printable := ⟨by decide, by decide, by decide⟩
  have past : ∀ t ∈ viewerCreated, t.birth.time.Printable := by simpa [viewerCreated] using epoch
  have clock : ∀ n, (births n).time.Printable := fun _ => epoch
  obtain ⟨roles, _, _⟩ := typed_writes_reliable (.inl rfl) past clock
  have done : ended.1 = .ok
      { metadata := { name := "viewer", uid := ⟨"v"⟩, resourceVersion := some "2"
                      creationTimestamp := some .epoch }
        rules := [{ verbs := ["get"] }] } := by rfl
  exact ⟨_, done, rfl, rfl, (roles.update _ 0).found _ done⟩

end ProviderRoles
