import ProviderRoles.Proofs.Store.History
import ProviderRoles.Proofs.Store.Listing

/-! A version names one write of the whole run. An update that carries the version of an object
read earlier goes through exactly if that object still lies there as it was read, whatever was
updated, deleted or created again in between. -/
namespace ProviderRoles.Store

/-- The reply to a call shows `o` as what is stored at address `k`. -/
def Returns : (c : Call) → Except StoreError c.Reply → String → Manifest → Prop
  | .get kind key, .ok m, k, o => k = address kind key ∧ o = m
  | .list _ _, .ok ms, k, o => k = addressOf o ∧ o ∈ ms
  | .create m, .ok stored, k, o => k = addressOf m ∧ o = stored
  | .update m, .ok stored, k, o => k = addressOf m ∧ o = stored
  | _, _, _, _ => False

/-- One of the calls has returned `o` for address `k`. -/
def Returned (start : Store) (turns : List Turn) (k : String) (o : Manifest) : Prop :=
  ∃ earlier t later, turns = earlier ++ t :: later ∧
    Returns t.call ((start.after earlier).perform t.birth t.call).1 k o

theorem stored_of_returns {birth : Birth} {s : Store} (addressed : s.Addressed) {c : Call}
    {k : String} {o : Manifest} (h : Returns c (s.perform birth c).1 k o) :
    (s.perform birth c).2.objects.get? k = some o := by
  have effect := effect_perform birth s c
  generalize s.perform birth c = done at effect h ⊢
  cases effect with
  | refused e => cases c <;> simp [Returns] at h
  | got there =>
    obtain ⟨rfl, rfl⟩ := h
    exact there
  | listed =>
    obtain ⟨rfl, member⟩ := h
    obtain ⟨⟨k, stored⟩, _⟩ := mem_list.1 member
    exact addressed k o stored ▸ stored
  | created _ _ | updated _ _ _ =>
    obtain ⟨rfl, rfl⟩ := h
    exact get?_write_self s _
  | deleted _ => contradiction

theorem Returned.written {start : Store} (fresh : start.IsNew) {turns : List Turn} {k : String}
    {o : Manifest} (h : Returned start turns k o) : o ∈ start.written turns ∧ k = addressOf o := by
  obtain ⟨earlier, t, later, rfl, returns⟩ := h
  have before := ledger_run fresh earlier
  have addressed : (start.after earlier).Addressed := fun k m stored => (before.stored k m stored).2
  have then_stored := stored_of_returns addressed returns
  obtain ⟨member, place⟩ := (ledger_perform before t.birth t.call).stored k o then_stored
  refine ⟨?_, place⟩
  rw [written_append, Store.written, ← List.append_assoc]
  exact List.mem_append_left _ member

/-- A stored object with the version of one returned earlier is that object. -/
theorem Returned.eq_of_version {start : Store} (fresh : start.IsNew) {turns : List Turn}
    (few : (start.written turns).length ≤ UInt64.size) {k k' : String} {o current : Manifest}
    (h : Returned start turns k o) (stored : (start.after turns).objects.get? k' = some current)
    (same : current.metadata.resourceVersion = o.metadata.resourceVersion) : current = o := by
  have ledger := ledger_run fresh turns
  exact ledger.eq_of_version few (ledger.stored k' current stored).1 (h.written fresh).1 same

theorem Ledger.version {first : UInt64} {ws : List Manifest} {s : Store} (h : Ledger first ws s)
    {m : Manifest} (member : m ∈ ws) : m.metadata.resourceVersion = some (versionOf m) := by
  obtain ⟨i, hi⟩ := List.mem_iff_getElem?.1 member
  rw [versionOf, h.numbered i m hi]
  rfl

/-- Whether an update is fresh shows whether the object it is based on is still there. -/
theorem Returned.isFresh_iff {start : Store} (fresh : start.IsNew) {turns : List Turn}
    (few : (start.written turns).length ≤ UInt64.size) {k k' : String} {o current m : Manifest}
    (h : Returned start turns k o) (stored : (start.after turns).objects.get? k' = some current)
    (carries : m.metadata.resourceVersion = o.metadata.resourceVersion) :
    isFresh current m = true ↔ current = o := by
  have ledger := ledger_run fresh turns
  have version := ledger.version (h.written fresh).1
  have version' := ledger.version (ledger.stored k' current stored).1
  simp only [isFresh, carries, version, Option.all_some, decide_eq_true_iff]
  constructor
  · intro same
    exact h.eq_of_version fresh few stored (by rw [version, version', same])
  · rintro rfl
    rfl

/-- An update with the version of an object that was returned earlier for its address succeeds
exactly if that object is stored there, in every field. Otherwise it is refused and changes
nothing. -/
theorem update_succeeds_iff_unchanged {start : Store} (fresh : start.IsNew) {turns : List Turn}
    (few : (start.written turns).length < UInt64.size) {k : String} {o : Manifest}
    (returned : Returned start turns k o) {m : Manifest} (named : m.metadata.name ≠ "")
    (aimed : addressOf m = k)
    (carries : m.metadata.resourceVersion = o.metadata.resourceVersion) :
    (((start.after turns).update m).1.isOk = true ↔
      (start.after turns).objects.get? k = some o) ∧
    ((start.after turns).objects.get? k = none →
      (start.after turns).update m = (.error (.notFound m.kind m.key.text), start.after turns)) ∧
    (∀ current, (start.after turns).objects.get? k = some current → current ≠ o →
      (start.after turns).update m =
        (.error (.versionConflict (versionOf o) (versionOf current)), start.after turns)) := by
  have named : m.metadata.name.isEmpty = false := by simpa using named
  subst aimed
  cases there : (start.after turns).objects.get? (addressOf m) with
  | none =>
    rw [update_vacant named there]
    exact ⟨by simp [Except.isOk, Except.toBool], fun _ => rfl, fun _ h => by simp at h⟩
  | some current =>
    have decides := returned.isFresh_iff fresh (Nat.le_of_lt few) there carries
    by_cases same : current = o
    · rw [update_fresh named there (decides.2 same)]
      refine ⟨by simp [Except.isOk, Except.toBool, same], fun h => by simp at h, ?_⟩
      intro x hx other
      exact absurd ((Option.some.inj hx).symm.trans same) other
    · have stale : isFresh current m = false := by
        simpa using fun h => same (decides.1 h)
      rw [update_stale named there stale]
      refine ⟨by simp [Except.isOk, Except.toBool, same], fun h => by simp at h, ?_⟩
      intro x hx _
      cases Option.some.inj hx
      simp only [versionOf, carries]

/-- An object is created, deleted, and created again with the same content. -/
def recreation : List Turn :=
  [⟨⟨⟨"first"⟩, .epoch⟩, .create (.new "v1" "ConfigMap" (.named "a"))⟩,
   ⟨⟨⟨"first"⟩, .epoch⟩, .delete "ConfigMap" (.cluster "a")⟩,
   ⟨⟨⟨"second"⟩, .epoch⟩, .create (.new "v1" "ConfigMap" (.named "a"))⟩]

/-- An update based on the first creation does not hit the second. -/
theorem update_of_recreated_refused :
    (new.after recreation).update
        (.new "v2" "ConfigMap" { name := "a", resourceVersion := some "1" }) =
      (.error (.versionConflict "1" "2"), new.after recreation) := by
  have returned : Returned new recreation "ConfigMap/a"
      (new.write (born ⟨⟨"first"⟩, .epoch⟩ (.new "v1" "ConfigMap" (.named "a")))).1 :=
    ⟨[], _, _, rfl, rfl, rfl⟩
  exact (update_succeeds_iff_unchanged (.inl rfl) (by decide) returned (by decide) rfl rfl).2.2 _
    rfl (by decide)

end ProviderRoles.Store
