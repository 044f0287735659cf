import ProviderRoles.Proofs.Plan.Amid
import ProviderRoles.Proofs.Store.Isolation
import ProviderRoles.Proofs.Store.Representation

/-! What a run of calls says about the objects that came by. A call that fails has done nothing,
and one that succeeds has changed one entry. From its creation to its deletion an object keeps what
tells it from others, and the versions of a run are consecutive numbers. -/
namespace ProviderRoles

/-- What tells an object from the others that are kept at its address before and after it. -/
structure Identity where
  uid : Uid
  created : Option Timestamp
  deriving DecidableEq

def Manifest.identity (m : Manifest) : Identity := ⟨m.metadata.uid, m.metadata.creationTimestamp⟩

/-- The address of the entry that a call can remove. -/
def Call.deleted? : Call → Option String
  | .get .. | .list .. | .create _ | .update _ => none
  | .delete kind key => some (Store.address kind key)

namespace Store

variable {s : Store} {birth : Birth} {c : Call} {k : String} {i : Identity}

def identity? (s : Store) (k : String) : Option Identity :=
  (s.objects.get? k).map Manifest.identity

/-! One call. -/

theorem perform_of_error {e : StoreError} (failed : (s.perform birth c).1 = .error e) :
    (s.perform birth c).2 = s := by
  have effect := effect_perform birth s c
  generalize s.perform birth c = done at effect failed ⊢
  cases effect with
  | refused e => rfl
  | got _ | listed | created _ _ | updated _ _ _ | deleted _ => contradiction

theorem stored_of_writtenBy {m : Manifest}
    (wrote : writtenBy c (s.perform birth c).1 = some m) :
    c.target? = some (addressOf m) ∧
      (s.perform birth c).2.objects.get? (addressOf m) = some m := by
  have effect := effect_perform birth s c
  generalize s.perform birth c = done at effect wrote ⊢
  cases effect with
  | refused e =>
    rw [writtenBy_error] at wrote
    contradiction
  | got _ | listed | deleted _ => contradiction
  | created _ _ | updated _ _ _ =>
    cases wrote
    exact ⟨rfl, get?_write_self s _⟩

/-- No call but a deletion takes away what is at `k`, or puts something else in its place. -/
theorem identity?_perform (held : s.identity? k = some i) (spared : c.deleted? ≠ some k) :
    (s.perform birth c).2.identity? k = some i := by
  have effect := effect_perform birth s c
  generalize s.perform birth c = done at effect ⊢
  cases effect with
  | refused e => exact held
  | got _ | listed => exact held
  | @created m _ vacant =>
    have elsewhere : k ≠ addressOf m := by
      rintro rfl
      rw [identity?, vacant] at held
      contradiction
    rwa [identity?, get?_write, addressOf_born, if_neg elsewhere]
  | @updated m current _ there _ =>
    rw [identity?, get?_write, addressOf_inheriting]
    by_cases here : k = addressOf m
    · -- The successor inherits the identity of the object that lay there.
      rw [identity?, here, there] at held
      rw [if_pos here]
      exact held
    · rwa [if_neg here]
  | deleted _ =>
    have elsewhere : k ≠ _ := fun same => spared (congrArg some same.symm)
    rwa [identity?, SortedMap.get?_erase, if_neg elsewhere]

/-! A run of calls. -/

theorem identity?_after {turns : List Turn} (held : s.identity? k = some i)
    (spared : ∀ t ∈ turns, t.call.deleted? ≠ some k) : (s.after turns).identity? k = some i := by
  induction turns generalizing s with
  | nil => exact held
  | cons t turns ih =>
    obtain ⟨first, others⟩ := List.forall_mem_cons.1 spared
    exact ih (identity?_perform held first) others

/-- The versions of everything that the calls have written, in order. -/
def versions (s : Store) (turns : List Turn) : List (Option String) :=
  (s.written turns).map (·.metadata.resourceVersion)

theorem versions_eq {start : Store} (fresh : start.IsNew) {turns : List Turn}
    (few : start.counter.toNat + (start.written turns).length ≤ UInt64.size) :
    start.versions turns =
      (List.range' start.counter.toNat (start.written turns).length).map (some ∘ toString) := by
  have ledger := ledger_run fresh turns
  refine List.ext_getElem (by simp [versions]) fun i here there => ?_
  have inside : i < (start.written turns).length := by simpa [versions] using here
  have number : (start.counter + UInt64.ofNat i).toNat = start.counter.toNat + i :=
    toNat_add_ofNat (by omega)
  have version := ledger.numbered i _ (List.getElem?_eq_getElem inside)
  rw [number] at version
  simpa [versions] using version

/-- A call changes at most the entry that it is about, and nothing at all if it fails. What it
writes is what it replies. -/
structure Orderly (s : Store) (birth : Birth) (c : Call) : Prop where
  failed : ∀ e, (s.perform birth c).1 = .error e → (s.perform birth c).2 = s
  elsewhere : ∀ k, c.target? ≠ some k → (s.perform birth c).2.objects.get? k = s.objects.get? k
  written : ∀ m, writtenBy c (s.perform birth c).1 = some m →
    c.target? = some (addressOf m) ∧ (s.perform birth c).2.objects.get? (addressOf m) = some m

theorem orderly_perform (s : Store) (birth : Birth) (c : Call) : Orderly s birth c :=
  ⟨fun _ failed => perform_of_error failed, fun _ other => get?_perform_of_ne other,
    fun _ wrote => stored_of_writtenBy wrote⟩

/-- In a run every call is orderly, whatever is stored at an address keeps its identity up to the
next deletion there, and the versions are the numbers from the start of the counter on, one after
the other. So no two writes of the run, be it before and after a deletion, have one version. -/
theorem history_consistent {start : Store} (fresh : start.IsNew) {turns : List Turn}
    (few : (start.written turns).length < UInt64.size) :
    (∀ earlier t later, turns = earlier ++ t :: later →
      Orderly (start.after earlier) t.birth t.call) ∧
    (∀ earlier middle later k i, turns = earlier ++ middle ++ later →
      (start.after earlier).identity? k = some i →
      (∀ t ∈ middle, t.call.deleted? ≠ some k) →
      (start.after (earlier ++ middle)).identity? k = some i) ∧
    start.versions turns =
      (List.range' start.counter.toNat (start.written turns).length).map (some ∘ toString) ∧
    (start.versions turns).Nodup := by
  have begun := fresh.counter_le
  have enough : start.counter.toNat + (start.written turns).length ≤ UInt64.size := by omega
  have numbers := versions_eq fresh enough
  refine ⟨?_, ?_, numbers, ?_⟩
  · intro earlier t later _
    exact orderly_perform _ _ _
  · intro earlier middle later k i _ held spared
    rw [after_append]
    exact identity?_after held spared
  · rw [numbers]
    refine List.pairwise_map.2 (List.Pairwise.imp ?_ List.nodup_range')
    intro m n differ same
    exact differ (eq_of_toString_eq (Option.some.inj same))

/-- An object is updated under a false identity and deleted, and another one takes its place. In
between a creation fails. -/
def succession : List Turn :=
  [⟨⟨⟨"first"⟩, .epoch⟩, .create (.new "v1" "ConfigMap" (.named "a"))⟩,
   ⟨⟨⟨"x"⟩, .epoch⟩, .update (.new "v2" "ConfigMap" { name := "a", uid := ⟨"usurper"⟩ })⟩,
   ⟨⟨⟨"y"⟩, .epoch⟩, .create (.new "v1" "ConfigMap" (.named ""))⟩,
   ⟨⟨⟨"z"⟩, .epoch⟩, .delete "ConfigMap" (.cluster "a")⟩,
   ⟨⟨⟨"second"⟩, .epoch⟩, .create (.new "v1" "ConfigMap" (.named "a"))⟩]

theorem succession_consistent :
    (new.after (succession.take 3)).identity? "ConfigMap/a" = some ⟨⟨"first"⟩, some .epoch⟩ ∧
    (new.after succession).identity? "ConfigMap/a" = some ⟨⟨"second"⟩, some .epoch⟩ ∧
    new.after (succession.take 3) = new.after (succession.take 2) ∧
    new.versions succession = [some "1", some "2", some "3"] ∧ (new.versions succession).Nodup := by
  have fresh : new.IsNew := .inl rfl
  have few : (new.written succession).length < UInt64.size := by decide
  obtain ⟨orderly, lasting, numbers, apart⟩ := history_consistent fresh few
  refine ⟨?_, rfl, ?_, numbers, apart⟩
  · exact lasting (succession.take 1) ((succession.drop 1).take 2) (succession.drop 3) _ _ rfl rfl
      (by decide)
  · exact (orderly (succession.take 2) _ _ rfl).failed _ rfl

end Store

end ProviderRoles
