import ProviderRoles.Proofs.Store.Versions

/-! What holds of all that is stored, whatever the callers have put into their objects. Every object
lies at its own address and has a name, a UID and a date of creation. Its version is a number that
the counter has given out, and no other stored object has that one. -/
namespace ProviderRoles.Store

variable {s : Store} {birth : Birth} {m current : Manifest}

/-- An object with everything that the store asks for or gives, except for the version. -/
structure Complete (m : Manifest) : Prop where
  named : m.metadata.name.isEmpty = false
  identified : m.metadata.uid.isEmpty = false
  dated : m.metadata.creationTimestamp.isSome = true

def AllComplete (s : Store) : Prop := ∀ k m, s.objects.get? k = some m → Complete m

theorem complete_born (named : m.metadata.name.isEmpty = false)
    (identified : birth.uid.isEmpty = false) : Complete (born birth m) := by
  refine ⟨named, ?_, rfl⟩
  show (if m.metadata.uid.isEmpty then birth.uid else m.metadata.uid).isEmpty = false
  cases brought : m.metadata.uid.isEmpty with
  | true => rwa [if_pos rfl]
  | false => rwa [if_neg Bool.false_ne_true]

theorem complete_inheriting (named : m.metadata.name.isEmpty = false) (h : Complete current) :
    Complete (inheriting current m) :=
  ⟨named, h.identified, h.dated⟩

theorem hereditary_complete : Hereditary (fun birth => birth.uid.isEmpty = false) Complete := by
  constructor
  · intro birth m identified named
    exact complete_born named identified
  · intro current m named before
    exact complete_inheriting named before
  · intro m version h
    exact ⟨h.named, h.identified, h.dated⟩

theorem allComplete_after (all : AllComplete s) {turns : List Turn}
    (identified : ∀ t ∈ turns, t.birth.uid.isEmpty = false) : AllComplete (s.after turns) :=
  hereditary_complete.after all identified

theorem IsNew.allComplete (h : s.IsNew) : AllComplete s := by
  intro k m stored
  rw [h.vacant k] at stored
  contradiction

/-! Versions as numbers. As long as the counter has not gone round, they are the numbers from its
start up to it. -/

theorem toNat_add_ofNat {first : UInt64} {i : Nat} (small : first.toNat + i < UInt64.size) :
    (first + UInt64.ofNat i).toNat = first.toNat + i := by
  have own : i < UInt64.size := by omega
  rw [UInt64.toNat_add, UInt64.toNat_ofNat_of_lt' own]
  exact Nat.mod_eq_of_lt small

theorem IsNew.counter_le (h : s.IsNew) : s.counter.toNat ≤ 1 := by
  rcases h with rfl | rfl
  · decide
  · decide

/-- A version that the counter has given out since it stood at `first`. -/
def GivenOut (first : UInt64) (s : Store) (version : Option String) : Prop :=
  ∃ n : Nat, first.toNat ≤ n ∧ n < s.counter.toNat ∧ version = some (toString n)

theorem Ledger.givenOut {first : UInt64} {ws : List Manifest} (h : Ledger first ws s)
    (few : first.toNat + ws.length < UInt64.size) (member : m ∈ ws) :
    GivenOut first s m.metadata.resourceVersion := by
  obtain ⟨i, written⟩ := List.mem_iff_getElem?.1 member
  have inside : i < ws.length := (List.getElem?_eq_some_iff.1 written).1
  have number : (first + UInt64.ofNat i).toNat = first.toNat + i := toNat_add_ofNat (by omega)
  have counter : s.counter.toNat = first.toNat + ws.length := by
    rw [h.counter, toNat_add_ofNat few]
  refine ⟨first.toNat + i, by omega, by omega, ?_⟩
  rw [h.numbered i m written, number]

/-- What a store relies on. -/
structure WellKept (first : UInt64) (s : Store) : Prop where
  addressed : ∀ k m, s.objects.get? k = some m → k = addressOf m
  complete : ∀ k m, s.objects.get? k = some m → Complete m
  versioned : ∀ k m, s.objects.get? k = some m → GivenOut first s m.metadata.resourceVersion
  distinct : ∀ k k' m m', s.objects.get? k = some m → s.objects.get? k' = some m' →
    m.metadata.resourceVersion = m'.metadata.resourceVersion → k = k'

/-- Calls of all kinds, whether they succeed or not, keep a store well, up to the write after which
its counter would go round. -/
theorem wellKept_after {start : Store} (fresh : start.IsNew) {turns : List Turn}
    (identified : ∀ t ∈ turns, t.birth.uid.isEmpty = false)
    (few : (start.written turns).length < UInt64.size - 1) :
    WellKept start.counter (start.after turns) := by
  have ledger := ledger_run fresh turns
  have begun := fresh.counter_le
  have size : UInt64.size = 18446744073709551616 := rfl
  constructor
  · intro k m stored
    exact (ledger.stored k m stored).2
  · exact allComplete_after fresh.allComplete identified
  · intro k m stored
    exact ledger.givenOut (by omega) (ledger.stored k m stored).1
  · intro k k' m m' stored stored' same
    obtain ⟨member, place⟩ := ledger.stored k m stored
    obtain ⟨member', place'⟩ := ledger.stored k' m' stored'
    have one : m = m' := ledger.eq_of_version (by omega) member member' same
    rw [place, place', one]

/-- Objects that bring a UID, a version and a date along, and none of them. -/
def arrivals : List Turn :=
  [⟨⟨⟨"x"⟩, .epoch⟩, .create (.new "v1" "ConfigMap"
      { name := "a", uid := ⟨"own"⟩, resourceVersion := some "7" })⟩,
   ⟨⟨⟨"y"⟩, .epoch⟩, .create (.new "v1" "Secret" (.named "a"))⟩,
   ⟨⟨⟨"z"⟩, .epoch⟩, .create (.new "v1" "Secret" (.named ""))⟩,
   ⟨⟨⟨"z"⟩, .epoch⟩, .update (.new "v2" "ConfigMap" (.named "a"))⟩]

theorem arrivals_wellKept :
    (fromZero.after arrivals).objects.keys = ["ConfigMap/a", "Secret/a"] ∧
    GivenOut 0 (fromZero.after arrivals) (some "2") ∧
    ∀ m, (fromZero.after arrivals).objects.get? "Secret/a" = some m →
      m.metadata.resourceVersion ≠ some "2" := by
  have kept : WellKept 0 (fromZero.after arrivals) :=
    wellKept_after (.inr rfl) (by decide) (by decide)
  refine ⟨rfl, kept.versioned "ConfigMap/a" _ rfl, ?_⟩
  intro m stored version
  have same := kept.distinct "ConfigMap/a" "Secret/a" _ m rfl stored version.symm
  exact absurd same (by decide)

end ProviderRoles.Store
