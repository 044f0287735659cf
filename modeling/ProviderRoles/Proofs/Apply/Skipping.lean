import Mathlib.Data.List.Forall2
import ProviderRoles.Proofs.Apply.Establishment
import ProviderRoles.Proofs.Apply.Exclusion

/-! That an object which is as desired is not written again shows in nothing but its version and its
deletion timestamp. Applications that write in any case are run beside those that do not, and the
two stores say the same all along. -/
namespace ProviderRoles

open Store

instance (p : Place) : Decidable p.IsPlain :=
  decidable_of_iff ('/' ∉ p.kind.toList ∧ '/' ∉ p.key.name.toList)
    ⟨fun h => ⟨h.1, h.2⟩, fun h => ⟨h.kind, h.name⟩⟩

namespace Apply

/-- Writes `object` if every guard lets it replace what is stored, be that as desired or not. -/
def insist (object : Manifest) (guards : List Guard) : Plan (Except ApplyError Manifest) := do
  match ← Plan.get object.kind object.key with
  | .error e => if e.isNotFound then createMissing object else pure (.error (.store e))
  | .ok current =>
    match Guard.all guards current object with
    | .error e => pure (.error e)
    | .ok () => overwrite current object

variable {births births' : Nat → Birth} {owner : Uid} {o current : Manifest} {s t u : Store}

section

variable (births)

theorem exec_get_calm {α : Type} (kind : String) (key : ObjectKey)
    (next : Except StoreError Manifest → Plan α) (n : Nat) :
    (Plan.get kind key >>= next).exec (serve (calm births)) (s, n) =
      (next (s.get kind key)).exec (serve (calm births)) (s, n + 1) := by
  rw [Plan.exec_bind', Plan.get, Plan.exec_call, serve_calm]
  rfl

theorem exec_insist_vacant (guards : List Guard) (vacant : s.objects.get? (addressOf o) = none)
    (n : Nat) :
    (insist o guards).exec (serve (calm births)) (s, n) =
      (createMissing o).exec (serve (calm births)) (s, n + 1) := by
  rw [insist, exec_get_calm, get_vacant vacant]
  rfl

theorem exec_insist_refused (there : s.objects.get? (addressOf o) = some current)
    (refused : isControllableBy current.metadata.ownerReferences owner = false) (n : Nat) :
    (insist o [Guard.controllableBy owner]).exec (serve (calm births)) (s, n) =
      (.error (.notControllable current.kind current.key.text owner), s, n + 1) := by
  rw [insist, exec_get_calm, get_eq_ok_iff.2 there]
  simp only [all_controllableBy_refused refused]
  rfl

theorem exec_insist_allowed (named : o.metadata.name.isEmpty = false)
    (there : s.objects.get? (addressOf o) = some current)
    (allowed : isControllableBy current.metadata.ownerReferences owner = true) (n : Nat) :
    (insist o [Guard.controllableBy owner]).exec (serve (calm births)) (s, n) =
      (.ok (s.write (adopt current o)).1, (s.write (adopt current o)).2, n + 2) := by
  rw [insist, exec_get_calm, get_eq_ok_iff.2 there]
  simp only [all_controllableBy_iff.2 allowed]
  exact exec_overwrite_calm births named there (n + 1)

end

/-- Equal data, or data of equal value. -/
def SameData (x y : SortedMap Json) : Prop := x = y ∨ Json.sameMembers x.toList y.toList = true

/-- Two objects that have come to one address in two stores say the same and have the same owners.
If an object was there `before`, both are its heirs. Else each may have a UID of its own store. -/
structure Matching (births births' : Nat → Birth) (before : Option Manifest) (a b : Manifest) :
    Prop where
  apiVersion : a.apiVersion = b.apiVersion
  place : a.place = b.place
  labels : a.metadata.labels = b.metadata.labels
  annotations : a.metadata.annotations = b.metadata.annotations
  owners : a.metadata.ownerReferences = b.metadata.ownerReferences
  data : SameData a.data b.data
  heirs : before.isSome = true → a.identity = b.identity
  uid : a.metadata.uid = b.metadata.uid ∨
    (∃ i, a.metadata.uid = (births i).uid) ∧ ∃ i, b.metadata.uid = (births' i).uid

/-- Both replies are one error, or objects that match. -/
inductive SameReply (births births' : Nat → Birth) (s : Store) :
    Except ApplyError Manifest → Except ApplyError Manifest → Prop
  | failed (e : ApplyError) : SameReply births births' s (.error e) (.error e)
  | stored {a b : Manifest} : Matching births births' (s.objects.get? (addressOf a)) a b →
      SameReply births births' s (.ok a) (.ok b)

section

variable {before : Option Manifest} {a b : Manifest}

theorem matching_self (m : Manifest) : Matching births births' before m m :=
  ⟨rfl, rfl, rfl, rfl, rfl, .inl rfl, fun _ => rfl, .inl rfl⟩

theorem matching_born (i j : Nat) (vacant : before = none) (o : Manifest) :
    Matching births births' before (born (births i) o) (born (births' j) o) := by
  refine ⟨rfl, rfl, rfl, rfl, rfl, .inl rfl, fun there => ?_, ?_⟩
  · rw [vacant] at there
    contradiction
  · cases brought : o.metadata.uid.isEmpty with
    | false => simp [born, brought]
    | true => exact .inr ⟨⟨i, if_pos brought⟩, j, if_pos brought⟩

theorem Matching.adopted (h : Matching births births' before a b) (o : Manifest) :
    Matching births births' before (adopt a o) (adopt b o) :=
  ⟨rfl, rfl, rfl, rfl, rfl, .inl rfl, h.heirs, h.uid⟩

theorem Matching.write_right (h : Matching births births' before a b) (u : Store) :
    Matching births births' before a (u.write b).1 :=
  ⟨h.apiVersion, h.place, h.labels, h.annotations, h.owners, h.data, h.heirs, h.uid⟩

theorem Matching.write (h : Matching births births' before a b) (t u : Store) :
    Matching births births' before (t.write a).1 (u.write b).1 :=
  ⟨h.apiVersion, h.place, h.labels, h.annotations, h.owners, h.data, h.heirs, h.uid⟩

/-- An object that is as desired matches what the desired one becomes in its place. -/
theorem Matching.overwritten (h : Matching births births' before a b) (place : a.place = o.place)
    (equal : Manifest.contentMatches a o = true) :
    Matching births births' before a (adopt b o) := by
  have conveys := conveys_iff.1 equal
  exact ⟨conveys.apiVersion, place, conveys.labels, conveys.annotations, conveys.owners,
    .inr conveys.data, h.heirs, h.uid⟩

end

/-- Stores that have come from `s`, the first one by fewer writes. -/
structure Paired (births births' : Nat → Birth) (s t u : Store) : Prop where
  entries : ∀ k, Option.Rel (Matching births births' (s.objects.get? k)) (t.objects.get? k)
    (u.objects.get? k)
  lasting : ∀ k, t.objects.get? k = none → s.objects.get? k = none
  placed : ∀ k m, t.objects.get? k = some m →
    k = addressOf m ∧ m.place.IsPlain ∧ m.metadata.name.isEmpty = false

section

variable (h : Paired births births' s t u)
include h

theorem Paired.vacant {k : String} (vacant : t.objects.get? k = none) :
    u.objects.get? k = none := by
  have entry := h.entries k
  rw [vacant] at entry
  generalize u.objects.get? k = e at entry ⊢
  cases entry with
  | none => rfl

theorem Paired.counterpart {k : String} {a : Manifest} (there : t.objects.get? k = some a) :
    ∃ b, u.objects.get? k = some b ∧ Matching births births' (s.objects.get? k) a b := by
  have entry := h.entries k
  rw [there] at entry
  generalize u.objects.get? k = e at entry ⊢
  cases entry with
  | some matching => exact ⟨_, rfl, matching⟩

theorem Paired.written {m m' : Manifest} (plain : m.place.IsPlain)
    (named : m.metadata.name.isEmpty = false)
    (matching : Matching births births' (s.objects.get? (addressOf m)) m m') :
    Paired births births' s (t.write m).2 (u.write m').2 := by
  have here : addressOf m' = addressOf m := congrArg Place.text matching.place.symm
  refine ⟨fun k => ?_, fun k none => ?_, fun k x stored => ?_⟩
  · rw [get?_write, get?_write, here]
    by_cases same : k = addressOf m
    · rw [if_pos same, if_pos same, same]
      exact .some (matching.write t u)
    · rw [if_neg same, if_neg same]
      exact h.entries k
  · rw [get?_write] at none
    split at none
    · contradiction
    · exact h.lasting k none
  · rw [get?_write] at stored
    split at stored
    · cases stored
      exact ⟨‹_›, plain, named⟩
    · exact h.placed k x stored

theorem Paired.rewritten {a m : Manifest} (there : t.objects.get? (addressOf m) = some a)
    (matching : Matching births births' (s.objects.get? (addressOf m)) a m) :
    Paired births births' s t (u.write m).2 := by
  refine ⟨fun k => ?_, h.lasting, h.placed⟩
  rw [get?_write]
  by_cases same : k = addressOf m
  · rw [if_pos same, same, there]
    exact .some (matching.write_right u)
  · rw [if_neg same]
    exact h.entries k

/-- What lies at the address of an object with a plain place is at that place, and has a name. -/
theorem Paired.place (plain : o.place.IsPlain)
    (there : t.objects.get? (addressOf o) = some current) :
    current.place = o.place ∧ o.metadata.name.isEmpty = false := by
  obtain ⟨address, plain', named⟩ := h.placed _ _ there
  have same : current.place = o.place := Place.eq_of_text_eq plain' plain address.symm
  have names : current.metadata.name = o.metadata.name :=
    congrArg (fun p => p.key.name) same
  exact ⟨same, names ▸ named⟩

/-- An application that skips equal writes and one that does not, one after the other. -/
theorem Paired.step (plain : o.place.IsPlain) {result : Except ApplyError Manifest} {t' : Store}
    (done : Undisturbed births owner o t result t') (n : Nat) :
    ∃ result' u' n', (insist o [Guard.controllableBy owner]).exec (serve (calm births')) (u, n) =
        (result', u', n') ∧
      SameReply births births' s result result' ∧ Paired births births' s t' u' := by
  cases done with
  | created i named vacant =>
    have matching : Matching births births' (s.objects.get? (addressOf o))
        (born (births i) (unversioned o)) (born (births' (n + 1)) (unversioned o)) :=
      matching_born i (n + 1) (h.lasting _ vacant) (unversioned o)
    rw [exec_insist_vacant births' _ (h.vacant vacant),
      exec_createMissing_calm births' named (h.vacant vacant)]
    exact ⟨_, _, _, rfl, .stored (matching.write t u), h.written plain named matching⟩
  | @equal current there allowed equal =>
    obtain ⟨place, named⟩ := h.place plain there
    have address : addressOf current = addressOf o := congrArg Place.text place
    obtain ⟨b, here, matching⟩ := h.counterpart there
    rw [exec_insist_allowed births' named here (matching.owners ▸ allowed)]
    have still := matching.overwritten place equal
    refine ⟨_, _, _, rfl, .stored ?_, h.rewritten there still⟩
    rw [address]
    exact still.write_right u
  | overwritten named there allowed _ =>
    obtain ⟨b, here, matching⟩ := h.counterpart there
    rw [exec_insist_allowed births' named here (matching.owners ▸ allowed)]
    have matching' := matching.adopted o
    exact ⟨_, _, _, rfl, .stored (matching'.write t u), h.written plain named matching'⟩
  | @refused current there foreign =>
    obtain ⟨b, here, matching⟩ := h.counterpart there
    have kinds : current.kind = b.kind := congrArg Place.kind matching.place
    have keys : current.key = b.key := congrArg Place.key matching.place
    rw [exec_insist_refused births' here (matching.owners ▸ foreign), kinds, keys]
    exact ⟨_, _, _, rfl, .failed _, h⟩
  | nameless unnamed free =>
    cases there : t.objects.get? (addressOf o) with
    | some current =>
      rw [(h.place plain there).2] at unnamed
      contradiction
    | none =>
      rw [exec_insist_vacant births' _ (h.vacant there),
        exec_createMissing_nameless births' unnamed]
      exact ⟨_, _, _, rfl, .failed _, h⟩

end

theorem paired_self (reachable : s.Reachable)
    (plain : ∀ k m, s.objects.get? k = some m → m.place.IsPlain) :
    Paired births births' s s s := by
  refine ⟨fun k => ?_, fun _ vacant => vacant, fun k m stored => ?_⟩
  · cases s.objects.get? k with
    | none => exact .none
    | some m => exact .some (matching_self m)
  · exact ⟨reachable.addressed k m stored, plain k m stored, reachable.named k m stored⟩

end Apply

def Application.insistent (a : Application) : Plan (Except ApplyError Manifest) :=
  Apply.insist a.object [Guard.controllableBy a.owner]

namespace Apply

/-- Replies and stores stay alike over any sequence of applications. -/
theorem Paired.run {births births' : Nat → Birth} {s t u : Store}
    (h : Paired births births' s t u) {applications : List Application}
    (plain : ∀ a ∈ applications, a.object.place.IsPlain) (n n' : Nat) :
    let sparing := (applications.mapM Application.plan).exec (serve (calm births)) (t, n)
    let insisting := (applications.mapM Application.insistent).exec (serve (calm births')) (u, n')
    List.Forall₂ (SameReply births births' s) sparing.1 insisting.1 ∧
      Paired births births' s sparing.2.1 insisting.2.1 := by
  induction applications generalizing t u n n' with
  | nil => exact ⟨.nil, h⟩
  | cons a applications ih =>
    obtain ⟨first, others⟩ := List.forall_mem_cons.1 plain
    obtain ⟨result, t', m, spared, done⟩ := exec_apply_undisturbed births a.owner a.object t n
    obtain ⟨result', u', m', insisted, same, paired⟩ := h.step first done n'
    obtain ⟨replies, stores⟩ := ih paired others m m'
    simp only [List.mapM_cons, Plan.exec_bind', Plan.exec_pure, Application.plan,
      Application.insistent, spared, insisted]
    exact ⟨.cons same replies, stores⟩

/-- Where neither kinds nor names contain the separator, it does not show whether objects that are
as desired are written again. Every application is refused for the same reason or stores the same,
and in the end every entry says the same, but for its version and its deletion timestamp. An entry
from before keeps its UID and its date of creation either way. -/
theorem skipping_unobservable (births births' : Nat → Birth) {s : Store} (reachable : s.Reachable)
    (plain : ∀ k m, s.objects.get? k = some m → m.place.IsPlain) {applications : List Application}
    (plain' : ∀ a ∈ applications, a.object.place.IsPlain) (n n' : Nat) :
    let sparing := (applications.mapM Application.plan).exec (serve (calm births)) (s, n)
    let insisting := (applications.mapM Application.insistent).exec (serve (calm births')) (s, n')
    List.Forall₂ (SameReply births births' s) sparing.1 insisting.1 ∧
    ∀ k, Option.Rel (Matching births births' (s.objects.get? k)) (sparing.2.1.objects.get? k)
      (insisting.2.1.objects.get? k) := by
  intro sparing insisting
  obtain ⟨replies, stores⟩ := (paired_self reachable plain).run plain' n n'
  exact ⟨replies, stores.entries⟩

/-- A gauge that stands at the other zero and is being torn down. -/
def gauges : List Turn :=
  [⟨⟨⟨"g"⟩, .epoch⟩, .create
    { gauge with
      metadata.deletionTimestamp := some .epoch
      data := .ofList [("level", .float ⟨0⟩)] }⟩]

/-- The first one is spared, the second one refused, and the third one creates. -/
def readings : List Application :=
  [⟨⟨"owner"⟩, gauge⟩, ⟨⟨"stranger"⟩, gauge⟩, ⟨⟨"stranger"⟩, .new "v1" "Gauge" (.named "h")⟩]

theorem readings_alike :
    let s := new.after gauges
    let births : Nat → Birth := fun _ => ⟨⟨"x"⟩, .epoch⟩
    let births' : Nat → Birth := fun _ => ⟨⟨"y"⟩, .epoch⟩
    let sparing := (readings.mapM Application.plan).exec (serve (calm births)) (s, 0)
    let insisting := (readings.mapM Application.insistent).exec (serve (calm births')) (s, 0)
    sparing.2.1.counter = 3 ∧ insisting.2.1.counter = 4 ∧
    List.Forall₂ (SameReply births births' s) sparing.1 insisting.1 ∧
    ∀ k, Option.Rel (Matching births births' (s.objects.get? k)) (sparing.2.1.objects.get? k)
      (insisting.2.1.objects.get? k) := by
  intro s births births' sparing insisting
  have plain : ∀ k m, s.objects.get? k = some m → m.place.IsPlain := by
    intro k m there
    have all : ∀ e ∈ s.objects.toList, e.2.place.IsPlain := by decide +kernel
    exact all (k, m) (SortedMap.mem_toList_iff.2 there)
  have counters : sparing.2.1.counter = 3 ∧ insisting.2.1.counter = 4 := by decide +kernel
  exact ⟨counters.1, counters.2, skipping_unobservable births births'
    ⟨new, gauges, .inl rfl, rfl⟩ plain (by decide +kernel) 0 0⟩

end Apply

end ProviderRoles
