import ProviderRoles.Store.Call

/-! Runs of calls on one store. Every write gets the next number of the store's counter, so a
run leaves a ledger: the objects that were written, in order. Whatever is stored stands in the
ledger and lies at its own address. -/
namespace ProviderRoles

/-- A call, with what an object that it creates gets from outside. -/
structure Turn where
  birth : Birth
  call : Call

namespace Store

/-- A store as one starts with it. -/
def IsNew (s : Store) : Prop := s = new ∨ s = fromZero

/-- The store after the calls, one after the other. -/
def after (s : Store) : List Turn → Store
  | [] => s
  | t :: turns => after (s.perform t.birth t.call).2 turns

/-- The object that a successful create or update has written. -/
def writtenBy : (c : Call) → Except StoreError c.Reply → Option Manifest
  | .create _, .ok m => some m
  | .update _, .ok m => some m
  | _, _ => none

/-- All objects that the calls have written, in order. -/
def written (s : Store) : List Turn → List Manifest
  | [] => []
  | t :: turns =>
    (writtenBy t.call (s.perform t.birth t.call).1).toList ++
      written (s.perform t.birth t.call).2 turns

def Reachable (s : Store) : Prop := ∃ start turns, IsNew start ∧ s = after start turns

theorem written_append (s : Store) (xs ys : List Turn) :
    s.written (xs ++ ys) = s.written xs ++ (s.after xs).written ys := by
  induction xs generalizing s with
  | nil => rfl
  | cons t xs ih => simp only [List.cons_append, written, after, ih, List.append_assoc]

/-! What each operation does. -/

/-- An object as it is created. -/
def born (birth : Birth) (m : Manifest) : Manifest :=
  { m with
    metadata.uid := if m.metadata.uid.isEmpty then birth.uid else m.metadata.uid
    metadata.creationTimestamp := some birth.time }

/-- An object as it takes the place of `current`. -/
def inheriting (current m : Manifest) : Manifest :=
  { m with
    metadata.uid := current.metadata.uid
    metadata.creationTimestamp := current.metadata.creationTimestamp }

@[simp] theorem addressOf_born (birth : Birth) (m : Manifest) :
    addressOf (born birth m) = addressOf m := rfl

@[simp] theorem addressOf_inheriting (current m : Manifest) :
    addressOf (inheriting current m) = addressOf m := rfl

@[simp] theorem addressOf_write (s : Store) (m : Manifest) :
    addressOf (s.write m).1 = addressOf m := rfl

@[simp] theorem get?_write (s : Store) (m : Manifest) (k : String) :
    (s.write m).2.objects.get? k =
      if k = addressOf m then some (s.write m).1 else s.objects.get? k := by
  simp [write]

theorem get?_write_self (s : Store) (m : Manifest) :
    (s.write m).2.objects.get? (addressOf m) = some (s.write m).1 := by
  rw [get?_write, if_pos rfl]

theorem get_vacant {s : Store} {kind : String} {key : ObjectKey}
    (vacant : s.objects.get? (address kind key) = none) :
    s.get kind key = .error (.notFound kind key.text) := by
  simp [get, vacant]

theorem vacant_of_get {s : Store} {kind : String} {key : ObjectKey} {e : StoreError}
    (failed : s.get kind key = .error e) :
    s.objects.get? (address kind key) = none ∧ e.isNotFound = true := by
  cases there : s.objects.get? (address kind key) with
  | some m =>
    rw [get, there] at failed
    contradiction
  | none =>
    rw [get_vacant there] at failed
    cases failed
    exact ⟨rfl, rfl⟩

theorem get_eq_ok_iff {s : Store} {kind : String} {key : ObjectKey} {m : Manifest} :
    s.get kind key = .ok m ↔ s.objects.get? (address kind key) = some m := by
  cases there : s.objects.get? (address kind key) <;> simp [get, there]

theorem create_nameless {s : Store} {m : Manifest} (birth : Birth)
    (nameless : m.metadata.name.isEmpty = true) :
    s.create birth m = (.error (Store.nameless m), s) := by
  simp [create, nameless]

theorem create_occupied {s : Store} {m current : Manifest} (birth : Birth)
    (named : m.metadata.name.isEmpty = false)
    (there : s.objects.get? (addressOf m) = some current) :
    s.create birth m = (.error (.alreadyExists m.kind m.key.text), s) := by
  simp [create, named, there]

theorem create_vacant {s : Store} {m : Manifest} (birth : Birth)
    (named : m.metadata.name.isEmpty = false) (vacant : s.objects.get? (addressOf m) = none) :
    s.create birth m = (.ok (s.write (born birth m)).1, (s.write (born birth m)).2) := by
  simp [create, named, vacant, born]

theorem update_nameless {s : Store} {m : Manifest} (nameless : m.metadata.name.isEmpty = true) :
    s.update m = (.error (Store.nameless m), s) := by
  simp [update, nameless]

theorem update_vacant {s : Store} {m : Manifest} (named : m.metadata.name.isEmpty = false)
    (vacant : s.objects.get? (addressOf m) = none) :
    s.update m = (.error (.notFound m.kind m.key.text), s) := by
  simp [update, named, vacant]

theorem update_stale {s : Store} {m current : Manifest} (named : m.metadata.name.isEmpty = false)
    (there : s.objects.get? (addressOf m) = some current) (stale : isFresh current m = false) :
    s.update m = (.error (.versionConflict (versionOf m) (versionOf current)), s) := by
  simp [update, named, there, stale]

theorem update_fresh {s : Store} {m current : Manifest} (named : m.metadata.name.isEmpty = false)
    (there : s.objects.get? (addressOf m) = some current) (fresh : isFresh current m = true) :
    s.update m =
      (.ok (s.write (inheriting current m)).1, (s.write (inheriting current m)).2) := by
  simp [update, named, there, fresh, inheriting]

theorem create_cases (birth : Birth) (s : Store) (m : Manifest) :
    (∃ e, s.create birth m = (.error e, s)) ∨
    s.objects.get? (addressOf m) = none ∧
      s.create birth m = (.ok (s.write (born birth m)).1, (s.write (born birth m)).2) := by
  cases named : m.metadata.name.isEmpty with
  | true => exact .inl ⟨_, create_nameless birth named⟩
  | false =>
    cases there : s.objects.get? (addressOf m) with
    | some current => exact .inl ⟨_, create_occupied birth named there⟩
    | none => exact .inr ⟨rfl, create_vacant birth named there⟩

theorem update_cases (s : Store) (m : Manifest) :
    (∃ e, s.update m = (.error e, s)) ∨
    ∃ current, s.objects.get? (addressOf m) = some current ∧ isFresh current m = true ∧
      s.update m =
        (.ok (s.write (inheriting current m)).1, (s.write (inheriting current m)).2) := by
  cases named : m.metadata.name.isEmpty with
  | true => exact .inl ⟨_, update_nameless named⟩
  | false =>
    cases there : s.objects.get? (addressOf m) with
    | none => exact .inl ⟨_, update_vacant named there⟩
    | some current =>
      cases fresh : isFresh current m with
      | false => exact .inl ⟨_, update_stale named there fresh⟩
      | true => exact .inr ⟨current, rfl, fresh, update_fresh named there fresh⟩

theorem vacant_of_created {birth : Birth} {s : Store} {m stored : Manifest}
    (h : writtenBy (.create m) (s.create birth m).1 = some stored) :
    s.objects.get? (addressOf m) = none ∧ addressOf stored = addressOf m := by
  rcases create_cases birth s m with ⟨e, refused⟩ | ⟨vacant, created⟩
  · rw [refused] at h; contradiction
  · rw [created] at h
    cases h
    exact ⟨vacant, rfl⟩

theorem fresh_of_updated {s : Store} {m stored : Manifest}
    (h : writtenBy (.update m) (s.update m).1 = some stored) :
    ∃ current, s.objects.get? (addressOf m) = some current ∧ isFresh current m = true ∧
      addressOf stored = addressOf m := by
  rcases update_cases s m with ⟨e, refused⟩ | ⟨current, there, fresh, updated⟩
  · rw [refused] at h; contradiction
  · rw [updated] at h
    cases h
    exact ⟨current, there, fresh, rfl⟩

/-- What can come of a call: a refusal, which changes nothing, or what the call is for. -/
inductive Effect (birth : Birth) (s : Store) : (c : Call) → Except StoreError c.Reply × Store → Prop
  where
  | refused {c : Call} (e : StoreError) : Effect birth s c (.error e, s)
  | got {kind : String} {key : ObjectKey} {m : Manifest} :
      s.objects.get? (address kind key) = some m → Effect birth s (.get kind key) (.ok m, s)
  | listed {kind : String} {selector : Selector} :
      Effect birth s (.list kind selector) (.ok (s.list kind selector), s)
  | created {m : Manifest} : m.metadata.name.isEmpty = false →
      s.objects.get? (addressOf m) = none →
      Effect birth s (.create m) (.ok (s.write (born birth m)).1, (s.write (born birth m)).2)
  | updated {m current : Manifest} : m.metadata.name.isEmpty = false →
      s.objects.get? (addressOf m) = some current → isFresh current m = true →
      Effect birth s (.update m)
        (.ok (s.write (inheriting current m)).1, (s.write (inheriting current m)).2)
  | deleted {kind : String} {key : ObjectKey} {m : Manifest} :
      s.objects.get? (address kind key) = some m →
      Effect birth s (.delete kind key)
        (.ok (), { s with objects := s.objects.erase (address kind key) })

theorem effect_perform (birth : Birth) (s : Store) (c : Call) :
    Effect birth s c (s.perform birth c) := by
  cases c with
  | get kind key =>
    simp only [perform, get]
    cases there : s.objects.get? (address kind key) with
    | none => exact .refused _
    | some m => exact .got there
  | list kind selector => exact .listed
  | create m =>
    simp only [perform]
    cases named : m.metadata.name.isEmpty with
    | true => exact create_nameless birth named ▸ .refused _
    | false =>
      rcases create_cases birth s m with ⟨e, refused⟩ | ⟨vacant, created⟩
      · exact refused ▸ .refused e
      · exact created ▸ .created named vacant
  | update m =>
    simp only [perform]
    cases named : m.metadata.name.isEmpty with
    | true => exact update_nameless named ▸ .refused _
    | false =>
      rcases update_cases s m with ⟨e, refused⟩ | ⟨current, there, fresh, updated⟩
      · exact refused ▸ .refused e
      · exact updated ▸ .updated named there fresh
  | delete kind key =>
    simp only [perform, delete]
    cases there : s.objects.get? (address kind key) with
    | none => exact .refused _
    | some m => exact .deleted there

theorem writtenBy_error (c : Call) (e : StoreError) : writtenBy c (.error e) = none := by
  cases c <;> rfl

/-! The ledger of a run. -/

/-- What `s` is after the objects `ws` were written one after the other, with versions from
`first` on: the counter stands behind them, and everything stored is one of them. -/
structure Ledger (first : UInt64) (ws : List Manifest) (s : Store) : Prop where
  counter : s.counter = first + UInt64.ofNat ws.length
  numbered : ∀ i m, ws[i]? = some m →
    m.metadata.resourceVersion = some (toString (first + UInt64.ofNat i).toNat)
  stored : ∀ k m, s.objects.get? k = some m → m ∈ ws ∧ k = addressOf m

theorem IsNew.vacant {s : Store} (h : s.IsNew) (k : String) : s.objects.get? k = none := by
  rcases h with rfl | rfl <;> rfl

theorem ledger_new {s : Store} (fresh : s.IsNew) : Ledger s.counter [] s := by
  constructor
  · simp
  · intro i m h; simp at h
  · intro k m h; simp [fresh.vacant k] at h

theorem ledger_write {first : UInt64} {ws : List Manifest} {s : Store} (h : Ledger first ws s)
    (m : Manifest) : Ledger first (ws ++ [(s.write m).1]) (s.write m).2 := by
  constructor
  · show s.counter + 1 = _
    rw [h.counter, List.length_append, List.length_singleton, UInt64.ofNat_add, UInt64.add_assoc]
    rfl
  · intro i x hx
    rcases Nat.lt_or_ge i ws.length with old | new
    · rw [List.getElem?_append_left old] at hx
      exact h.numbered i x hx
    · rw [List.getElem?_append_right new, List.getElem?_singleton] at hx
      split at hx
      · rename_i last
        have here : i = ws.length := by omega
        cases Option.some.inj hx
        simp only [write, h.counter, here]
      · contradiction
  · intro k x hx
    rw [get?_write] at hx
    split at hx
    · rename_i here
      cases Option.some.inj hx
      exact ⟨List.mem_append_right _ (List.mem_singleton_self _), here⟩
    · obtain ⟨old, place⟩ := h.stored k x hx
      exact ⟨List.mem_append_left _ old, place⟩

theorem ledger_erase {first : UInt64} {ws : List Manifest} {s : Store} (h : Ledger first ws s)
    (k : String) : Ledger first ws { s with objects := s.objects.erase k } := by
  refine ⟨h.counter, h.numbered, ?_⟩
  intro x m hx
  rw [SortedMap.get?_erase] at hx
  split at hx
  · contradiction
  · exact h.stored x m hx

theorem ledger_perform {first : UInt64} {ws : List Manifest} {s : Store} (h : Ledger first ws s)
    (birth : Birth) (c : Call) :
    Ledger first (ws ++ (writtenBy c (s.perform birth c).1).toList) (s.perform birth c).2 := by
  have effect := effect_perform birth s c
  generalize s.perform birth c = done at effect ⊢
  cases effect with
  | refused e => simpa [writtenBy_error] using h
  | got there => simpa [writtenBy] using h
  | listed => simpa [writtenBy] using h
  | created named vacant => exact ledger_write h _
  | updated named there fresh => exact ledger_write h _
  | deleted there => simpa [writtenBy] using ledger_erase h _

theorem ledger_after {first : UInt64} {ws : List Manifest} {s : Store} (h : Ledger first ws s)
    (turns : List Turn) : Ledger first (ws ++ s.written turns) (s.after turns) := by
  induction turns generalizing ws s with
  | nil => simpa [written, after] using h
  | cons t turns ih =>
    have next := ih (ledger_perform h t.birth t.call)
    simpa only [written, after, List.append_assoc] using next

theorem ledger_run {start : Store} (fresh : start.IsNew) (turns : List Turn) :
    Ledger start.counter (start.written turns) (start.after turns) := by
  simpa using ledger_after (ledger_new fresh) turns

/-- A number can be read back from its text. -/
theorem eq_of_toString_eq {m n : Nat} (same : toString m = toString n) : m = n := by
  have numbers := congrArg (fun text => Nat.ofDigitChars 10 text.toList 0) same
  simpa only [Nat.toString_eq_repr, Nat.toList_repr, Nat.ofDigitChars_toDigits (b := 10) (by decide)
    (by decide)] using numbers

/-- Up to 2 ^ 64 writes have different versions. -/
theorem Ledger.eq_of_version {first : UInt64} {ws : List Manifest} {s : Store}
    (h : Ledger first ws s) (few : ws.length ≤ UInt64.size) {a b : Manifest} (ha : a ∈ ws)
    (hb : b ∈ ws) (same : a.metadata.resourceVersion = b.metadata.resourceVersion) : a = b := by
  obtain ⟨i, hi⟩ := List.mem_iff_getElem?.1 ha
  obtain ⟨j, hj⟩ := List.mem_iff_getElem?.1 hb
  have hi' : i < UInt64.size := Nat.lt_of_lt_of_le (List.getElem?_eq_some_iff.1 hi).1 few
  have hj' : j < UInt64.size := Nat.lt_of_lt_of_le (List.getElem?_eq_some_iff.1 hj).1 few
  rw [h.numbered i a hi, h.numbered j b hj, Option.some.injEq] at same
  -- Numbers below 2 ^ 64 stay different modulo 2 ^ 64, wherever the counter has started.
  have offsets : UInt64.ofNat i = UInt64.ofNat j :=
    (UInt64.add_right_inj first).1 (UInt64.toNat.inj (eq_of_toString_eq same))
  have index : i = j := by
    have := congrArg UInt64.toNat offsets
    rwa [UInt64.toNat_ofNat_of_lt' hi', UInt64.toNat_ofNat_of_lt' hj'] at this
  rw [index] at hi
  exact Option.some.inj (hi.symm.trans hj)

/-! What holds of all that is stored. -/

/-- A property that an object gets when it is created, from `births` alone, and hands on to the one
that takes its place. -/
structure Hereditary (births : Birth → Prop) (P : Manifest → Prop) : Prop where
  created : ∀ birth m, births birth → m.metadata.name.isEmpty = false → P (born birth m)
  inherited : ∀ current m, m.metadata.name.isEmpty = false → P current → P (inheriting current m)
  versioned : ∀ m version, P m → P { m with metadata.resourceVersion := version }

section

variable {births : Birth → Prop} {P : Manifest → Prop} {s : Store} {birth : Birth} {m : Manifest}

theorem Hereditary.write (h : Hereditary births P) (all : ∀ k m, s.objects.get? k = some m → P m)
    (new : P m) : ∀ k x, (s.write m).2.objects.get? k = some x → P x := by
  intro k x stored
  rw [get?_write] at stored
  split at stored
  · cases Option.some.inj stored
    exact h.versioned m _ new
  · exact all k x stored

theorem Hereditary.perform (h : Hereditary births P)
    (all : ∀ k m, s.objects.get? k = some m → P m) (given : births birth) (c : Call) :
    ∀ k x, (s.perform birth c).2.objects.get? k = some x → P x := by
  have effect := effect_perform birth s c
  generalize s.perform birth c = done at effect ⊢
  cases effect with
  | refused e => exact all
  | got there => exact all
  | listed => exact all
  | created named vacant => exact h.write all (h.created birth _ given named)
  | updated named there fresh => exact h.write all (h.inherited _ _ named (all _ _ there))
  | deleted there =>
    intro k x stored
    simp only [SortedMap.get?_erase] at stored
    split at stored
    · contradiction
    · exact all k x stored

theorem Hereditary.after (h : Hereditary births P) (all : ∀ k m, s.objects.get? k = some m → P m)
    {turns : List Turn} (given : ∀ t ∈ turns, births t.birth) :
    ∀ k x, (s.after turns).objects.get? k = some x → P x := by
  induction turns generalizing s with
  | nil => exact all
  | cons t turns ih =>
    obtain ⟨first, others⟩ := List.forall_mem_cons.1 given
    exact ih (h.perform all first t.call) others

end

/-- Every stored object lies at its own address, after any number of writes. -/
def Addressed (s : Store) : Prop := ∀ k m, s.objects.get? k = some m → k = addressOf m

theorem Reachable.addressed {s : Store} (h : s.Reachable) : s.Addressed := by
  obtain ⟨start, turns, fresh, rfl⟩ := h
  intro k m stored
  exact ((ledger_run fresh turns).stored k m stored).2

theorem hereditary_named : Hereditary (fun _ => True) fun m => m.metadata.name.isEmpty = false :=
  ⟨fun _ _ _ named => named, fun _ _ named _ => named, fun _ _ named => named⟩

theorem Reachable.named {s : Store} (h : s.Reachable) :
    ∀ k m, s.objects.get? k = some m → m.metadata.name.isEmpty = false := by
  obtain ⟨start, turns, fresh, rfl⟩ := h
  refine hereditary_named.after (fun k m stored => ?_) fun _ _ => trivial
  rw [fresh.vacant k] at stored
  contradiction

end Store

end ProviderRoles
