import ProviderRoles.Proofs.Apply.Undisturbed
import ProviderRoles.Proofs.Except
import ProviderRoles.Proofs.Json.Reading
import ProviderRoles.Proofs.Store.Identity

/-! What has been achieved when an application has come through, and that nothing has happened when
it has not. The data of the object must be comparable, as they always are if it was read from a
text. -/
namespace ProviderRoles.Apply

open Store

/-- `p` says what `o` says. The data are compared by value. -/
structure Conveys (o p : Manifest) : Prop where
  apiVersion : p.apiVersion = o.apiVersion
  labels : p.metadata.labels = o.metadata.labels
  annotations : p.metadata.annotations = o.metadata.annotations
  owners : p.metadata.ownerReferences = o.metadata.ownerReferences
  data : Json.sameMembers p.data.toList o.data.toList = true

/-- From `s` to `s'`, `p` has come to lie at the place of `o`, as the heir of what was there. -/
structure Established (o : Manifest) (s s' : Store) (p : Manifest) : Prop where
  found : s'.get o.kind o.key = .ok p
  conveys : Conveys o p
  heir : ∀ before, s.objects.get? (addressOf o) = some before → p.identity = before.identity
  rest : ∀ k, k ≠ addressOf o → s'.objects.get? k = s.objects.get? k

variable {births : Nat → Birth} {owner : Uid} {o p current : Manifest} {s s' : Store}
  {result : Except ApplyError Manifest}

theorem conveys_iff : Manifest.contentMatches p o = true ↔ Conveys o p := by
  simp only [Manifest.contentMatches, Bool.and_eq_true, decide_eq_true_eq, and_assoc]
  constructor
  · rintro ⟨apiVersion, labels, annotations, owners, data⟩
    exact ⟨apiVersion, labels, annotations, owners, data⟩
  · intro h
    exact ⟨h.apiVersion, h.labels, h.annotations, h.owners, h.data⟩

theorem conveys_self (comparable : Json.membersComparable o.data.toList = true) : Conveys o o :=
  ⟨rfl, rfl, rfl, rfl, (Json.sameMembers_self _).trans comparable⟩

theorem Undisturbed.refused_iff (h : Undisturbed births owner o s result s') :
    (∃ e, result = .error e ∧ e.isNotControllable = true) ↔
      ∃ current, s.objects.get? (addressOf o) = some current ∧
        isControllableBy current.metadata.ownerReferences owner = false := by
  have allowed : ∀ {current : Manifest}, s.objects.get? (addressOf o) = some current →
      isControllableBy current.metadata.ownerReferences owner = true →
      ¬ ∃ current, s.objects.get? (addressOf o) = some current ∧
        isControllableBy current.metadata.ownerReferences owner = false := by
    rintro current there allowed ⟨other, here, refused⟩
    cases there.symm.trans here
    rw [allowed] at refused
    contradiction
  cases h with
  | created i _ vacant => simp [vacant]
  | equal there mine _ => simpa using allowed there mine
  | overwritten _ there mine _ => simpa using allowed there mine
  | refused there foreign => exact ⟨fun _ => ⟨_, there, foreign⟩, fun _ => ⟨_, rfl, rfl⟩⟩
  | nameless _ free =>
    constructor
    · rintro ⟨e, failed, conflict⟩
      cases failed
      contradiction
    · rintro ⟨current, there, foreign⟩
      rw [(free current there).1] at foreign
      contradiction

theorem Undisturbed.failed {e : ApplyError} (h : Undisturbed births owner o s (.error e) s') :
    s' = s ∧ (e.isNotControllable = true ∨ o.metadata.name = "") := by
  cases h with
  | refused _ _ => exact ⟨rfl, .inl rfl⟩
  | nameless unnamed _ => exact ⟨rfl, .inr (String.isEmpty_iff.1 unnamed)⟩

theorem established_write {m : Manifest} (here : addressOf m = addressOf o)
    (conveys : Conveys o (s.write m).1)
    (heir : ∀ before, s.objects.get? (addressOf o) = some before → m.identity = before.identity) :
    Established o s (s.write m).2 (s.write m).1 := by
  have stored := get?_write_self s m
  rw [here] at stored
  refine ⟨get_eq_ok_iff.2 stored, conveys, heir, fun k other => ?_⟩
  rw [get?_write, here, if_neg other]

theorem Undisturbed.established (h : Undisturbed births owner o s (.ok p) s')
    (comparable : Json.membersComparable o.data.toList = true) : Established o s s' p := by
  have ⟨apiVersion, labels, annotations, owners, data⟩ := conveys_self comparable
  cases h with
  | created i _ vacant =>
    refine established_write rfl ⟨apiVersion, labels, annotations, owners, data⟩ ?_
    intro before there
    rw [vacant] at there
    contradiction
  | equal there _ equal =>
    refine ⟨get_eq_ok_iff.2 there, conveys_iff.1 equal, fun before here => ?_, fun _ _ => rfl⟩
    cases there.symm.trans here
    rfl
  | overwritten _ there _ _ =>
    refine established_write rfl ⟨apiVersion, labels, annotations, owners, data⟩ ?_
    intro before here
    cases there.symm.trans here
    rfl

/-- Where `p` lies and conveys `o` there is nothing to do. -/
theorem Undisturbed.idle (h : Undisturbed births owner o s result s')
    (there : s.objects.get? (addressOf o) = some p)
    (mine : isControllableBy p.metadata.ownerReferences owner = true) (conveys : Conveys o p) :
    result = .ok p ∧ s' = s := by
  have equal := conveys_iff.2 conveys
  cases h with
  | created i _ vacant =>
    rw [vacant] at there
    contradiction
  | equal here _ _ =>
    cases here.symm.trans there
    exact ⟨rfl, rfl⟩
  | overwritten _ here _ different =>
    cases here.symm.trans there
    rw [equal] at different
    contradiction
  | refused here foreign =>
    cases here.symm.trans there
    rw [mine] at foreign
    contradiction
  | nameless _ free =>
    rw [(free p there).2] at equal
    contradiction

section

variable {n m : Nat}

theorem established_of_exec (comparable : Json.membersComparable o.data.toList = true)
    (run : (apply o [Guard.controllableBy owner]).exec (serve (calm births)) (s, n) =
      (.ok p, s', m)) : Established o s s' p := by
  obtain ⟨result, final, count, run', ends⟩ := exec_apply_undisturbed births owner o s n
  cases run.symm.trans run'
  exact ends.established comparable

theorem exec_again (comparable : Json.membersComparable o.data.toList = true)
    (run : (apply o [Guard.controllableBy owner]).exec (serve (calm births)) (s, n) =
      (.ok p, s', m))
    (mine : controllers o.metadata.ownerReferences = [] ∨
      isControlledBy o.metadata.ownerReferences owner = true) (births' : Nat → Birth) (n' : Nat) :
    ∃ n'', (apply o [Guard.controllableBy owner]).exec (serve (calm births')) (s', n') =
      (.ok p, s', n'') := by
  have established := established_of_exec comparable run
  have there := get_eq_ok_iff.1 established.found
  have controllable := isControllableBy_iff.2 mine
  rw [← established.conveys.owners] at controllable
  obtain ⟨result, final, n'', again, ends⟩ := exec_apply_undisturbed births' owner o s' n'
  obtain ⟨rfl, rfl⟩ := ends.idle there controllable established.conveys
  exact ⟨n'', again⟩

end

/-- An application is refused exactly if the object in its place has a controller other than the
owner alone. If it fails it has done nothing, and if it does not, what it returns lies in the place
of `o` and says what `o` says. A version that `o` brings along does not matter. Applied once more,
an object that its owner may control is found as it is. -/
theorem application_establishes (births : Nat → Birth) (owner : Uid) {o : Manifest}
    (comparable : Json.membersComparable o.data.toList = true) (s : Store) (n : Nat) :
    let applied := (apply o [Guard.controllableBy owner]).exec (serve (calm births)) (s, n)
    ((∃ e, applied.1 = .error e ∧ e.isNotControllable = true) ↔
      ∃ current, s.objects.get? (addressOf o) = some current ∧
        controllers current.metadata.ownerReferences ≠ [] ∧
        isControlledBy current.metadata.ownerReferences owner = false) ∧
    (∀ e, applied.1 = .error e →
      applied.2.1 = s ∧ (e.isNotControllable = true ∨ o.metadata.name = "")) ∧
    (∀ p, applied.1 = .ok p → Established o s applied.2.1 p) ∧
    (∀ version, apply { o with metadata.resourceVersion := version }
      [Guard.controllableBy owner] = apply o [Guard.controllableBy owner]) ∧
    ∀ p, applied.1 = .ok p →
      controllers o.metadata.ownerReferences = [] ∨
        isControlledBy o.metadata.ownerReferences owner = true →
      ∀ births' n', ∃ n'',
        (apply o [Guard.controllableBy owner]).exec (serve (calm births')) (applied.2.1, n') =
          (.ok p, applied.2.1, n'') := by
  intro applied
  obtain ⟨result, s', n₁, run, ends⟩ := exec_apply_undisturbed births owner o s n
  have same : applied = (result, s', n₁) := run
  have whole : ∀ {p}, applied.1 = .ok p → applied = (.ok p, applied.2.1, applied.2.2) :=
    fun done => Prod.ext done rfl
  refine ⟨?_, ?_, ?_, fun version => rfl, ?_⟩
  · rw [same, ends.refused_iff]
    simp only [isControllableBy, Bool.or_eq_false_iff, List.isEmpty_eq_false_iff]
  · rw [same]
    rintro e rfl
    exact ends.failed
  · exact fun p done => established_of_exec comparable (whole done)
  · exact fun p done mine births' n' => exec_again comparable (whole done) mine births' n'

/-- A gauge at the negative zero, with an owner and a version from nowhere. -/
def gauge : Manifest :=
  { Manifest.new "v1" "Gauge"
      { name := "g", resourceVersion := some "99"
        ownerReferences := [⟨"v1", "Station", "s", ⟨"owner"⟩, some true, none⟩] } with
    data := .ofList [("level", .float ⟨0x8000000000000000⟩)] }

/-- It takes the place of one that nobody controls, and stays. -/
theorem gauge_established :
    let s := new.after [⟨⟨⟨"first"⟩, .epoch⟩, .create (.new "v1" "Gauge" (.named "g"))⟩]
    let birth : Birth := ⟨⟨"new"⟩, .epoch⟩
    let applied := (apply gauge [Guard.controllableBy ⟨"owner"⟩]).exec
      (serve (calm fun _ => birth)) (s, 0)
    ∃ p, applied.1 = .ok p ∧ applied.2.1.get "Gauge" (.cluster "g") = .ok p ∧
      p.metadata.resourceVersion = some "2" ∧ p.identity = ⟨⟨"first"⟩, some .epoch⟩ ∧
      Conveys gauge p ∧ ∃ n, (apply gauge [Guard.controllableBy ⟨"owner"⟩]).exec
        (serve (calm fun _ => birth)) (applied.2.1, 7) = (.ok p, applied.2.1, n) := by
  intro s birth applied
  obtain ⟨_, _, establishes, _, again⟩ :=
    application_establishes (fun _ => birth) ⟨"owner"⟩ (o := gauge) (by decide +kernel) s 0
  have returned : applied.1.toOption = some
      { gauge with
        metadata.uid := ⟨"first"⟩
        metadata.resourceVersion := some "2"
        metadata.creationTimestamp := some .epoch } := by decide +kernel
  have done := eq_ok_of_toOption returned
  have established := establishes _ done
  have owned : isControlledBy gauge.metadata.ownerReferences ⟨"owner"⟩ = true := by decide
  exact ⟨_, done, established.found, rfl, established.heir _ rfl, established.conveys,
    again _ done (.inr owned) _ 7⟩

/-! Objects that come as texts. -/

theorem membersComparable_of_decode {x : Json} (comparable : x.isComparable = true)
    (decoded : Manifest.decode x = .ok o) : Json.membersComparable o.data.toList = true := by
  unfold Manifest.decode at decoded
  split at decoded
  · next members =>
    obtain ⟨_, _, decoded⟩ := eq_ok_of_bind decoded
    obtain ⟨_, _, decoded⟩ := eq_ok_of_bind decoded
    obtain ⟨_, _, decoded⟩ := eq_ok_of_bind decoded
    obtain ⟨_, _, decoded⟩ := eq_ok_of_bind decoded
    obtain ⟨_, _, decoded⟩ := eq_ok_of_bind decoded
    cases decoded
    -- The data are members of the object.
    refine Json.membersComparable_iff.2 fun e mem => Json.membersComparable_iff.1 comparable e ?_
    exact SortedMap.mem_of_mem_ofList (SortedMap.mem_of_mem_erase (SortedMap.mem_of_mem_erase
      (SortedMap.mem_of_mem_erase mem)))
  · contradiction

/-- An object that was read from a text is established by any application that comes through, and
then found as it is. -/
theorem established_of_read {text : List Char} {x : Json} (read : Json.Reader.read text = some x)
    (decoded : Manifest.decode x = .ok o) {n m : Nat}
    (run : (apply o [Guard.controllableBy owner]).exec (serve (calm births)) (s, n) =
      (.ok p, s', m)) :
    Established o s s' p ∧
      (controllers o.metadata.ownerReferences = [] ∨
          isControlledBy o.metadata.ownerReferences owner = true →
        ∀ births' n', ∃ n'', (apply o [Guard.controllableBy owner]).exec (serve (calm births'))
          (s', n') = (.ok p, s', n'')) := by
  have comparable := membersComparable_of_decode (Json.Reader.isComparable_of_read read) decoded
  exact ⟨established_of_exec comparable run, exec_again comparable run⟩

end ProviderRoles.Apply
