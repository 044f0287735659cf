import ProviderRoles.Proofs.Store.History
import ProviderRoles.Proofs.Store.Listing

/-! What calls about one object do to another one. Objects are told apart by kind and key, and kept
by the text of both. Places with different texts have nothing to do with each other; two places
with one text share whatever is stored there. -/
namespace ProviderRoles

structure Place where
  kind : String
  key : ObjectKey
  deriving DecidableEq

def Manifest.place (m : Manifest) : Place := ⟨m.kind, m.key⟩

namespace Place

def text (p : Place) : String := Store.address p.kind p.key

/-- The separator is neither in the kind nor in the name. A namespace may contain it. -/
structure IsPlain (p : Place) : Prop where
  kind : '/' ∉ p.kind.toList
  name : '/' ∉ p.key.name.toList

end Place

/-- What stands behind the last separator is unique. -/
theorem eq_of_append_separator_eq {xs ys zs ws : List Char} (hz : '/' ∉ zs) (hw : '/' ∉ ws)
    (same : xs ++ '/' :: zs = ys ++ '/' :: ws) : xs = ys ∧ zs = ws := by
  rcases List.append_eq_append_iff.1 same with ⟨middle, left, right⟩ | ⟨middle, left, right⟩
  · cases middle with
    | nil => exact ⟨by simpa using left.symm, (List.cons.inj right).2⟩
    | cons c middle =>
      have inside : zs = middle ++ '/' :: ws := (List.cons.inj right).2
      exact absurd (by simp [inside]) hz
  · cases middle with
    | nil => exact ⟨by simpa using left, (List.cons.inj right).2.symm⟩
    | cons c middle =>
      have inside : ws = middle ++ '/' :: zs := (List.cons.inj right).2
      exact absurd (by simp [inside]) hw

theorem ObjectKey.eq_of_text_eq {k k' : ObjectKey} (plain : '/' ∉ k.name.toList)
    (plain' : '/' ∉ k'.name.toList) (same : k.text = k'.text) : k = k' := by
  obtain ⟨ns, name⟩ := k
  obtain ⟨ns', name'⟩ := k'
  have letters := congrArg String.toList same
  cases ns with
  | none =>
    cases ns' with
    | none => rw [show name = name' from same]
    | some ns' =>
      simp only [text, String.toList_append] at letters
      exact absurd (by simp [letters]) plain
  | some ns =>
    cases ns' with
    | none =>
      simp only [text, String.toList_append] at letters
      exact absurd (by simp [← letters]) plain'
    | some ns' =>
      simp only [text, String.toList_append, List.append_assoc] at letters
      obtain ⟨start, ending⟩ := eq_of_append_separator_eq plain plain' letters
      have spaces : ns = ns' := String.toList_inj.1 start
      have names : name = name' := String.toList_inj.1 ending
      rw [spaces, names]

theorem Place.eq_of_text_eq {a b : Place} (plain : a.IsPlain) (plain' : b.IsPlain)
    (same : a.text = b.text) : a = b := by
  obtain ⟨kind, key⟩ := a
  obtain ⟨kind', key'⟩ := b
  have kinds : kind = kind' := Store.kind_eq_of_address_eq plain.kind plain'.kind same
  subst kinds
  have keys : key.text = key'.text := (String.append_right_inj _).1 same
  have same_key : key = key' := ObjectKey.eq_of_text_eq plain.name plain'.name keys
  rw [same_key]

namespace Store

variable {s : Store} {a b : Place}

/-- Calls that are about `a` have nothing to do with what is at `b`. -/
structure Isolated (s : Store) (a b : Place) : Prop where
  create : ∀ birth m, m.place = a →
    (s.create birth m).2.get b.kind b.key = s.get b.kind b.key
  update : ∀ m, m.place = a → (s.update m).2.get b.kind b.key = s.get b.kind b.key
  delete : (s.delete a.kind a.key).2.get b.kind b.key = s.get b.kind b.key
  /-- What is at `b` is not what stands in the way of a creation at `a`. -/
  unobstructed : ∀ birth m o, m.place = a →
    (s.create birth m).1 = .error (.alreadyExists m.kind m.key.text) →
    s.get b.kind b.key = .ok o → s.get a.kind a.key ≠ .ok o

theorem get_write_of_ne {m : Manifest} (other : b.text ≠ addressOf m) :
    (s.write m).2.get b.kind b.key = s.get b.kind b.key := by
  have elsewhere : address b.kind b.key ≠ addressOf m := other
  rw [get, get?_write, if_neg elsewhere, get]

theorem delete_cases (s : Store) (kind : String) (key : ObjectKey) :
    (∃ e, s.delete kind key = (.error e, s)) ∨
    s.delete kind key = (.ok (), { s with objects := s.objects.erase (address kind key) }) := by
  rw [delete]
  cases s.objects.get? (address kind key) with
  | none => exact .inl ⟨_, rfl⟩
  | some m => exact .inr rfl

theorem isolated_of_text_ne (addressed : s.Addressed) (other : a.text ≠ b.text) :
    Isolated s a b := by
  constructor
  · rintro birth m rfl
    rcases create_cases birth s m with ⟨e, refused⟩ | ⟨_, created⟩
    · rw [refused]
    · rw [created]
      exact get_write_of_ne other.symm
  · rintro m rfl
    rcases update_cases s m with ⟨e, refused⟩ | ⟨current, _, _, updated⟩
    · rw [refused]
    · rw [updated]
      exact get_write_of_ne other.symm
  · rcases delete_cases s a.kind a.key with ⟨e, refused⟩ | deleted
    · rw [refused]
    · have elsewhere : address b.kind b.key ≠ address a.kind a.key := other.symm
      rw [deleted]
      simp only [get, SortedMap.get?_erase, if_neg elsewhere]
  · intro birth m o _ _ there here
    have place := addressed _ o (get_eq_ok_iff.1 there)
    have place' := addressed _ o (get_eq_ok_iff.1 here)
    exact other (place'.trans place.symm)

/-- Where a deletion at `a` takes away what is at `b`. -/
theorem not_isolated_of_occupied {o : Manifest} (same : a.text = b.text)
    (there : s.objects.get? a.text = some o) : ¬ Isolated s a b := by
  intro isolated
  have text : address b.kind b.key = address a.kind a.key := same.symm
  have there' : s.objects.get? (address a.kind a.key) = some o := there
  have frame := isolated.delete
  simp only [delete, get, text, there', SortedMap.get?_erase, ↓reduceIte] at frame
  contradiction

/-- Where a creation at `a` brings something to `b`. -/
theorem not_isolated_of_vacant (same : a.text = b.text) (named : a.key.name ≠ "")
    (vacant : s.objects.get? a.text = none) : ¬ Isolated s a b := by
  intro isolated
  let o := Manifest.new "" a.kind { name := a.key.name, ns := a.key.ns }
  have text : address b.kind b.key = addressOf o := same.symm
  have free : s.objects.get? (addressOf o) = none := vacant
  have unnamed : o.metadata.name.isEmpty = false := by simpa [o, Manifest.new] using named
  let birth : Birth := ⟨⟨""⟩, .epoch⟩
  have frame := isolated.create birth o rfl
  rw [create_vacant birth unnamed free, get, get, text, free] at frame
  have stored := get?_write_self s (born birth o)
  rw [addressOf_born] at stored
  rw [stored] at frame
  contradiction

theorem isolated_of_nameless (nameless : a.key.name = "")
    (vacant : s.objects.get? a.text = none) : Isolated s a b := by
  have unnamed : ∀ m : Manifest, m.place = a → m.metadata.name.isEmpty = true := by
    rintro m rfl
    exact String.isEmpty_iff.2 nameless
  constructor
  · intro birth m here
    rw [create_nameless birth (unnamed m here)]
  · intro m here
    rw [update_nameless (unnamed m here)]
  · have nothing : s.objects.get? (address a.kind a.key) = none := vacant
    simp only [delete, nothing]
  · intro birth m o here refused
    rw [create_nameless birth (unnamed m here)] at refused
    cases refused

/-- Two places have nothing to do with each other exactly if their texts differ, or nothing is at
the first one and nothing can be created there. No two plain places have one text, and a read
finds the object of just the place asked for unless one of the two is not plain. -/
theorem places_isolated (reachable : s.Reachable) :
    (∀ a b, Isolated s a b ↔
      a.text ≠ b.text ∨ a.key.name = "" ∧ s.objects.get? a.text = none) ∧
    (∀ a b : Place, a.IsPlain → b.IsPlain → a ≠ b → a.text ≠ b.text) ∧
    ∀ (a : Place) m, s.get a.kind a.key = .ok m →
      m.place.text = a.text ∧ (a.IsPlain → m.place.IsPlain → m.place = a) := by
  have addressed := reachable.addressed
  refine ⟨?_, ?_, ?_⟩
  · intro a b
    constructor
    · intro isolated
      by_cases same : a.text = b.text
      · cases there : s.objects.get? a.text with
        | some o => exact absurd isolated (not_isolated_of_occupied same there)
        | none =>
          by_cases nameless : a.key.name = ""
          · exact .inr ⟨nameless, rfl⟩
          · exact absurd isolated (not_isolated_of_vacant same nameless there)
      · exact .inl same
    · rintro (other | ⟨nameless, vacant⟩)
      · exact isolated_of_text_ne addressed other
      · exact isolated_of_nameless nameless vacant
  · intro a b plain plain' different same
    exact different (Place.eq_of_text_eq plain plain' same)
  · intro a m found
    have place : a.text = m.place.text := addressed _ m (get_eq_ok_iff.1 found)
    refine ⟨place.symm, ?_⟩
    intro plain plain'
    exact Place.eq_of_text_eq plain' plain place.symm

def slashed : Manifest := .new "rbac.authorization.k8s.io/v1" "ClusterRole" (.named "a/b")

theorem slashed_isolated :
    let s := new.after [⟨⟨⟨"1"⟩, .epoch⟩, .create slashed⟩]
    Isolated s slashed.place ⟨"ClusterRole", .cluster "a"⟩ ∧
    ¬ Isolated s ⟨"ClusterRole", ⟨some "a", "b"⟩⟩ slashed.place := by
  intro s
  obtain ⟨isolated_iff, _, _⟩ := places_isolated (s := s) ⟨new, _, .inl rfl, rfl⟩
  constructor
  · exact (isolated_iff _ _).2 (.inl (by decide))
  · exact fun isolated => ((isolated_iff _ _).1 isolated).elim (by decide) (by decide)

/-- The object is there under a key with a namespace, too, and can be deleted under that. -/
theorem slashed_shared :
    let s := new.after [⟨⟨⟨"1"⟩, .epoch⟩, .create slashed⟩]
    let b : ObjectKey := ⟨some "a", "b"⟩
    s.Reachable ∧ b ≠ slashed.key ∧
    (∃ m, s.get "ClusterRole" b = .ok m ∧ m.key = slashed.key) ∧
    (s.delete "ClusterRole" b).2.get "ClusterRole" slashed.key ≠
      s.get "ClusterRole" slashed.key ∧
    (s.create ⟨⟨"2"⟩, .epoch⟩ (.new slashed.apiVersion "ClusterRole"
      { name := "b", ns := some "a" })).1 = .error (.alreadyExists "ClusterRole" "a/b") := by
  refine ⟨⟨new, _, .inl rfl, rfl⟩, ?_, ⟨_, rfl, rfl⟩, ?_, ?_⟩
  · decide
  · intro same
    contradiction
  · rfl

end Store

end ProviderRoles
