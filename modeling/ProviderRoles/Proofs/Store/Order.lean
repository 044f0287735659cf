import ProviderRoles.Proofs.Store.History
import ProviderRoles.Proofs.Store.Listing

/-! The order of a listing. No two stored objects of a kind have one key, so there is one way to put
them in order of their keys, and in whatever order a store comes upon its entries, its listings are
the same. -/
namespace ProviderRoles

namespace ObjectKey

variable {a b c : ObjectKey}

/-- No namespace comes before every namespace. Else the namespace decides, and then the name. -/
inductive Before : ObjectKey → ObjectKey → Prop
  | unscoped {m ns n : String} : Before ⟨none, m⟩ ⟨some ns, n⟩
  | ns {ns ns' m n : String} : ns < ns' → Before ⟨some ns, m⟩ ⟨some ns', n⟩
  | name {scope : Option String} {m n : String} : m < n → Before ⟨scope, m⟩ ⟨scope, n⟩

theorem Before.trans (h : a.Before b) (h' : b.Before c) : a.Before c := by
  cases h with
  | unscoped =>
    cases h' with
    | ns _ => exact .unscoped
    | name _ => exact .unscoped
  | ns below =>
    cases h' with
    | ns below' => exact .ns (String.lt_trans below below')
    | name _ => exact .ns below
  | name below =>
    cases h' with
    | unscoped => exact .unscoped
    | ns below' => exact .ns below'
    | name below' => exact .name (String.lt_trans below below')

theorem before_trichotomy (a b : ObjectKey) : a.Before b ∨ a = b ∨ b.Before a := by
  obtain ⟨scope, m⟩ := a
  obtain ⟨scope', n⟩ := b
  by_cases same : scope = scope'
  · subst same
    rcases Std.lt_trichotomy m n with below | rfl | above
    · exact .inl (.name below)
    · exact .inr (.inl rfl)
    · exact .inr (.inr (.name above))
  · cases scope with
    | none =>
      cases scope' with
      | none => contradiction
      | some ns' => exact .inl .unscoped
    | some ns =>
      cases scope' with
      | none => exact .inr (.inr .unscoped)
      | some ns' =>
        rcases Std.lt_trichotomy ns ns' with below | rfl | above
        · exact .inl (.ns below)
        · contradiction
        · exact .inr (.inr (.ns above))

theorem le_refl (a : ObjectKey) : a.le a = true := by
  obtain ⟨scope, m⟩ := a
  cases scope <;> simp [le]

theorem Before.le (h : a.Before b) : a.le b = true := by
  cases h with
  | unscoped => rfl
  | ns below => simp [ObjectKey.le, below]
  | @name scope _ _ below => cases scope <;> simp [ObjectKey.le, Std.le_of_lt below]

theorem Before.not_le (h : a.Before b) : b.le a = false := by
  cases h with
  | unscoped => rfl
  | @ns ns ns' _ _ below =>
    have above : ¬ ns' < ns := fun above => String.lt_irrefl _ (String.lt_trans below above)
    have other : ns' ≠ ns := fun same => String.lt_irrefl _ (same ▸ below)
    simp [ObjectKey.le, above, other]
  | @name scope _ _ below => cases scope <;> simp [ObjectKey.le, below]

theorem le_iff : a.le b = true ↔ a.Before b ∨ a = b := by
  constructor
  · intro h
    rcases before_trichotomy a b with before | same | after
    · exact .inl before
    · exact .inr same
    · rw [after.not_le] at h
      contradiction
  · rintro (before | rfl)
    · exact before.le
    · exact le_refl a

theorem le_trans (h : a.le b = true) (h' : b.le c = true) : a.le c = true := by
  rcases le_iff.1 h with before | rfl
  · rcases le_iff.1 h' with before' | rfl
    · exact (before.trans before').le
    · exact h
  · exact h'

theorem le_total (a b : ObjectKey) : (a.le b || b.le a) = true := by
  rw [Bool.or_eq_true]
  rcases before_trichotomy a b with before | rfl | after
  · exact .inl before.le
  · exact .inl (le_refl a)
  · exact .inr after.le

theorem le_antisymm (h : a.le b = true) (h' : b.le a = true) : a = b := by
  rcases le_iff.1 h with before | same
  · rw [before.not_le] at h'
    contradiction
  · exact same

end ObjectKey

theorem Selector.selects_iff {selector : Selector} {m : ObjectMeta} :
    selector.selects m = true ↔ (∀ ns, selector.ns = some ns → m.ns = some ns) ∧
      ∀ k v, selector.labels.get? k = some v → m.labels.get? k = some v := by
  obtain ⟨ns?, labels⟩ := selector
  have carried : (∀ e ∈ labels.toList, m.labels.get? e.1 = some e.2) ↔
      ∀ k v, labels.get? k = some v → m.labels.get? k = some v := by
    simp only [Prod.forall, SortedMap.mem_toList_iff]
  rw [selects, Bool.and_eq_true, List.all_eq_true, ← carried]
  cases ns? <;> simp

namespace Store

variable {s : Store} {kind : String} {selector : Selector}

/-- Stored objects are told apart by kind and key. -/
theorem eq_of_key_eq (addressed : s.Addressed) {k k' : String} {a b : Manifest}
    (there : s.objects.get? k = some a) (there' : s.objects.get? k' = some b)
    (kinds : a.kind = b.kind) (keys : a.key = b.key) : a = b := by
  have place : k = k' := by
    rw [addressed k a there, addressed k' b there', addressOf, addressOf, kinds, keys]
  rw [place, there'] at there
  exact (Option.some.inj there).symm

theorem select_perm (stored : List Manifest) : (select kind selector stored).Perm
    (stored.filter fun m => m.kind = kind && selector.selects m.metadata) :=
  List.mergeSort_perm _ _

theorem select_ascending (stored : List Manifest) :
    (select kind selector stored).Pairwise fun a b => a.key.le b.key = true := by
  refine List.pairwise_mergeSort (fun a b c => ?_) (fun a b => ?_) _
  · exact ObjectKey.le_trans
  · exact ObjectKey.le_total a.key b.key

/-- Stored objects of a kind can be in ascending order in one way only. -/
theorem eq_of_ascending (addressed : s.Addressed) {ms ms' : List Manifest}
    (stored : ∀ m ∈ ms, m.kind = kind ∧ ∃ k, s.objects.get? k = some m) (perm : ms.Perm ms')
    (ascending : ms.Pairwise fun a b => a.key.le b.key = true)
    (ascending' : ms'.Pairwise fun a b => a.key.le b.key = true) : ms = ms' := by
  refine perm.eq_of_pairwise (fun a b mem mem' ab ba => ?_) ascending ascending'
  obtain ⟨kinds, k, there⟩ := stored a mem
  obtain ⟨kinds', k', there'⟩ := stored b (perm.mem_iff.2 mem')
  exact eq_of_key_eq addressed there there' (kinds.trans kinds'.symm) (ObjectKey.le_antisymm ab ba)

theorem stored_of_mem_list {m : Manifest} (mem : m ∈ s.list kind selector) :
    m.kind = kind ∧ ∃ k, s.objects.get? k = some m := by
  obtain ⟨there, kinds, _⟩ := mem_list.1 mem
  exact ⟨kinds, there⟩

theorem nodup_list (addressed : s.Addressed) : (s.list kind selector).Nodup := by
  have values : (s.objects.toList.map Prod.snd).Nodup := by
    refine List.pairwise_map.2 (s.objects.ascending.imp_of_mem fun {e e'} mem mem' below same => ?_)
    have place := addressed e.1 e.2 (SortedMap.mem_toList_iff.1 mem)
    have place' := addressed e'.1 e'.2 (SortedMap.mem_toList_iff.1 mem')
    rw [place, place', same] at below
    exact String.lt_irrefl _ below
  exact (select_perm _).nodup_iff.2 (values.filter _)

theorem list_strictly_ascending (addressed : s.Addressed) :
    (s.list kind selector).Pairwise fun a b => a.key.Before b.key := by
  have ascending : (s.list kind selector).Pairwise fun a b => a.key.le b.key = true :=
    select_ascending _
  refine (ascending.and (nodup_list addressed)).imp_of_mem fun {a b} mem mem' h => ?_
  rcases ObjectKey.le_iff.1 h.1 with before | keys
  · exact before
  · obtain ⟨kinds, k, there⟩ := stored_of_mem_list mem
    obtain ⟨kinds', k', there'⟩ := stored_of_mem_list mem'
    exact absurd (eq_of_key_eq addressed there there' (kinds.trans kinds'.symm) keys) h.2

theorem select_of_perm (addressed : s.Addressed) {entries : List (String × Manifest)}
    (perm : entries.Perm s.objects.toList) :
    select kind selector (entries.map Prod.snd) = s.list kind selector := by
  have values := (perm.map Prod.snd).filter fun m => m.kind = kind && selector.selects m.metadata
  refine (eq_of_ascending addressed (fun _ => stored_of_mem_list) ?_ (select_ascending _)
    (select_ascending _)).symm
  exact (select_perm _).trans (values.symm.trans (select_perm _).symm)

theorem list_eq_filter (addressed : s.Addressed) :
    s.list kind selector = (s.list kind .all).filter fun m => selector.selects m.metadata := by
  have stages : ∀ m : Manifest, (m.kind = kind && selector.selects m.metadata) =
      (selector.selects m.metadata && (m.kind = kind && Selector.all.selects m.metadata)) := by
    intro m
    have wanted : Selector.all.selects m.metadata = true := rfl
    rw [wanted, Bool.and_true, Bool.and_comm]
  refine eq_of_ascending addressed (fun _ => stored_of_mem_list) ?_ (select_ascending _)
    ((select_ascending _).filter _)
  have everything : (s.list kind .all).Perm ((s.objects.toList.map Prod.snd).filter fun m =>
      m.kind = kind && Selector.all.selects m.metadata) := select_perm _
  have rest := everything.filter fun m => selector.selects m.metadata
  rw [List.filter_filter] at rest
  exact (select_perm _).trans (.trans (.of_eq (List.filter_congr fun m _ => stages m)) rest.symm)

theorem mem_list_iff_get (addressed : s.Addressed) {o : Manifest} :
    o ∈ s.list kind selector ↔ o.kind = kind ∧ s.get kind o.key = .ok o ∧
      (∀ ns, selector.ns = some ns → o.metadata.ns = some ns) ∧
      ∀ k v, selector.labels.get? k = some v → o.metadata.labels.get? k = some v := by
  rw [mem_list, Selector.selects_iff]
  constructor
  · rintro ⟨⟨k, there⟩, rfl, wanted⟩
    have place : k = address o.kind o.key := addressed k o there
    exact ⟨rfl, get_eq_ok_iff.2 (place ▸ there), wanted⟩
  · rintro ⟨rfl, found, wanted⟩
    exact ⟨⟨_, get_eq_ok_iff.1 found⟩, rfl, wanted⟩

/-- A listing is the same in whatever order the store comes upon its entries, and strictly ascends
by key. It holds just the objects of the kind that a read under their own keys returns and that the
selector wants, and they stand in it as they do in the listing of everything. -/
theorem list_exact (reachable : s.Reachable) (kind : String) (selector : Selector) :
    (∀ entries : List (String × Manifest), entries.Perm s.objects.toList →
      select kind selector (entries.map Prod.snd) = s.list kind selector) ∧
    (s.list kind selector).Pairwise (fun a b => a.key.Before b.key) ∧
    (s.list kind selector).Nodup ∧
    (∀ o, o ∈ s.list kind selector ↔ o.kind = kind ∧ s.get kind o.key = .ok o ∧
      (∀ ns, selector.ns = some ns → o.metadata.ns = some ns) ∧
      ∀ k v, selector.labels.get? k = some v → o.metadata.labels.get? k = some v) ∧
    s.list kind selector = (s.list kind .all).filter fun m => selector.selects m.metadata := by
  have addressed := reachable.addressed
  refine ⟨fun entries perm => ?_, ?_, ?_, fun o => ?_, ?_⟩
  · exact select_of_perm addressed perm
  · exact list_strictly_ascending addressed
  · exact nodup_list addressed
  · exact mem_list_iff_get addressed
  · exact list_eq_filter addressed

/-- Two roles that are kept in the one order and listed in the other. -/
def shelf : List Turn :=
  [⟨⟨⟨"x"⟩, .epoch⟩, .create (.new "v1" "Role" (.named "b"))⟩,
   ⟨⟨⟨"y"⟩, .epoch⟩, .create (.new "v1" "ConfigMap" (.named "c"))⟩,
   ⟨⟨⟨"z"⟩, .epoch⟩, .create (.new "v1" "Role" { name := "z", ns := some "a" })⟩]

theorem shelf_listed :
    let s := new.after shelf
    s.objects.keys = ["ConfigMap/c", "Role/a/z", "Role/b"] ∧
    (s.list "Role" .all).map Manifest.key = [.cluster "b", ⟨some "a", "z"⟩] ∧
    ∀ o ∈ s.list "Role" { ns := some "a" }, s.get "Role" o.key = .ok o ∧ o.key.ns = some "a" := by
  intro s
  have reachable : s.Reachable := ⟨new, shelf, .inl rfl, rfl⟩
  obtain ⟨anyOrder, _⟩ := list_exact reachable "Role" .all
  obtain ⟨_, _, _, listed, _⟩ := list_exact reachable "Role" { ns := some "a" }
  refine ⟨rfl, ?_, fun o mem => ?_⟩
  · rw [← anyOrder s.objects.toList.reverse (List.reverse_perm _), select,
      List.mergeSort_of_pairwise (by decide)]
    rfl
  · obtain ⟨_, found, inside, _⟩ := (listed o).1 mem
    exact ⟨found, inside "a" rfl⟩

end Store

end ProviderRoles
