import ProviderRoles.Store.Basic

/-! What a listing contains, and which entries it depends on. -/
namespace ProviderRoles.Store

theorem mem_list {s : Store} {kind : String} {selector : Selector} {o : Manifest} :
    o ∈ s.list kind selector ↔
      (∃ k, s.objects.get? k = some o) ∧ o.kind = kind ∧ selector.selects o.metadata = true := by
  have values : o ∈ s.objects.toList.map Prod.snd ↔ ∃ k, s.objects.get? k = some o := by
    simp only [List.mem_map, ← SortedMap.mem_toList_iff, Prod.exists, exists_eq_right]
  rw [list, select, List.mem_mergeSort, List.mem_filter, values, Bool.and_eq_true,
    decide_eq_true_iff]

theorem list_congr {s s' : Store} {kind : String} (selector : Selector)
    (h : ∀ k, (s.objects.get? k).filter (·.kind = kind) =
      (s'.objects.get? k).filter (·.kind = kind)) :
    s.list kind selector = s'.list kind selector := by
  have entries := congrArg (List.map Prod.snd) (SortedMap.filter_toList_congr h)
  have parts : ∀ ms : List Manifest,
      (ms.filter fun m => m.kind = kind && selector.selects m.metadata) =
        (ms.filter fun m => m.kind = kind).filter fun m => selector.selects m.metadata := by
    intro ms
    rw [List.filter_filter]
    exact List.filter_congr fun m _ => Bool.and_comm _ _
  have kinds : ∀ l : List (String × Manifest),
      ((l.map Prod.snd).filter fun m => m.kind = kind) =
        (l.filter fun e => e.2.kind = kind).map Prod.snd :=
    fun l => List.filter_map
  rw [list, list, select, select, parts, parts, kinds, kinds, entries]

/-- The part of an address up to its first separator is the kind. -/
theorem kind_eq_of_address_eq {kind kind' : String} {key key' : ObjectKey}
    (plain : '/' ∉ kind.toList) (plain' : '/' ∉ kind'.toList)
    (same : address kind key = address kind' key') : kind = kind' := by
  have start : ∀ (kind : String) (key : ObjectKey), '/' ∉ kind.toList →
      (address kind key).toList.takeWhile (· ≠ '/') = kind.toList := by
    intro kind key plain
    have all : ∀ c ∈ kind.toList, decide (c ≠ '/') = true := by
      intro c mem
      exact decide_eq_true fun here => plain (here ▸ mem)
    rw [address, String.toList_append, String.toList_append, List.append_assoc,
      List.takeWhile_append_of_pos all]
    exact List.append_nil _
  have kinds := start kind key plain
  rw [same, start kind' key' plain'] at kinds
  exact String.toList_inj.1 kinds.symm

end ProviderRoles.Store
