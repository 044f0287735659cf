/-! Finite maps with text keys, kept in ascending order of the keys.
The order is by code point. A map is its list of entries, so two maps are equal
exactly when they hold the same entries. -/
namespace ProviderRoles

universe u

/-- Puts `v` at `k`, in order, in place of what was there. -/
def insertEntry {α : Type u} (k : String) (v : α) : List (String × α) → List (String × α)
  | [] => [(k, v)]
  | (k', v') :: rest =>
    if k < k' then (k, v) :: (k', v') :: rest
    else if k = k' then (k, v) :: rest
    else (k', v') :: insertEntry k v rest

theorem mem_insertEntry {α : Type u} {k : String} {v : α} {e : String × α}
    {l : List (String × α)} (h : e ∈ insertEntry k v l) : e = (k, v) ∨ e ∈ l := by
  induction l with
  | nil => simpa [insertEntry] using h
  | cons hd tl ih =>
    simp only [insertEntry] at h
    split at h
    · simpa using h
    · split at h
      · rcases List.mem_cons.1 h with h | h
        · exact .inl h
        · exact .inr (List.mem_cons_of_mem _ h)
      · rcases List.mem_cons.1 h with h | h
        · exact .inr (h ▸ List.mem_cons_self)
        · exact (ih h).imp id (List.mem_cons_of_mem _)

theorem insertEntry_ascending {α : Type u} (k : String) (v : α) {l : List (String × α)}
    (h : l.Pairwise fun a b => a.1 < b.1) :
    (insertEntry k v l).Pairwise fun a b => a.1 < b.1 := by
  induction l with
  | nil => simp [insertEntry]
  | cons hd tl ih =>
    obtain ⟨below, rest⟩ := List.pairwise_cons.1 h
    simp only [insertEntry]
    split
    · next lt =>
      refine List.pairwise_cons.2 ⟨fun e he => ?_, h⟩
      rcases List.mem_cons.1 he with rfl | he
      · exact lt
      · exact String.lt_trans lt (below e he)
    · split
      · next eq => exact List.pairwise_cons.2 ⟨fun e he => eq ▸ below e he, rest⟩
      · next nlt ne =>
        refine List.pairwise_cons.2 ⟨fun e he => ?_, ih rest⟩
        rcases mem_insertEntry he with rfl | he
        · exact Std.lt_of_le_of_ne (String.not_lt.1 nlt) (Ne.symm ne)
        · exact below e he

theorem lookup_insertEntry {α : Type u} (k : String) (v : α) (l : List (String × α))
    (x : String) : (insertEntry k v l).lookup x = if x = k then some v else l.lookup x := by
  induction l with
  | nil => by_cases h : x = k <;> simp [insertEntry, List.lookup_cons, h, beq_false_of_ne]
  | cons hd tl ih =>
    obtain ⟨k', v'⟩ := hd
    simp only [insertEntry]
    split
    · by_cases h : x = k <;> simp [List.lookup_cons, h, beq_false_of_ne]
    · split
      · next eq =>
        subst eq
        by_cases h : x = k <;> simp [List.lookup_cons, h, beq_false_of_ne]
      · next ne =>
        by_cases h' : x = k'
        · subst h'
          simp [Ne.symm ne]
        · by_cases h : x = k <;> simp_all [List.lookup_cons, beq_false_of_ne]

theorem lookup_eq_none_of_lt {α : Type u} {k : String} {l : List (String × α)}
    (h : ∀ e ∈ l, k < e.1) : l.lookup k = none := by
  rw [List.lookup_eq_none_iff]
  intro e he
  have lt := h e he
  simpa using fun eq : k = e.1 => String.lt_irrefl k (eq ▸ lt)

/-- In an ascending list every entry is the one that is looked up. -/
theorem lookup_eq_some_iff_mem {α : Type u} {l : List (String × α)}
    (h : l.Pairwise fun a b => a.1 < b.1) {k : String} {v : α} :
    l.lookup k = some v ↔ (k, v) ∈ l := by
  induction l with
  | nil => simp
  | cons e l ih =>
    obtain ⟨k', v'⟩ := e
    obtain ⟨below, tail⟩ := List.pairwise_cons.1 h
    by_cases same : k = k'
    · subst same
      have gone : (k, v) ∉ l := fun mem => String.lt_irrefl k (below (k, v) mem)
      simp only [List.lookup_cons, beq_self_eq_true, Option.some.injEq, List.mem_cons,
        Prod.mk.injEq, true_and, gone, or_false]
      exact eq_comm
    · simp only [List.lookup_cons, beq_false_of_ne same, List.mem_cons, Prod.mk.injEq, same,
        false_and, false_or]
      exact ih tail

/-- Of two ascending lists of entries with equal look-ups the first entries are equal, and so
on. -/
theorem eq_of_lookup_eq {α : Type u} {l m : List (String × α)}
    (hl : l.Pairwise fun a b => a.1 < b.1) (hm : m.Pairwise fun a b => a.1 < b.1)
    (h : ∀ k, l.lookup k = m.lookup k) : l = m := by
  induction l generalizing m with
  | nil =>
    cases m with
    | nil => rfl
    | cons e m =>
      obtain ⟨k, v⟩ := e
      simpa using h k
  | cons d l ih =>
    obtain ⟨k, v⟩ := d
    obtain ⟨below, tail⟩ := List.pairwise_cons.1 hl
    cases m with
    | nil => simpa [List.lookup_cons] using h k
    | cons e m =>
      obtain ⟨k', v'⟩ := e
      obtain ⟨below', tail'⟩ := List.pairwise_cons.1 hm
      have same : k = k' := by
        by_cases eq : k = k'
        · exact eq
        · have here := h k
          have there := h k'
          rcases String.le_total k k' with le | le
          · have lt := Std.lt_of_le_of_ne le eq
            have gone := lookup_eq_none_of_lt (k := k) (l := m)
              fun e he => String.lt_trans lt (below' e he)
            simp [List.lookup_cons, beq_false_of_ne eq, gone] at here
          · have lt := Std.lt_of_le_of_ne le (Ne.symm eq)
            have gone := lookup_eq_none_of_lt (k := k') (l := l)
              fun e he => String.lt_trans lt (below e he)
            simp [List.lookup_cons, beq_false_of_ne (Ne.symm eq), gone] at there
      subst same
      have value : v = v' := by simpa [List.lookup_cons] using h k
      have rest : l = m := by
        refine ih tail tail' fun x => ?_
        by_cases eq : x = k
        · subst eq
          rw [lookup_eq_none_of_lt below, lookup_eq_none_of_lt below']
        · simpa [List.lookup_cons, beq_false_of_ne eq] using h x
      rw [value, rest]

theorem lookup_filter {α : Type u} {l : List (String × α)}
    (h : l.Pairwise fun a b => a.1 < b.1) (p : α → Bool) (k : String) :
    (l.filter fun e => p e.2).lookup k = (l.lookup k).filter p := by
  ext v
  rw [lookup_eq_some_iff_mem (h.filter _), List.mem_filter, Option.filter_eq_some_iff,
    lookup_eq_some_iff_mem h]

structure SortedMap (α : Type u) where
  toList : List (String × α)
  ascending : toList.Pairwise fun a b => a.1 < b.1
  deriving DecidableEq

namespace SortedMap

variable {α : Type u}

def empty : SortedMap α := ⟨[], .nil⟩

instance : Inhabited (SortedMap α) := ⟨empty⟩

def isEmpty (m : SortedMap α) : Bool := m.toList.isEmpty

def get? (m : SortedMap α) (k : String) : Option α := m.toList.lookup k

def insert (m : SortedMap α) (k : String) (v : α) : SortedMap α :=
  ⟨insertEntry k v m.toList, insertEntry_ascending k v m.ascending⟩

def erase (m : SortedMap α) (k : String) : SortedMap α :=
  ⟨m.toList.filter (·.1 ≠ k), m.ascending.filter _⟩

/-- Of entries with one key the last counts. -/
def ofList (entries : List (String × α)) : SortedMap α :=
  entries.foldl (fun m e => m.insert e.1 e.2) empty

def keys (m : SortedMap α) : List String := m.toList.map Prod.fst

@[simp] theorem get?_empty (k : String) : (empty : SortedMap α).get? k = none := rfl

@[simp] theorem get?_insert (m : SortedMap α) (k x : String) (v : α) :
    (m.insert k v).get? x = if x = k then some v else m.get? x :=
  lookup_insertEntry k v m.toList x

@[simp] theorem get?_erase (m : SortedMap α) (k x : String) :
    (m.erase k).get? x = if x = k then none else m.get? x := by
  show (m.toList.filter (·.1 ≠ k)).lookup x = if x = k then none else m.toList.lookup x
  induction m.toList with
  | nil => simp
  | cons e l ih =>
    obtain ⟨k', v⟩ := e
    by_cases h : k' = k
    · subst h
      rw [List.filter_cons_of_neg (by simp), ih]
      by_cases hx : x = k' <;> simp [List.lookup_cons, hx, beq_false_of_ne]
    · rw [List.filter_cons_of_pos (by simpa using h)]
      by_cases hx : x = k'
      · subst hx
        simp [h]
      · simpa [List.lookup_cons, beq_false_of_ne hx] using ih

theorem mem_of_mem_erase {m : SortedMap α} {k : String} {e : String × α}
    (h : e ∈ (m.erase k).toList) : e ∈ m.toList :=
  (List.mem_filter.1 h).1

theorem toList_inj {m n : SortedMap α} : m.toList = n.toList ↔ m = n := by
  cases m
  cases n
  simp

theorem mem_toList_iff {m : SortedMap α} {k : String} {v : α} :
    (k, v) ∈ m.toList ↔ m.get? k = some v :=
  (lookup_eq_some_iff_mem m.ascending).symm

/-- Maps that agree where `p` holds have the same entries there. -/
theorem filter_toList_congr {m n : SortedMap α} {p : α → Bool}
    (h : ∀ k, (m.get? k).filter p = (n.get? k).filter p) :
    (m.toList.filter fun e => p e.2) = n.toList.filter fun e => p e.2 := by
  refine eq_of_lookup_eq (m.ascending.filter _) (n.ascending.filter _) fun k => ?_
  rw [lookup_filter m.ascending, lookup_filter n.ascending]
  exact h k

theorem mem_of_mem_ofList {e : String × α} {entries : List (String × α)}
    (h : e ∈ (ofList entries).toList) : e ∈ entries := by
  have step : ∀ (l : List (String × α)) (m : SortedMap α),
      e ∈ (l.foldl (fun m e => m.insert e.1 e.2) m).toList → e ∈ m.toList ∨ e ∈ l := by
    intro l
    induction l with
    | nil => exact fun m h => .inl h
    | cons d l ih =>
      intro m h
      rcases ih _ h with old | new
      · rcases mem_insertEntry old with rfl | old
        · exact .inr List.mem_cons_self
        · exact .inl old
      · exact .inr (List.mem_cons_of_mem _ new)
  exact (step entries empty h).resolve_left (by simp [empty])

/-- Two maps with the same look-ups are one map. -/
@[ext] theorem ext {m n : SortedMap α} (h : ∀ k, m.get? k = n.get? k) : m = n := by
  obtain ⟨l, hl⟩ := m
  obtain ⟨l', hl'⟩ := n
  cases eq_of_lookup_eq hl hl' h
  rfl

theorem insert_comm (m : SortedMap α) {k k' : String} {v v' : α} (differ : k ≠ k') :
    (m.insert k v).insert k' v' = (m.insert k' v').insert k v := by
  refine ext fun x => ?_
  simp only [get?_insert]
  by_cases first : x = k
  · simp [first, differ]
  · simp [first]

/-- If no key comes twice, the order of the entries does not matter. -/
theorem get?_ofList {entries : List (String × α)}
    (distinct : entries.Pairwise fun a b => a.1 ≠ b.1) (k : String) :
    (ofList entries).get? k = entries.lookup k := by
  have step : ∀ (l : List (String × α)) (m : SortedMap α), l.Pairwise (fun a b => a.1 ≠ b.1) →
      (l.foldl (fun m e => m.insert e.1 e.2) m).get? k = (l.lookup k).or (m.get? k) := by
    intro l
    induction l with
    | nil => exact fun m _ => rfl
    | cons e l ih =>
      intro m distinct
      obtain ⟨k', v⟩ := e
      obtain ⟨new, others⟩ := List.pairwise_cons.1 distinct
      rw [List.foldl_cons, ih _ others, get?_insert, List.lookup_cons]
      by_cases same : k = k'
      · subst same
        have gone : l.lookup k = none := by
          rw [List.lookup_eq_none_iff]
          intro e mem
          simpa using new e mem
        simp [gone]
      · simp [same, beq_false_of_ne]
  exact (step entries empty distinct).trans (Option.or_none ..)

theorem ofList_toList (m : SortedMap α) : ofList m.toList = m := by
  refine ext fun k => get?_ofList (m.ascending.imp fun below same => ?_) k
  rw [same] at below
  exact String.lt_irrefl _ below

end SortedMap

end ProviderRoles
