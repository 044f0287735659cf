import ProviderRoles.Json.Decode
import ProviderRoles.Proofs.Except
import ProviderRoles.Proofs.Timestamp.RoundTrip

/-! Decoding what was encoded, field by field. A field that is left out is read as its default, so
an encoder may leave out just that. -/
namespace ProviderRoles.Decode

open Json

variable {α : Type} {d : Decoder α} {f : α → Json} {ms : SortedMap Json} {xs : List Json}
  {name : String} {a : α} {v : Option α}

/-- A record is read back from its fields if its members are, wherever each is found under its
name. -/
theorem record_ofFields {fields : List (String × Option Json)} {arity : Nat}
    {ofMembers : SortedMap Json → Except DecodeError α} {ofItems : List Json → Except DecodeError α}
    (apart : fields.Pairwise fun a b => a.1 ≠ b.1)
    (read : ∀ ms, (∀ name v, (name, v) ∈ fields → SortedMap.get? ms name = v) →
      ofMembers ms = .ok a) :
    record name arity ofMembers ofItems (.ofMap (ofFields fields)) = .ok a := by
  have members := read (ofFields fields) fun _ _ => get?_ofFields apart
  rw [ofMap, record, SortedMap.ofList_toList, members]

theorem record_ofMap (name : String) (arity : Nat)
    (ofMembers : SortedMap Json → Except DecodeError α) (ofItems : List Json → Except DecodeError α)
    (ms : SortedMap Json) : record name arity ofMembers ofItems (.ofMap ms) = ofMembers ms := by
  rw [ofMap, record, SortedMap.ofList_toList]

theorem record_cases {arity : Nat} {ofMembers : SortedMap Json → Except DecodeError α}
    {ofItems : List Json → Except DecodeError α} {x : Json}
    (h : record name arity ofMembers ofItems x = .ok a) :
    (∃ ms, ofMembers ms = .ok a) ∨ ∃ xs, ofItems xs = .ok a := by
  unfold record at h
  split at h
  · exact .inl ⟨_, h⟩
  · obtain ⟨b, read, h⟩ := eq_ok_of_bind h
    split at h
    · contradiction
    · cases h
      exact .inr ⟨_, read⟩
  · contradiction

/-! Values. -/

theorem list_map {l : List α} (h : ∀ a ∈ l, d (f a) = .ok a) :
    list d (.arr (l.map f)) = .ok l :=
  mapM_map h

theorem list_strings (texts : List String) : list string (strings texts) = .ok texts :=
  list_map fun _ _ => rfl

theorem stringMap_texts (m : SortedMap String) :
    stringMap (.obj (m.toList.map fun (k, v) => (k, .str v))) = .ok m := by
  have ascending : (m.toList.map fun e => (e.1, Json.str e.2)).Pairwise fun a b => a.1 < b.1 :=
    List.pairwise_map.2 m.ascending
  have sorted := SortedMap.ofList_toList ⟨_, ascending⟩
  have entries : (m.toList.map fun e => (e.1, Json.str e.2)).mapM
      (fun e => (string e.2).map (e.1, ·)) = .ok m.toList :=
    mapM_map fun _ _ => rfl
  have whole := SortedMap.ofList_toList m
  simp only [stringMap, sorted, entries, bind, Except.bind, pure, Except.pure, whole]

theorem signed64_toInt (n : Int64) : signed64 (.int n.toInt) = .ok n := by
  have low := n.le_toInt
  have high := n.toInt_lt
  have fits : FitsSigned n.toInt := by
    constructor <;> omega
  simp [signed64, fits]

theorem unsigned64_toNat (n : UInt64) : unsigned64 (.int n.toNat) = .ok n := by
  have high := n.toNat_lt
  have fits : FitsUnsigned n.toNat := by
    constructor <;> omega
  simp [unsigned64, fits]

theorem optional_eq {x : Json} (present : x ≠ .null) (read : d x = .ok a) :
    optional d x = .ok (some a) := by
  unfold optional
  split
  · contradiction
  · rw [read]
    rfl

/-! Fields that are there, and fields that may be left out. -/

theorem field?_there {x : Json} (there : ms.get? name = some x) (read : d x = .ok a) :
    field? ms name d = .ok (some a) := by
  rw [field?, there]
  exact congrArg (Except.map some) read

theorem field?_string {s : String} (there : ms.get? name = some (.str s)) :
    field? ms name string = .ok (some s) :=
  field?_there there rfl

theorem field?_absent (absent : ms.get? name = none) : field? ms name d = .ok none := by
  rw [field?, absent]

@[simp] theorem field?_insert_of_ne {k : String} {x : Json} (other : name ≠ k) :
    field? (ms.insert k x) name d = field? ms name d := by
  simp [field?, other]

@[simp] theorem field?_erase_of_ne {k : String} (other : name ≠ k) :
    field? (ms.erase k) name d = field? ms name d := by
  simp [field?, other]

theorem field?_optional (there : ms.get? name = v.map f) (present : ∀ a, f a ≠ .null)
    (read : ∀ a, d (f a) = .ok a) : ∃ w, field? ms name (optional d) = .ok w ∧ w.join = v := by
  cases v with
  | none => exact ⟨none, field?_absent there, rfl⟩
  | some a => exact ⟨some (some a), field?_there there (optional_eq (present a) (read a)), rfl⟩

/-- Only the default value is left out. -/
theorem field?_default {x : Json} {omitted : Bool} {b : α}
    (there : ms.get? name = if omitted then none else some x) (read : d x = .ok a)
    (blank : omitted = true → a = b) : ∃ w, field? ms name d = .ok w ∧ w.getD b = a := by
  cases omitted with
  | true => exact ⟨none, field?_absent there, (blank rfl).symm⟩
  | false => exact ⟨some a, field?_there there read, rfl⟩

theorem field?_list {l : List α}
    (there : ms.get? name = if l.isEmpty then none else some (.arr (l.map f)))
    (read : ∀ a, d (f a) = .ok a) : ∃ w, field? ms name (list d) = .ok w ∧ w.getD [] = l :=
  field?_default there (list_map fun a _ => read a) List.isEmpty_iff.1

/-! What is known of all decoded values is known of those in a record. -/

theorem exists_of_field? (h : field? ms name d = .ok v) : ∀ a ∈ v, ∃ x, d x = .ok a := by
  intro a mem
  unfold field? at h
  split at h
  · cases h
    contradiction
  · obtain ⟨b, read, same⟩ := eq_ok_of_map h
    cases same.trans mem
    exact ⟨_, read⟩

theorem exists_of_item? {i : Nat} (h : item? xs i d = .ok v) : ∀ a ∈ v, ∃ x, d x = .ok a := by
  intro a mem
  unfold item? at h
  split at h
  · cases h
    contradiction
  · obtain ⟨b, read, same⟩ := eq_ok_of_map h
    cases same.trans mem
    exact ⟨_, read⟩

theorem exists_of_optional {x : Json} (h : optional d x = .ok v) : ∀ a ∈ v, ∃ x, d x = .ok a := by
  intro a mem
  unfold optional at h
  split at h
  · cases h
    contradiction
  · obtain ⟨b, read, same⟩ := eq_ok_of_map h
    cases same.trans mem
    exact ⟨_, read⟩

theorem get?_of_required {v : Option String} {s : String} (read : field? ms name string = .ok v)
    (present : required name v = .ok s) : ms.get? name = some (.str s) := by
  unfold required at present
  split at present
  · cases present
    unfold field? at read
    split at read
    · cases read
    · next x there =>
      obtain ⟨b, text, same⟩ := eq_ok_of_map read
      cases same
      unfold string at text
      split at text
      · cases text
        exact there
      · contradiction
  · contradiction

theorem printable_of_timestamp {x : Json} {t : Timestamp} (h : timestamp x = .ok t) :
    t.Printable := by
  unfold timestamp at h
  split at h
  · exact Timestamp.printable_of_read (eq_ok_of_mapError h)
  · contradiction

theorem timestamp_of_write {t : Timestamp} {s : List Char} (written : t.write = .ok s) :
    timestamp (.str (String.ofList s)) = .ok t := by
  obtain ⟨s', written', read⟩ := Timestamp.read_write (Timestamp.write_eq_ok_iff.1 ⟨s, written⟩)
  cases written.symm.trans written'
  rw [timestamp, String.toList_ofList, read]
  rfl

end ProviderRoles.Decode
