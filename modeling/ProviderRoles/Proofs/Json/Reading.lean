import ProviderRoles.Json.Reader
import ProviderRoles.Proofs.Json.Comparable

/-! What texts can say. Rounding stops at the infinite, so no literal stands for a NaN, and there is
none in any value that is read from a text. -/
namespace ProviderRoles

namespace Binary64

theorem isNaN_ofMagnitude (negative : Bool) {magnitude : Nat}
    (small : magnitude ≤ infiniteMagnitude) : (ofMagnitude negative magnitude).isNaN = false := by
  have sign : powerOfTwo 63 = 2 ^ 63 := by decide
  have bound : infiniteMagnitude < 2 ^ 63 := by decide
  have same : (ofMagnitude negative magnitude).magnitude = magnitude := by
    simp only [ofMagnitude, Binary64.magnitude, UInt64.toNat_ofNat', sign]
    split <;> omega
  rw [isNaN, same, decide_eq_false_iff_not]
  exact Nat.not_lt.2 small

theorem isNaN_nearest (negative : Bool) (num den : Nat) :
    (nearest negative num den).isNaN = false :=
  isNaN_ofMagnitude negative (Nat.min_le_left _ _)

theorem isNaN_of_isZero {x : Binary64} (zero : x.isZero = true) : x.isNaN = false := by
  have nothing : x.magnitude = 0 := of_decide_eq_true zero
  rw [isNaN, nothing]
  rfl

end Binary64

namespace NumberLiteral

theorem isNaN_scaleDown (x : Binary64) (k : Nat) : (scaleDown x k).isNaN = false := by
  fun_induction scaleDown x k with
  | case1 x k small => exact Binary64.isNaN_nearest ..
  | case2 x k large zero => exact Binary64.isNaN_of_isZero zero
  | case3 x k large something ih => exact ih

theorem isNaN_of_scale {x y : Binary64} {exponent : Int} (h : scale x exponent = some y) :
    y.isNaN = false := by
  rw [scale] at h
  split at h
  · cases h
    exact isNaN_scaleDown ..
  · split at h
    · simp only at h
      split at h
      · contradiction
      · cases h
        exact Binary64.isNaN_nearest ..
    · split at h
      · rename_i zero
        cases h
        exact Binary64.isNaN_of_isZero zero
      · contradiction

theorem isNaN_of_toBinary64? {l : NumberLiteral} {x : Binary64} (h : l.toBinary64? = some x) :
    x.isNaN = false := by
  obtain ⟨y, found, rfl⟩ := Option.map_eq_some_iff.1 h
  have number : y.isNaN = false := by
    split at found
    · exact isNaN_of_scale found
    · split at found
      · contradiction
      · have zero := Option.some.inj found
        rw [← zero]
        exact Binary64.isNaN_nearest ..
  refine Binary64.isNaN_ofMagnitude _ ?_
  rw [Binary64.isNaN, decide_eq_false_iff_not] at number
  exact Nat.not_lt.1 number

theorem isComparable_of_toJson? {l : NumberLiteral} {j : Json} (h : l.toJson? = some j) :
    j.isComparable = true := by
  rw [toJson?] at h
  split at h
  · cases h
    rfl
  · obtain ⟨x, found, rfl⟩ := Option.map_eq_some_iff.1 h
    rw [Json.isComparable, isNaN_of_toBinary64? found]
    rfl

end NumberLiteral

namespace Json.Reader

theorem isComparable_of_number {s rest : List Char} {x : Json} (h : number s = some (x, rest)) :
    x.isComparable = true := by
  simp only [number, Option.bind_eq_bind, Option.bind_eq_some_iff] at h
  obtain ⟨_, _, h⟩ := h
  split at h
  · contradiction
  · simp only [Option.bind_eq_some_iff] at h
    obtain ⟨_, _, _, _, value, found, done⟩ := h
    cases done
    exact NumberLiteral.isComparable_of_toJson? found

/-- Whatever the three reading functions come to with so much fuel is comparable. -/
structure ReadsComparable (fuel : Nat) : Prop where
  value : ∀ depth s x rest, value fuel depth s = some (x, rest) → x.isComparable = true
  items : ∀ depth s xs rest, items fuel depth s = some (xs, rest) → itemsComparable xs = true
  members : ∀ depth s ms rest, members fuel depth s = some (ms, rest) →
    ∀ e ∈ ms, e.2.isComparable = true

section

variable {fuel depth : Nat} {s rest : List Char}
  (ih : ∀ less, fuel = less + 1 → ReadsComparable less)
include ih

theorem isComparable_of_value {x : Json} (h : value fuel depth s = some (x, rest)) :
    x.isComparable = true := by
  unfold value at h
  split at h
  · contradiction
  · cases h
    rfl
  · cases h
    rfl
  · cases h
    rfl
  · obtain ⟨_, _, done⟩ := Option.map_eq_some_iff.1 h
    cases done
    rfl
  · split at h
    · contradiction
    · split at h
      · cases h
        rfl
      · obtain ⟨⟨xs, _⟩, found, done⟩ := Option.map_eq_some_iff.1 h
        cases done
        exact (ih _ rfl).items _ _ _ _ found
  · split at h
    · contradiction
    · split at h
      · cases h
        rfl
      · obtain ⟨⟨ms, _⟩, found, done⟩ := Option.map_eq_some_iff.1 h
        cases done
        have all := (ih _ rfl).members _ _ _ _ found
        exact membersComparable_iff.2 fun e mem => all e (SortedMap.mem_of_mem_ofList mem)
  · exact isComparable_of_number h

theorem itemsComparable_of_items {xs : List Json} (h : items fuel depth s = some (xs, rest)) :
    itemsComparable xs = true := by
  unfold items at h
  split at h
  · contradiction
  · simp only [Option.bind_eq_bind, Option.bind_eq_some_iff] at h
    obtain ⟨⟨x, _⟩, first, h⟩ := h
    have head := (ih _ rfl).value _ _ _ _ first
    split at h
    · cases h
      rw [itemsComparable, head]
      rfl
    · simp only [Option.bind_eq_some_iff] at h
      obtain ⟨⟨xs', _⟩, others, done⟩ := h
      cases done
      rw [itemsComparable, head, (ih _ rfl).items _ _ _ _ others]
      rfl
    · contradiction

theorem isComparable_of_members {ms : List (String × Json)}
    (h : members fuel depth s = some (ms, rest)) : ∀ e ∈ ms, e.2.isComparable = true := by
  unfold members at h
  split at h
  · contradiction
  · simp only [Option.bind_eq_bind, Option.bind_eq_some_iff] at h
    obtain ⟨⟨name, _⟩, _, h⟩ := h
    split at h
    · simp only [Option.bind_eq_some_iff] at h
      obtain ⟨⟨x, _⟩, first, h⟩ := h
      have head := (ih _ rfl).value _ _ _ _ first
      split at h
      · cases h
        exact List.forall_mem_singleton.2 head
      · simp only [Option.bind_eq_some_iff] at h
        obtain ⟨⟨ms', _⟩, others, done⟩ := h
        cases done
        exact List.forall_mem_cons.2 ⟨head, (ih _ rfl).members _ _ _ _ others⟩
      · contradiction
    · contradiction

theorem readsComparable_of_less : ReadsComparable fuel :=
  ⟨fun _ _ _ _ => isComparable_of_value ih, fun _ _ _ _ => itemsComparable_of_items ih,
    fun _ _ _ _ => isComparable_of_members ih⟩

end

theorem readsComparable (fuel : Nat) : ReadsComparable fuel := by
  induction fuel with
  | zero => exact readsComparable_of_less fun less same => by contradiction
  | succ fuel ih => exact readsComparable_of_less fun less same => Nat.succ.inj same ▸ ih

theorem isComparable_of_read {text : List Char} {x : Json} (h : read text = some x) :
    x.isComparable = true := by
  simp only [read, Option.bind_eq_bind, Option.bind_eq_some_iff] at h
  obtain ⟨⟨x', rest⟩, found, done⟩ := h
  split at done
  · cases done
    exact (readsComparable _).value _ _ _ _ found
  · contradiction

end Json.Reader

end ProviderRoles
