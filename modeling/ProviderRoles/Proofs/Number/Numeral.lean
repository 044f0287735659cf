import Mathlib
import ProviderRoles.Config.Environment

/-! Decimal numerals. A variable whose text is one has an integer as its value. -/
namespace ProviderRoles

/-- A decimal text of the number: one or more digits, also with zeros in front, behind a plus sign or
none. Zero may have a minus sign. -/
def IsNumeral (n : Nat) (text : String) : Prop :=
  ∃ ds : List Char,
    (text.toList = ds ∨ text.toList = '+' :: ds ∨ text.toList = '-' :: ds ∧ n = 0) ∧
    ds ≠ [] ∧ (∀ d ∈ ds, d.isDigit = true) ∧ Digits.number ds = n

theorem isNumeral_toString (n : Nat) : IsNumeral n (toString n) := by
  rw [Nat.toString_eq_repr]
  refine ⟨Nat.toDigits 10 n, .inl Nat.toList_repr, Nat.toDigits_ne_nil, ?_, ?_⟩
  · exact fun d mem => Nat.isDigit_of_mem_toDigits (by decide) (by decide) mem
  · have value := Nat.ofDigitChars_ten_toDigits (n := n)
    simpa only [Digits.number, Digits.value, Nat.ofDigitChars, Nat.mul_comm] using value

variable {n : Nat} {text : String} {c : Char} {ds : List Char}

theorem isAlpha_of_isDigit (h : c.isDigit = true) : c.isAlpha = false := by
  simp only [Char.isDigit, Char.isAlpha, Char.isUpper, Char.isLower, Bool.and_eq_true,
    Bool.or_eq_false_iff, Bool.and_eq_false_iff, decide_eq_true_eq, decide_eq_false_iff_not,
    ge_iff_le, UInt32.le_iff_toNat_le] at h ⊢
  have nine : '9'.val.toNat = 57 := rfl
  have upper : 'A'.val.toNat = 65 := rfl
  have lower : 'a'.val.toNat = 97 := rfl
  omega

theorem head?_lower_of_isNumeral (h : IsNumeral n text) {letter : Char}
    (alpha : letter.isAlpha = true) : (Environment.lower text).head? ≠ some letter := by
  obtain ⟨ds, shape, filled, digits, _⟩ := h
  obtain ⟨d, rest, rfl⟩ := List.exists_cons_of_ne_nil filled
  intro starts
  rcases shape with plain | signed | ⟨signed, _⟩
  · have digit := digits d List.mem_cons_self
    have noKelvin : d ≠ '\u212a' := by
      rintro rfl
      contradiction
    rw [Environment.lower, plain, List.map_cons, List.head?_cons, if_neg noKelvin] at starts
    rw [← Option.some.inj starts, Char.isAlpha_toLower_eq_isAlpha, isAlpha_of_isDigit digit] at alpha
    contradiction
  all_goals
    rw [Environment.lower, signed] at starts
    cases Option.some.inj starts
    contradiction

theorem sign_of_digits (digits : ∀ d ∈ ds, d.isDigit = true) : NumberText.sign ds = (false, ds) := by
  cases ds with
  | nil => rfl
  | cons d ds =>
    have digit := digits d List.mem_cons_self
    unfold NumberText.sign
    split
    · next same =>
      obtain ⟨rfl, _⟩ := List.cons.inj same
      contradiction
    · next same =>
      obtain ⟨rfl, _⟩ := List.cons.inj same
      contradiction
    · rfl

theorem int64?_of_isNumeral (h : IsNumeral n text) (small : n < 2 ^ 63) :
    NumberText.int64? text.toList = some (n : Int) := by
  obtain ⟨ds, shape, filled, digits, value⟩ := h
  have read : NumberText.nat? ds = some n := by
    have all : ds.all Char.isDigit = true := List.all_eq_true.2 digits
    rw [NumberText.nat?, all, value]
    simp [filled]
  have fits : FitsSigned n := by
    constructor <;> omega
  have number : NumberText.int? text.toList = some (n : Int) := by
    rw [NumberText.int?]
    rcases shape with plain | signed | ⟨signed, rfl⟩
    · rw [plain, sign_of_digits digits]
      simp [read]
    · rw [signed, NumberText.sign]
      simp [read]
    · rw [signed, NumberText.sign]
      simp [read]
  rw [NumberText.int64?, number]
  simp [fits]

theorem scalar_of_isNumeral (h : IsNumeral n text) (small : n < 2 ^ 63) :
    Environment.scalar text = .int n := by
  have noTrue : Environment.lower text ≠ "true".toList := fun same =>
    head?_lower_of_isNumeral h (by decide : 't'.isAlpha = true) (congrArg List.head? same)
  have noFalse : Environment.lower text ≠ "false".toList := fun same =>
    head?_lower_of_isNumeral h (by decide : 'f'.isAlpha = true) (congrArg List.head? same)
  rw [Environment.scalar, if_neg noTrue, if_neg noFalse, int64?_of_isNumeral h small]

end ProviderRoles
