import Mathlib.Data.List.TakeWhile
import ProviderRoles.Proofs.Except
import ProviderRoles.Timestamp.Text

/-! A timestamp that has a text is read back from it, to the last digit of the fraction and with its
offset. What has been read from any text has a text again. -/
namespace ProviderRoles.Timestamp

/-- All components have a place in the text. -/
structure Printable (t : Timestamp) : Prop where
  year : 0 ≤ t.date.year ∧ t.date.year ≤ 9999
  belowDay : t.offset.natAbs < 24 * 3600
  wholeMinutes : t.offset % 60 = 0

theorem unprintable?_eq_none_iff {t : Timestamp} : t.unprintable? = none ↔ t.Printable := by
  unfold unprintable?
  constructor
  · intro h
    split at h
    · contradiction
    · split at h
      · contradiction
      · split at h
        · contradiction
        · constructor <;> omega
  · intro h
    have year := h.year
    have belowDay := h.belowDay
    have wholeMinutes := h.wholeMinutes
    rw [if_neg (by omega), if_neg (by omega), if_neg (by omega)]

theorem write_eq_ok_iff {t : Timestamp} : (∃ s, t.write = .ok s) ↔ t.Printable := by
  rw [← unprintable?_eq_none_iff]
  unfold write
  cases t.unprintable? <;> simp

/-! Digits. -/

theorem isDigit_digit (n : Nat) : (digit n).isDigit = true := by
  have all : ∀ d < 10, (Nat.digitChar d).isDigit = true := by decide
  exact all _ (Nat.mod_lt n (by decide))

theorem value_digit (n : Nat) : Digits.value (digit n) = n % 10 := by
  have all : ∀ d < 10, Digits.value (Nat.digitChar d) = d := by decide
  exact all _ (Nat.mod_lt n (by decide))

theorem number_two {n : Nat} (small : n < 100) : Digits.number (two n) = n := by
  simp only [two, Digits.number, List.foldl_cons, List.foldl_nil, value_digit]
  omega

theorem number_four {n : Nat} (small : n < 10000) : Digits.number (four n) = n := by
  simp only [four, two, List.cons_append, List.nil_append, Digits.number, List.foldl_cons,
    List.foldl_nil, value_digit]
  omega

theorem number_nine {n : Nat} (small : n < 1000000000) : Digits.number (nine n) = n := by
  simp only [nine, four, two, List.cons_append, List.nil_append, Digits.number, List.foldl_cons,
    List.foldl_nil, value_digit]
  omega

theorem isDigit_of_mem_nine {n : Nat} {c : Char} (mem : c ∈ nine n) : c.isDigit = true := by
  simp only [nine, four, two, List.cons_append, List.nil_append, List.mem_cons, List.not_mem_nil,
    or_false] at mem
  rcases mem with rfl | rfl | rfl | rfl | rfl | rfl | rfl | rfl | rfl <;> exact isDigit_digit _

/-! Each part is read off the front of what is written for it. -/

theorem readTwo_two (c : Component) {n : Nat} (small : n < 100) (rest : List Char) :
    readTwo c (two n ++ rest) = .ok (n, rest) := by
  have number := number_two small
  unfold two at number ⊢
  simp [readTwo, isDigit_digit, number]

theorem readYear_four {n : Nat} (small : n < 10000) (rest : List Char) :
    readYear (four n ++ rest) = .ok (n, rest) := by
  have number := number_four small
  simp only [four, two, List.cons_append, List.nil_append] at number ⊢
  simp [readYear, isDigit_digit, number]

theorem readMonth_two {n : Nat} (positive : 1 ≤ n) (small : n < 100) (rest : List Char) :
    readMonth (two n ++ rest) = .ok (n, rest) := by
  have nonzero : n ≠ 0 := by omega
  simp [readMonth, readTwo_two .month small, bind, Except.bind, nonzero]

theorem readLiteral_self (c : Char) (rest : List Char) : readLiteral c (c :: rest) = .ok rest := by
  simp [readLiteral]

theorem readSeparator_T (rest : List Char) : readSeparator ('T' :: rest) = .ok rest := by
  simp [readSeparator]

/-- A text that does not go on with a fraction or its digits. -/
def EndsFraction (rest : List Char) : Prop := ∀ c ∈ rest.head?, c.isDigit = false ∧ c ≠ '.'

theorem EndsFraction.takeWhile {rest : List Char} (h : EndsFraction rest) :
    rest.takeWhile Char.isDigit = [] ∧ rest.dropWhile Char.isDigit = rest := by
  cases rest with
  | nil => exact ⟨rfl, rfl⟩
  | cons c rest =>
    have plain := (h c rfl).1
    simp [plain]

/-- The digits of a fraction, and the zeros that are left out after them. -/
theorem exists_fraction (n : Nat) : ∃ ds k, fractionText n = (if n = 0 then [] else '.' :: ds) ∧
    nine n = ds ++ List.replicate k '0' := by
  -- The zeros are counted from behind, where writing drops them.
  let zeros := (nine n).reverse.takeWhile (· = '0')
  have same : zeros = List.replicate zeros.length '0' := by
    rw [List.eq_replicate_iff]
    refine ⟨rfl, fun c mem => ?_⟩
    have zero := List.mem_takeWhile_imp mem
    exact of_decide_eq_true zero
  have parts : zeros ++ (nine n).reverse.dropWhile (· = '0') = (nine n).reverse :=
    List.takeWhile_append_dropWhile
  refine ⟨((nine n).reverse.dropWhile (· = '0')).reverse, zeros.length, rfl, ?_⟩
  have whole := congrArg List.reverse parts
  rw [List.reverse_append, List.reverse_reverse, same, List.reverse_replicate] at whole
  exact whole.symm

theorem nanoseconds_of_nine {n k : Nat} {ds : List Char} (small : n < 1000000000)
    (parts : nine n = ds ++ List.replicate k '0') : nanoseconds ds = n := by
  have count : ds.length + k = 9 := by
    have length := congrArg List.length parts
    simpa [nine, four, two] using length.symm
  have padded : (ds ++ List.replicate 9 '0').take 9 = ds ++ List.replicate k '0' := by
    rw [List.take_append, List.take_of_length_le (by omega), List.take_replicate]
    congr 2
    omega
  rw [nanoseconds, padded, ← parts, number_nine small]

theorem readFraction_fractionText {n : Nat} (small : n < 1000000000) {rest : List Char}
    (ends : EndsFraction rest) : readFraction (fractionText n ++ rest) = .ok (n, rest) := by
  obtain ⟨ds, k, text, parts⟩ := exists_fraction n
  rw [text]
  split
  · next zero =>
    -- Nothing is written, and what follows does not start with a point.
    subst zero
    cases rest with
    | nil => rfl
    | cons c rest =>
      have noPoint := (ends c rfl).2
      rw [List.nil_append]
      unfold readFraction
      split
      · next here => exact absurd (List.cons.inj here).1 noPoint
      · rfl
  · next nonzero =>
    have number := nanoseconds_of_nine small parts
    have digits : ∀ c ∈ ds, c.isDigit = true := fun c mem =>
      isDigit_of_mem_nine (n := n) (parts ▸ List.mem_append_left _ mem)
    have some : ds ≠ [] := by
      intro none
      rw [none] at number
      exact nonzero number.symm
    obtain ⟨stop, left⟩ := ends.takeWhile
    have front : (ds ++ rest).takeWhile Char.isDigit = ds := by
      rw [List.takeWhile_append_of_pos digits, stop, List.append_nil]
    have back : (ds ++ rest).dropWhile Char.isDigit = rest := by
      rw [List.dropWhile_append_of_pos digits, left]
    simp only [List.cons_append, readFraction, front, back]
    cases ds with
    | nil => exact absurd rfl some
    | cons d ds => simp only [number]

theorem endsFraction_offsetText (offset : Int) : EndsFraction (offsetText offset) := by
  intro c mem
  unfold offsetText at mem
  split at mem
  · cases mem
    decide
  · split at mem
    · cases mem
      decide
    · cases mem
      decide

theorem readOffset_offsetText {offset : Int} (belowDay : offset.natAbs < 24 * 3600)
    (wholeMinutes : offset % 60 = 0) : readOffset (offsetText offset) = .ok (offset / 60, []) := by
  unfold offsetText
  split
  · next zero =>
    subst zero
    rfl
  · have hour : offset.natAbs / 60 / 60 < 24 := by omega
    have minute : offset.natAbs / 60 % 60 < 60 := by omega
    have hours := readTwo_two .offsetHour (n := offset.natAbs / 60 / 60) (by omega)
      (':' :: two (offset.natAbs / 60 % 60))
    have minutes := readTwo_two .offsetMinute (n := offset.natAbs / 60 % 60) (by omega) []
    rw [List.append_nil] at minutes
    have inHours : ¬ 23 < offset.natAbs / 60 / 60 := by omega
    have inMinutes : ¬ 59 < offset.natAbs / 60 % 60 := by omega
    split
    · next negative =>
      have sum : -((offset.natAbs / 60 / 60 : Nat) * 60 + (offset.natAbs / 60 % 60 : Nat) : Int) =
          offset / 60 := by omega
      simp only [readOffset, hours, minutes, readLiteral_self, bind, Except.bind, inHours, inMinutes,
        Char.reduceEq, or_self, ↓reduceIte, or_true, sum]
    · next positive =>
      have sum : ((offset.natAbs / 60 / 60 : Nat) * 60 + (offset.natAbs / 60 % 60 : Nat) : Int) =
          offset / 60 := by omega
      simp only [readOffset, hours, minutes, readLiteral_self, bind, Except.bind, inHours, inMinutes,
        Char.reduceEq, or_self, ↓reduceIte, true_or, sum]

theorem dateOf_date (d : Date) (year : 0 ≤ d.year) :
    dateOf d.year.toNat d.month d.day = .ok d := by
  have same : (d.year.toNat : Int) = d.year := Int.toNat_of_nonneg year
  obtain ⟨y, month, day, year_range, month_range, day_range⟩ := d
  simp only [dateOf, same, month_range, day_range, year_range, and_self, ↓reduceDIte]

theorem timeOf_time (t : TimeOfDay) :
    timeOf t.hour t.minute t.second t.nanosecond = .ok t := by
  simp only [timeOf, t.hour_range, t.minute_range, t.second_range, t.nanosecond_range, ↓reduceDIte]

theorem assemble_parts {t : Timestamp} (h : t.Printable) :
    assemble t.date.year.toNat t.date.month t.date.day t.time.hour t.time.minute t.time.second
      t.time.nanosecond (t.offset / 60) = .ok t := by
  have belowDay := h.belowDay
  have wholeMinutes := h.wholeMinutes
  have noLeap : t.time.second ≠ 60 := by
    have := t.time.second_range
    omega
  have offset : t.offset / 60 * 60 = t.offset := by omega
  have range : (t.offset / 60 * 60).natAbs < 26 * 3600 := by omega
  simp only [assemble, dateOf_date _ h.year.1, timeOf_time, bind, Except.bind, noLeap,
    false_and, ↓reduceIte, range, ↓reduceDIte]
  simp only [offset]

/-- Reading gives back what was written. -/
theorem read_write {t : Timestamp} (h : t.Printable) : ∃ s, t.write = .ok s ∧ read s = .ok t := by
  have written : t.unprintable? = none := unprintable?_eq_none_iff.2 h
  have days : daysInMonth t.date.year t.date.month ≤ 31 := by
    unfold daysInMonth
    split
    · split <;> omega
    · split <;> omega
  have year := h.year
  have month := t.date.month_range
  have day := t.date.day_range
  have hour := t.time.hour_range
  have minute := t.time.minute_range
  have second := t.time.second_range
  refine ⟨_, by rw [write, written], ?_⟩
  simp only [List.append_assoc, List.cons_append]
  simp only [read, bind, Except.bind, readLiteral_self, readSeparator_T,
    readYear_four (n := t.date.year.toNat) (by omega), readMonth_two month.1 (by omega),
    readTwo_two .day (n := t.date.day) (by omega), readTwo_two .hour (n := t.time.hour) (by omega),
    readTwo_two .minute (n := t.time.minute) (by omega),
    readTwo_two .second (n := t.time.second) (by omega),
    readFraction_fractionText t.time.nanosecond_range (endsFraction_offsetText t.offset),
    readOffset_offsetText h.belowDay h.wholeMinutes, List.isEmpty_nil, ↓reduceIte]
  exact assemble_parts h

/-! What is read has a text. A leap second is no exception, since it is not kept. -/

theorem belowDay_of_readOffset {s rest : List Char} {offset : Int}
    (h : readOffset s = .ok (offset, rest)) : offset.natAbs < 24 * 60 := by
  unfold readOffset at h
  split at h
  · contradiction
  · split at h
    · cases h
      decide
    · split at h
      · obtain ⟨⟨hour, afterHour⟩, _, h⟩ := eq_ok_of_bind h
        dsimp only at h
        split at h
        · contradiction
        · next inHours =>
          obtain ⟨afterColon, _, h⟩ := eq_ok_of_bind h
          obtain ⟨⟨minute, afterMinute⟩, _, h⟩ := eq_ok_of_bind h
          dsimp only at h
          split at h
          · contradiction
          · next inMinutes =>
            have sum := (Prod.mk.inj (Except.ok.inj h)).1
            split at sum <;> omega
      · contradiction

theorem year_of_dateOf {year month day : Nat} {date : Date}
    (h : dateOf year month day = .ok date) : date.year = year := by
  unfold dateOf at h
  split at h
  · split at h
    · split at h
      · cases h
        rfl
      · contradiction
    · contradiction
  · contradiction

theorem printable_of_assemble {year month day hour minute second nanosecond : Nat} {offset : Int}
    {t : Timestamp} (belowDay : offset.natAbs < 24 * 60)
    (h : assemble year month day hour minute second nanosecond offset = .ok t) : t.Printable := by
  unfold assemble at h
  obtain ⟨date, dated, h⟩ := eq_ok_of_bind h
  have sameYear := year_of_dateOf dated
  have range := date.year_range
  have last : ∀ time : TimeOfDay, (if second = 60 ∧ !endsMonth date hour minute offset then
      .error (.outOfRange .second)
      else if h : (offset * 60).natAbs < 26 * 3600 then .ok ⟨date, time, offset * 60, h⟩
      else .error (.outOfRange .offsetHour) : Except ReadError Timestamp) = .ok t →
      t.Printable := by
    intro time h
    split at h
    · contradiction
    · split at h
      · cases h
        constructor <;> dsimp only <;> omega
      · contradiction
  dsimp only at h
  split at h
  · obtain ⟨time, _, h⟩ := eq_ok_of_bind h
    exact last time h
  · obtain ⟨time, _, h⟩ := eq_ok_of_bind h
    exact last time h

theorem printable_of_read {s : List Char} {t : Timestamp} (h : read s = .ok t) : t.Printable := by
  unfold read at h
  obtain ⟨year, _, h⟩ := eq_ok_of_bind h
  obtain ⟨afterYear, _, h⟩ := eq_ok_of_bind h
  obtain ⟨month, _, h⟩ := eq_ok_of_bind h
  obtain ⟨afterMonth, _, h⟩ := eq_ok_of_bind h
  obtain ⟨day, _, h⟩ := eq_ok_of_bind h
  obtain ⟨afterDay, _, h⟩ := eq_ok_of_bind h
  obtain ⟨hour, _, h⟩ := eq_ok_of_bind h
  obtain ⟨afterHour, _, h⟩ := eq_ok_of_bind h
  obtain ⟨minute, _, h⟩ := eq_ok_of_bind h
  obtain ⟨afterMinute, _, h⟩ := eq_ok_of_bind h
  obtain ⟨second, _, h⟩ := eq_ok_of_bind h
  obtain ⟨nanosecond, _, h⟩ := eq_ok_of_bind h
  obtain ⟨⟨offset, rest⟩, offsetRead, h⟩ := eq_ok_of_bind h
  have belowDay := belowDay_of_readOffset offsetRead
  dsimp only at h
  split at h
  · exact printable_of_assemble belowDay h
  · contradiction

example : (read "2016-12-31T23:59:60Z".toList).toOption.bind (·.write.toOption) =
    some "2016-12-31T23:59:59.999999999Z".toList := by rfl

end ProviderRoles.Timestamp
