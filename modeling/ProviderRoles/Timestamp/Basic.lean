/-! Points in time with the offset from UTC at which they were noted. The offset is part
of the value: one instant at two offsets makes two timestamps. -/
namespace ProviderRoles

/-- A leap year of the Gregorian calendar, extended to all years. -/
def isLeapYear (year : Int) : Bool := year % 4 = 0 && (year % 100 ≠ 0 || year % 400 = 0)

def daysInMonth (year : Int) (month : Nat) : Nat :=
  if month = 2 then if isLeapYear year then 29 else 28
  else if month = 4 ∨ month = 6 ∨ month = 9 ∨ month = 11 then 30
  else 31

structure Date where
  year : Int
  month : Nat
  day : Nat
  year_range : -9999 ≤ year ∧ year ≤ 9999
  month_range : 1 ≤ month ∧ month ≤ 12
  day_range : 1 ≤ day ∧ day ≤ daysInMonth year month
  deriving DecidableEq

/-- A time of day without leap seconds. -/
structure TimeOfDay where
  hour : Nat
  minute : Nat
  second : Nat
  nanosecond : Nat
  hour_range : hour < 24
  minute_range : minute < 60
  second_range : second < 60
  nanosecond_range : nanosecond < 1000000000
  deriving DecidableEq

/-- Date and time at `offset` seconds east of UTC, which is less than 26 hours away. -/
structure Timestamp where
  date : Date
  time : TimeOfDay
  offset : Int
  offset_range : offset.natAbs < 26 * 3600
  deriving DecidableEq

namespace Timestamp

def epoch : Timestamp :=
  { date := ⟨1970, 1, 1, by decide, by decide, by decide⟩
    time := ⟨0, 0, 0, 0, by decide, by decide, by decide, by decide⟩
    offset := 0
    offset_range := by decide }

/-- A minute at the given offset, in minutes, that is the last one of a month in UTC. -/
def endsMonth (date : Date) (hour minute : Nat) (offset : Int) : Bool :=
  let passed : Int := hour * 60 + minute - offset
  let shift := passed / 1440
  passed % 1440 = 1439 &&
    (shift = 0 && date.day = daysInMonth date.year date.month
      || shift = -1 && date.day = 1
      || shift = 1 && date.day + 1 = daysInMonth date.year date.month)

end Timestamp

end ProviderRoles
