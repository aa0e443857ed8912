/-!
# Dates and instants

A record carries the instant of its creation, in universal time and to the nanosecond. Dates are
those of the Gregorian calendar, extended to all years the format can write; a second may be the 60th,
which a leap second is.
-/

namespace SchemaForge

/-- Is February of the year 29 days long? -/
def isLeapYear (year : Int) : Bool := year % 4 == 0 && (year % 100 != 0 || year % 400 == 0)

/-- The number of days of a month. -/
def daysInMonth (year : Int) (month : Nat) : Nat :=
  if month = 2 then if isLeapYear year then 29 else 28
  else if month = 4 ∨ month = 6 ∨ month = 9 ∨ month = 11 then 30
  else 31

/-- The first year that a date can have. -/
def firstYear : Int := -262143

/-- The last year that a date can have. -/
def lastYear : Int := 262142

/-- A day of the calendar. -/
structure Date where
  year : Int
  month : Nat
  day : Nat
  year_mem : firstYear ≤ year ∧ year ≤ lastYear
  month_mem : 1 ≤ month ∧ month ≤ 12
  day_mem : 1 ≤ day ∧ day ≤ daysInMonth year month
  deriving DecidableEq

/-- The date with these parts, if the calendar has it. -/
def Date.ofParts? (year : Int) (month day : Nat) : Option Date :=
  if h : (firstYear ≤ year ∧ year ≤ lastYear) ∧ (1 ≤ month ∧ month ≤ 12)
      ∧ (1 ≤ day ∧ day ≤ daysInMonth year month) then
    some ⟨year, month, day, h.1, h.2.1, h.2.2⟩
  else none

/-- The day after, unless it lies beyond the last year. -/
def Date.next? (d : Date) : Option Date :=
  if d.day < daysInMonth d.year d.month then Date.ofParts? d.year d.month (d.day + 1)
  else if d.month < 12 then Date.ofParts? d.year (d.month + 1) 1
  else Date.ofParts? (d.year + 1) 1 1

/-- The day before, unless it lies before the first year. -/
def Date.previous? (d : Date) : Option Date :=
  if 1 < d.day then Date.ofParts? d.year d.month (d.day - 1)
  else if 1 < d.month then Date.ofParts? d.year (d.month - 1) (daysInMonth d.year (d.month - 1))
  else Date.ofParts? (d.year - 1) 12 31

theorem Date.ofParts?_self (d : Date) : Date.ofParts? d.year d.month d.day = some d := by
  rw [Date.ofParts?, dif_pos ⟨d.year_mem, d.month_mem, d.day_mem⟩]

/-- An instant in universal time. -/
structure Instant where
  date : Date
  /-- Minutes since the start of the day. -/
  minutes : Nat
  second : Nat
  nanosecond : Nat
  minutes_lt : minutes < 1440
  second_le : second ≤ 60
  nanosecond_lt : nanosecond < 1000000000
  deriving DecidableEq

/-- The instant whose clock, `offset` minutes ahead of universal time, shows this date and time. -/
def Instant.ofLocal? (date : Date) (minutes second nanosecond : Nat) (offset : Int)
    (second_le : second ≤ 60) (nanosecond_lt : nanosecond < 1000000000) : Option Instant :=
  let shifted : Int := minutes - offset
  let day? :=
    if shifted < 0 then date.previous? else if 1440 ≤ shifted then date.next? else some date
  day?.map fun day =>
    { date := day, minutes := (shifted % 1440).toNat, second, nanosecond,
      minutes_lt := by omega, second_le, nanosecond_lt }

/-- The start of the year 1970. -/
def Instant.epoch : Instant :=
  { date := ⟨1970, 1, 1, by decide, by decide, by decide⟩, minutes := 0, second := 0,
    nanosecond := 0, minutes_lt := by decide, second_le := by decide, nanosecond_lt := by decide }

end SchemaForge
