set_option autoImplicit false

/-!
# Instant: calendar dates

Dates of the Gregorian calendar, extended to years before and after its use, with a year zero.  A `Date`
is a valid one by construction.  Besides the neighbours of a date there is its day number, by which dates
that lie far apart are reached.
-/

namespace StatusBoard

/-- The year has a twenty-ninth of February. -/
def isLeapYear (year : Int) : Bool :=
  year % 4 == 0 && (year % 100 != 0 || year % 400 == 0)

/-- The number of days of a month, zero if there is no such month. -/
def daysInMonth (year : Int) : Nat → Nat
  | 1 | 3 | 5 | 7 | 8 | 10 | 12 => 31
  | 4 | 6 | 9 | 11 => 30
  | 2 => if isLeapYear year then 29 else 28
  | _ => 0

/-- A valid calendar date.  The span of years is as wide as a signed 32-bit count of days around 1970 in
whole years allows. -/
structure Date where
  year : Int
  month : Nat
  day : Nat
  year_mem : -262143 ≤ year ∧ year ≤ 262142
  month_mem : 1 ≤ month ∧ month ≤ 12
  day_mem : 1 ≤ day ∧ day ≤ daysInMonth year month
  deriving DecidableEq, Repr

namespace Date

instance : Inhabited Date :=
  ⟨⟨1970, 1, 1, by decide, by decide, by decide⟩⟩

/-- The date with these fields, if there is one. -/
def of? (year : Int) (month day : Nat) : Option Date :=
  if h : (-262143 ≤ year ∧ year ≤ 262142) ∧ (1 ≤ month ∧ month ≤ 12) ∧
      1 ≤ day ∧ day ≤ daysInMonth year month then
    some ⟨year, month, day, h.1, h.2.1, h.2.2⟩
  else none

@[simp] theorem of?_self (d : Date) : of? d.year d.month d.day = some d := by
  simp [of?, d.year_mem, d.month_mem, d.day_mem]

/-- The next day. -/
def next? (d : Date) : Option Date :=
  if d.day < daysInMonth d.year d.month then of? d.year d.month (d.day + 1)
  else if d.month < 12 then of? d.year (d.month + 1) 1
  else of? (d.year + 1) 1 1

/-- The day before. -/
def previous? (d : Date) : Option Date :=
  if 1 < d.day then of? d.year d.month (d.day - 1)
  else if 1 < d.month then of? d.year (d.month - 1) (daysInMonth d.year (d.month - 1))
  else of? (d.year - 1) 12 31

/-! ## Day numbers

Years are counted from March here, so that the leap day is the last of its year.
-/

/-- The number of days from the first of March of the year zero. -/
def dayNumber (d : Date) : Int :=
  let year := if d.month ≤ 2 then d.year - 1 else d.year
  let month := (d.month + 9) % 12
  365 * year + year / 4 - year / 100 + year / 400 + ((153 * month + 2) / 5 + d.day - 1 : Nat)

/-- The date with a day number. -/
def ofDayNumber? (n : Int) : Option Date :=
  let era := n / 146097
  let dayOfEra := (n % 146097).toNat
  let yearOfEra := (dayOfEra - dayOfEra / 1460 + dayOfEra / 36524 - dayOfEra / 146096) / 365
  let dayOfYear := dayOfEra - (365 * yearOfEra + yearOfEra / 4 - yearOfEra / 100)
  let month := (5 * dayOfYear + 2) / 153
  let day := dayOfYear - (153 * month + 2) / 5 + 1
  let year := era * 400 + yearOfEra
  if month < 10 then of? year (month + 3) day else of? (year + 1) (month - 9) day

/-- The date a number of days later, or earlier if the number is negative. -/
def addDays? (d : Date) (days : Int) : Option Date :=
  ofDayNumber? (d.dayNumber + days)

end Date
end StatusBoard
