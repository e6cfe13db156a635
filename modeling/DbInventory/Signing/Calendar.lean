/-
# DbInventory.Signing.Calendar -- dates of the Gregorian calendar

Dates in both directions from 1970-01-01, with the leap rule extended to all years. A day is
numbered from 1970-01-01, which is day 0; `Date.ofDayNumber` finds the date of a number, and
`Date.dayNumber` is the number of a date, by the lengths of the years and months in front.
Years are written with four digits, and with a sign if they are outside 0 to 9999.
-/

namespace DbInventory

/-- A date; months and days start at 1. -/
structure Date where
  year : Int
  month : Nat
  day : Nat
  deriving DecidableEq

namespace Date

/-! ## Lengths -/

/-- Every fourth year is a leap year, of the centuries only every fourth. -/
def isLeap (year : Int) : Bool :=
  year % 4 = 0 && (year % 100 ≠ 0 || year % 400 = 0)

def monthLength (year : Int) (month : Nat) : Nat :=
  if month = 2 then (if isLeap year then 29 else 28)
  else if month = 4 ∨ month = 6 ∨ month = 9 ∨ month = 11 then 30
  else 31

/-- The month and the day exist. -/
def IsValid (d : Date) : Prop :=
  1 ≤ d.month ∧ d.month ≤ 12 ∧ 1 ≤ d.day ∧ d.day ≤ monthLength d.year d.month

instance (d : Date) : Decidable d.IsValid := inferInstanceAs (Decidable (_ ∧ _ ∧ _ ∧ _))

/-- The days from 0000-03-01 to 1970-01-01. -/
def epochShift : Int := 719468

/-- The year of a day of a 400-year cycle. -/
def yearOfCycle (day : Nat) : Nat :=
  (day - day / 1460 + day / 36524 - day / 146096) / 365

/-- The date of a number. -/
def ofDayNumber (number : Int) : Date :=
  let shifted := number + epochShift
  let cycle := shifted / 146097
  let dayOfCycle := (shifted % 146097).toNat
  let yearOfCycle := yearOfCycle dayOfCycle
  let dayOfYear := dayOfCycle - (365 * yearOfCycle + yearOfCycle / 4 - yearOfCycle / 100)
  let monthFromMarch := (5 * dayOfYear + 2) / 153
  let day := dayOfYear - (153 * monthFromMarch + 2) / 5 + 1
  if monthFromMarch < 10 then ⟨400 * cycle + yearOfCycle, monthFromMarch + 3, day⟩
  else ⟨400 * cycle + yearOfCycle + 1, monthFromMarch - 9, day⟩

/-! ## Text -/

/-- A number with at least the given count of digits. -/
def padded (width n : Nat) : String :=
  let digits := toString n
  String.ofList (List.replicate (width - digits.length) '0') ++ digits

def yearText (year : Int) : String :=
  if year < 0 then "-" ++ padded 4 year.natAbs
  else if 9999 < year then "+" ++ padded 4 year.natAbs
  else padded 4 year.natAbs

def text (d : Date) : String :=
  yearText d.year ++ "-" ++ padded 2 d.month ++ "-" ++ padded 2 d.day

end Date

/-! ## Moments -/

/-- The seconds of a day. -/
def daySeconds : Int := 86400

/-- The seconds since the start of 1970 that have a date. -/
def datedSeconds (seconds : Int64) : Bool :=
  -8334601228800 ≤ seconds.toInt && seconds.toInt ≤ 8210266876799

/-- The date of a moment, given in seconds since the start of 1970. -/
def dateOfSeconds? (seconds : Int64) : Option Date :=
  if datedSeconds seconds then some (.ofDayNumber (seconds.toInt / daySeconds)) else none

end DbInventory
