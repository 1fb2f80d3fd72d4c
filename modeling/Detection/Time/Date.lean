/-! # Dates of the Gregorian calendar, years 1 to 9999 -/

namespace Detection

namespace Calendar

def isLeap (year : Nat) : Bool := year % 4 = 0 && (year % 100 ≠ 0 || year % 400 = 0)

def monthLengths (leap : Bool) : List Nat :=
  [31, if leap then 29 else 28, 31, 30, 31, 30, 31, 31, 30, 31, 30, 31]

def daysInMonth (year month : Nat) : Nat :=
  (monthLengths (isLeap year)).getD (month - 1) 0

/-- The days in the first `years` years. -/
def daysBefore (years : Nat) : Nat := years * 365 + years / 4 - years / 100 + years / 400

def cycle : Nat := 146097

/-- The year day `n` lies in, day 0 being the first one of year 1. Within a cycle a year is guessed
as if none were leap; the guess is at most one too high. -/
def yearOfDay (n : Nat) : Nat :=
  let r := n % cycle
  let guess := r / 365
  400 * (n / cycle) + (if daysBefore guess ≤ r then guess else guess - 1) + 1

/-- Month and day of the month, both from 1, of the day `n` days after the months began. -/
def locate : List Nat → Nat → Nat × Nat
  | [], n => (1, n + 1)
  | length :: rest, n =>
    if n < length then (1, n + 1)
    else
      let (month, day) := locate rest (n - length)
      (month + 1, day)

def fieldsOfDay (n : Nat) : Nat × Nat × Nat :=
  let year := yearOfDay n
  let (month, day) := locate (monthLengths (isLeap year)) (n - daysBefore (year - 1))
  (year, month, day)

/-- The year a day before or after year 1 lies in, counting through year 0 to negative ones. -/
def signedYearOfDay (n : Int) : Int :=
  400 * n.fdiv cycle + yearOfDay (n.fmod cycle).toNat

end Calendar

structure Date where
  year : Nat
  month : Nat
  day : Nat
  year_valid : 1 ≤ year ∧ year ≤ 9999
  month_valid : 1 ≤ month ∧ month ≤ 12
  day_valid : 1 ≤ day ∧ day ≤ Calendar.daysInMonth year month
  deriving DecidableEq

namespace Date

inductive Error where
  | year (year : Int)
  | month
  | day
  deriving DecidableEq, Repr

def Error.message : Error → String
  | .year y => "year " ++ toString y ++ " is out of range"
  | .month => "month must be in 1..12"
  | .day => "day is out of range for month"

def ofFields (year month day : Nat) : Except Error Date :=
  if hy : 1 ≤ year ∧ year ≤ 9999 then
    if hm : 1 ≤ month ∧ month ≤ 12 then
      if hd : 1 ≤ day ∧ day ≤ Calendar.daysInMonth year month then
        .ok ⟨year, month, day, hy, hm, hd⟩
      else .error .day
    else .error .month
  else .error (.year year)

def toDay (d : Date) : Nat :=
  Calendar.daysBefore (d.year - 1) +
    ((Calendar.monthLengths (Calendar.isLeap d.year)).take (d.month - 1)).foldl (· + ·) 0 +
    (d.day - 1)

def ofDay (n : Nat) : Except Error Date :=
  let (year, month, day) := Calendar.fieldsOfDay n
  ofFields year month day

/-! ## Weeks -/

/-- The weekday of day `n`, 0 for Monday. -/
def weekday (n : Nat) : Nat := n % 7

/-- A year has 53 weeks when it starts on a Thursday, or on a Wednesday and is leap. -/
def weeksInYear (year : Nat) : Nat :=
  let first := weekday (Calendar.daysBefore (year - 1))
  if first = 3 || (first = 2 && Calendar.isLeap year) then 53 else 52

/-- The Monday of the first week of a year, which is the week its first Thursday lies in. -/
def firstMonday (year : Nat) : Int :=
  let first := Calendar.daysBefore (year - 1)
  let monday : Int := first - weekday first
  if 3 < weekday first then monday + 7 else monday

def ofWeek (year week day : Nat) : Except Error Date :=
  if year = 0 then .error .month
  else
    let n := firstMonday year + ((week - 1) * 7 + (day - 1) : Nat)
    if n < 0 then .error (.year 0) else ofDay n.toNat

end Date

end Detection
