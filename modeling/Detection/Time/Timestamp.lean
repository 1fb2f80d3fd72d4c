import Detection.Time.Date
import Detection.Text.Quoted

/-! # Points in time, with or without an offset from universal time -/

namespace Detection

structure Clock where
  hour : Nat
  minute : Nat
  second : Nat
  micro : Nat
  hour_lt : hour < 24
  minute_lt : minute < 60
  second_lt : second < 60
  micro_lt : micro < 1000000
  deriving DecidableEq

/-- An offset from universal time in microseconds, of less than a day. -/
structure Offset where
  micros : Int
  bounded : micros.natAbs < 86400000000
  deriving DecidableEq

/-- A date and a time of day. Without an offset it does not say where on earth. -/
structure Timestamp where
  date : Date
  clock : Clock
  offset : Option Offset
  deriving DecidableEq

/-! ## Durations -/

/-- A length of time as it is shown in messages: days, seconds and microseconds, of which only the
days are negative. -/
def durationLiteral (micros : Int) : String :=
  let days := micros.fdiv 86400000000
  let rest := micros.fmod 86400000000
  let part (name : String) (n : Int) := if n = 0 then [] else [name ++ "=" ++ toString n]
  let parts :=
    part "days" days ++ part "seconds" (rest / 1000000) ++ part "microseconds" (rest % 1000000)
  "datetime.timedelta(" ++ (if parts.isEmpty then "0" else ", ".intercalate parts) ++ ")"

namespace Offset

def utc : Offset := ⟨0, by decide⟩

def ofMicros? (micros : Int) : Option Offset :=
  if h : micros.natAbs < 86400000000 then some ⟨micros, h⟩ else none

end Offset

namespace Clock

inductive Error where
  | hour
  | minute
  | second
  deriving DecidableEq, Repr

def Error.message : Error → String
  | .hour => "hour must be in 0..23"
  | .minute => "minute must be in 0..59"
  | .second => "second must be in 0..59"

/-- Microseconds past the last one of a second count as that last one; no reader gives any. -/
def ofFields (hour minute second micro : Nat) : Except Error Clock :=
  if hh : hour < 24 then
    if hm : minute < 60 then
      if hs : second < 60 then
        .ok ⟨hour, minute, second, min micro 999999, hh, hm, hs, by omega⟩
      else .error .second
    else .error .minute
  else .error .hour

def midnight : Clock := ⟨0, 0, 0, 0, by decide, by decide, by decide, by decide⟩

def toMicros (c : Clock) : Nat := ((c.hour * 60 + c.minute) * 60 + c.second) * 1000000 + c.micro

def ofMicros (n : Nat) : Clock where
  hour := n / 3600000000 % 24
  minute := n / 60000000 % 60
  second := n / 1000000 % 60
  micro := n % 1000000
  hour_lt := Nat.mod_lt _ (by decide)
  minute_lt := Nat.mod_lt _ (by decide)
  second_lt := Nat.mod_lt _ (by decide)
  micro_lt := Nat.mod_lt _ (by decide)

end Clock

namespace Timestamp

/-! ## Text -/

/-- `n` in decimal with at least `width` digits. -/
def padded (width n : Nat) : List Char :=
  let ds := Nat.toDigits 10 n
  List.replicate (width - ds.length) '0' ++ ds

/-- Six digits after a point, or nothing for a whole number of seconds. -/
def fractionChars (micro : Nat) : List Char :=
  if micro = 0 then [] else '.' :: padded 6 micro

def dateChars (d : Date) : List Char :=
  padded 4 d.year ++ '-' :: padded 2 d.month ++ '-' :: padded 2 d.day

def clockChars (c : Clock) : List Char :=
  padded 2 c.hour ++ ':' :: padded 2 c.minute ++ ':' :: padded 2 c.second ++ fractionChars c.micro

/-- Sign, hours and minutes; seconds and their fraction only where there are any. -/
def offsetChars (o : Offset) : List Char :=
  let n := o.micros.natAbs
  let minutes := n / 60000000
  let rest := n % 60000000
  (if o.micros < 0 then '-' else '+') ::
    padded 2 (minutes / 60) ++ ':' :: padded 2 (minutes % 60) ++
    if rest = 0 then [] else ':' :: padded 2 (rest / 1000000) ++ fractionChars (rest % 1000000)

def chars (t : Timestamp) : List Char :=
  dateChars t.date ++ 'T' :: clockChars t.clock ++
    match t.offset with
    | none => []
    | some o => offsetChars o

def text (t : Timestamp) : String := String.ofList t.chars

/-- A time without an offset is taken as universal time. -/
def anchored (t : Timestamp) : Timestamp := { t with offset := some (t.offset.getD .utc) }

/-! ## Counted from the start of 1970 -/

/-- The days from the first one of year 1 to the start of 1970. -/
def epochDay : Nat := 719162

/-- Why a count of nanoseconds is no time: it does not fit a 64-bit count of seconds, its year does
not fit a 32-bit field, or the field holds a year outside 1 to 9999. -/
inductive CountError where
  | seconds (nanos : Int)
  | field (nanos : Int)
  | year (year : Int)
  deriving DecidableEq, Repr

def CountError.message : CountError → String
  | .seconds n =>
    "timestamp " ++ toString n ++ " is out of range: timestamp out of range for platform time_t"
  | .field n =>
    "timestamp " ++ toString n ++
      " is out of range: [Errno 75] Value too large for defined data type"
  | .year y => (Date.Error.year y).message

/-- The time that many nanoseconds after the start of 1970, to the microsecond below. A year is kept
as its distance from 1900 in 32 bits, which bounds it before the calendar does. -/
def ofNanos (nanos : Int) : Except CountError Timestamp :=
  let seconds := nanos.fdiv 1000000000
  let micros := (nanos.fmod 1000000000).toNat / 1000
  let day := seconds.fdiv 86400 + epochDay
  let year := Calendar.signedYearOfDay day
  if Int.bmod seconds 0x10000000000000000 ≠ seconds then .error (.seconds nanos)
  else if Int.bmod (year - 1900) 0x100000000 ≠ year - 1900 then .error (.field nanos)
  else if year < 1 || 9999 < year then .error (.year (Int.bmod year 0x100000000))
  else
    match Date.ofDay day.toNat with
    | .ok date =>
      .ok ⟨date, .ofMicros ((seconds.fmod 86400).toNat * 1000000 + micros), some .utc⟩
    | .error _ => .error (.year year)

end Timestamp

end Detection
