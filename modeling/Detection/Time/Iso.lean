import Detection.Decimal.Power
import Detection.Time.Timestamp
import Detection.Text.Utf8
import Detection.Text.Literal

/-! # Reading a time as ISO 8601 text

The text is read as bytes. A date is given by month and day or by week and day, with hyphens or
without; one character of any kind separates it from the time of day; an offset may follow. Past its
end the text reads as zero bytes.
-/

namespace Detection.Iso

/-! ## Digits -/

def isDigit (b : UInt8) : Bool := 0x30 ≤ b && b ≤ 0x39

def digitValue (b : UInt8) : Nat := b.toNat - 0x30

def digits? : Nat → List UInt8 → Option (Nat × List UInt8)
  | 0, bs => some (0, bs)
  | _ + 1, [] => none
  | n + 1, b :: r =>
    if isDigit b then (digits? n r).map fun (value, rest) => (digitValue b * tenTo n + value, rest)
    else none

/-! ## The date -/

inductive RawDate where
  | plain (year month day : Nat)
  | week (year week day : Nat)

/-- Reads the date, of which `length` bytes belong to it: they decide whether a week has a day. -/
def date? (length : Nat) (bs : List UInt8) : Option RawDate := do
  let (year, r) ← digits? 4 bs
  let hyphens := r.head? = some 0x2D
  let r := if hyphens then r.tail else r
  if r.head? = some 0x57 then
    let (week, r) ← digits? 2 r.tail
    if bs.length - r.length < length then
      let r ← if hyphens then (if r.head? = some 0x2D then some r.tail else none) else some r
      let (day, _) ← digits? 1 r
      some (.week year week day)
    else some (.week year week 1)
  else
    let (month, r) ← digits? 2 r
    let r ← if hyphens then (if r.head? = some 0x2D then some r.tail else none) else some r
    let (day, _) ← digits? 2 r
    some (.plain year month day)

/-- Where the date ends. A week date without a day is told from one with it by the digits after it:
two belong to each part of a time. -/
def separatorAt? (bs : List UInt8) : Option Nat :=
  let byte (i : Nat) := bs.getD i 0
  let length := bs.length
  if length = 7 then some 7
  else if byte 4 = 0x2D then
    if byte 5 = 0x57 then
      if length < 8 then none
      else if 8 < length && byte 8 = 0x2D then
        if length = 9 then none
        else if 10 < length && isDigit (byte 10) then some 8
        else some 10
      else some 8
    else some 10
  else if byte 4 = 0x57 then
    let pos := 7 + ((bs.drop 7).takeWhile isDigit).length
    if pos < 9 then some pos else if pos % 2 = 0 then some 7 else some 8
  else some 8

/-! ## The time of day and the offset -/

/-- Hours, minutes, seconds and microseconds; `exact` when the text ended with them. -/
structure Reading where
  hour : Nat
  minute : Nat
  second : Nat
  micro : Nat
  exact : Bool

/-- Up to six digits of a fraction; further digits are passed over. `stop` is the byte behind. -/
def fraction? (stop : UInt8) (bs : List UInt8) : Option (Nat × Bool) := do
  let count := min 6 bs.length
  let (value, r) ← digits? count bs
  let next := (r.dropWhile isDigit).headD stop
  some (value * tenTo (6 - count), next = 0)

/-- What follows a part of two digits. -/
inductive After where
  /-- The text ends here, or with one byte more, which is let pass in front of an offset. -/
  | ended (exact : Bool)
  | part (rest : List UInt8)
  | fraction (rest : List UInt8)
  | malformed

/-- Colons are used throughout or not at all, as the first part decides. -/
def after (stop : UInt8) (colons : Bool) : List UInt8 → After
  | [] => .ended (stop = 0)
  | [c] => .ended (c = 0)
  | c :: d :: r =>
    if colons && c = 0x3A then .part (d :: r)
    else if c = 0x2E || c = 0x2C then .fraction (d :: r)
    else if !colons then .part (c :: d :: r)
    else .malformed

def reading? (stop : UInt8) (bs : List UInt8) : Option Reading := do
  let (hour, r) ← digits? 2 bs
  let colons := r.headD stop = 0x3A
  match after stop colons r with
  | .malformed => none
  | .ended exact => some ⟨hour, 0, 0, 0, exact⟩
  | .fraction r => (fraction? stop r).map fun (micro, exact) => ⟨hour, 0, 0, micro, exact⟩
  | .part r =>
    let (minute, r) ← digits? 2 r
    match after stop colons r with
    | .malformed => none
    | .ended exact => some ⟨hour, minute, 0, 0, exact⟩
    | .fraction r => (fraction? stop r).map fun (micro, exact) => ⟨hour, minute, 0, micro, exact⟩
    | .part r =>
      let (second, r) ← digits? 2 r
      match after stop colons r with
      | .malformed => none
      | .ended exact => some ⟨hour, minute, second, 0, exact⟩
      | .fraction r | .part r =>
        (fraction? stop r).map fun (micro, exact) => ⟨hour, minute, second, micro, exact⟩

def startsOffset (b : UInt8) : Bool := b = 0x2B || b = 0x2D || b = 0x5A

/-- A time of day, and the microseconds of its offset if it has one. An offset of no whole second is
none from universal time, whatever its fraction. -/
def time? (bs : List UInt8) : Option (Reading × Option Int) := do
  let (body, zone) := bs.span (!startsOffset ·)
  match zone with
  | [] =>
    let r ← reading? 0 body
    if r.exact then some (r, none) else none
  | sign :: rest =>
    let r ← reading? sign body
    if sign = 0x5A then
      if rest.headD 0 = 0 then some (r, some 0) else none
    else
      let o ← reading? 0 rest
      let seconds := o.hour * 3600 + o.minute * 60 + o.second
      let micros : Int := if seconds = 0 then 0 else (seconds * 1000000 + o.micro : Nat)
      if o.exact then some (r, some (if sign = 0x2D then -micros else micros)) else none

/-! ## The whole text -/

inductive Error where
  | malformed (text : String)
  | offset (micros : Int)
  | date (cause : Date.Error)
  | clock (cause : Clock.Error)
  deriving DecidableEq, Repr

def Error.message : Error → String
  | .malformed text => "Invalid isoformat string: " ++ Text.literal text
  | .offset micros =>
    "offset must be a timedelta strictly between -timedelta(hours=24) and timedelta(hours=24)," ++
      " not " ++ durationLiteral micros ++ "."
  | .date cause => cause.message
  | .clock cause => cause.message

def separatorWidth (b : UInt8) : Nat :=
  if b &&& 0x80 = 0 then 1
  else if b &&& 0xF0 = 0xE0 then 3
  else if b &&& 0xF0 = 0xF0 then 4
  else 2

/-- The parts of the text, before any of them is checked against the calendar. -/
def parts? (text : String) : Option (RawDate × Option (Reading × Option Int)) := do
  let bs := Utf8.encode text
  if text.length < 7 then none
  else
    let dateEnd ← separatorAt? bs
    let date ← date? dateEnd bs
    match bs.drop dateEnd with
    | [] => some (date, none)
    | sep :: rest =>
      let time ← time? (rest.drop (separatorWidth sep - 1))
      some (date, some time)

/-- A week or a weekday that the year does not have makes the text malformed. -/
def RawDate.check? : RawDate → Option (Except Date.Error Date)
  | .plain year month day => some (Date.ofFields year month day)
  | .week year number day =>
    if number = 0 || Date.weeksInYear year < number || day = 0 || 7 < day then none
    else some (Date.ofWeek year number day)

def parse (text : String) : Except Error Timestamp := do
  let some (rawDate, time) := parts? text | throw (.malformed text)
  let some date := rawDate.check? | throw (.malformed text)
  let offset ←
    match time.bind Prod.snd with
    | none => pure none
    | some micros =>
      match Offset.ofMicros? micros with
      | none => throw (.offset micros)
      | some o => pure (some o)
  let date ← date.mapError .date
  let clock ←
    match time with
    | none => pure .midnight
    | some (r, _) => (Clock.ofFields r.hour r.minute r.second r.micro).mapError .clock
  pure ⟨date, clock, offset⟩

end Detection.Iso
