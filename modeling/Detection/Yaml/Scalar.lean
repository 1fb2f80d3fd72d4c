import Detection.Json.Reader
import Detection.Time.Iso
import Detection.Yaml.Node

/-! # What a scalar of a settings document stands for -/

namespace Detection.Yaml

inductive ScalarType where
  | null
  | flag
  | integer
  | real
  | time
  | text
  | merge
  | default
  deriving DecidableEq, Repr

namespace ScalarType

/-! ## Forms of plain scalars -/

def isDigitOr (extra : List Char) (c : Char) : Bool := c.isDigit || extra.contains c

def unsigned (cs : List Char) : List Char :=
  match cs with
  | '-' :: r | '+' :: r => r
  | cs => cs

/-- A digit followed by digits and underscores. -/
def isNumber (first : Char → Bool) (cs : List Char) : Bool :=
  match cs with
  | [] => false
  | c :: r => first c && r.all (isDigitOr ['_'])

def isNonZeroDigit (c : Char) : Bool := c.isDigit && c ≠ '0'

def isSixtieth (cs : List Char) : Bool :=
  match cs with
  | [a] => a.isDigit
  | [a, b] => '0' ≤ a && a ≤ '5' && b.isDigit
  | _ => false

/-- A first part and at least one sixtieth after it, with colons between them. -/
def isSexagesimal (first : Char → Bool) (cs : List Char) : Bool :=
  match Text.split ':' cs with
  | head :: part :: rest => isNumber first head && (part :: rest).all isSixtieth
  | _ => false

def isInteger (cs : List Char) : Bool :=
  match unsigned cs with
  | ['0'] => true
  | '0' :: 'b' :: r => !r.isEmpty && r.all ['0', '1', '_'].contains
  | '0' :: 'x' :: r => !r.isEmpty && r.all fun c => (hexDigit? c).isSome || c = '_'
  | '0' :: r => r.all fun c => ('0' ≤ c && c ≤ '7') || c = '_'
  | r => isNumber isNonZeroDigit r || isSexagesimal isNonZeroDigit r

/-- An exponent, which needs its sign, or nothing. -/
def isExponent (cs : List Char) : Bool :=
  match cs with
  | [] => true
  | e :: s :: r => (e = 'e' || e = 'E') && (s = '-' || s = '+') && !r.isEmpty && r.all Char.isDigit
  | _ => false

def isFraction (cs : List Char) : Bool := isExponent (cs.dropWhile (isDigitOr ['_']))

def isReal (cs : List Char) : Bool :=
  let body := unsigned cs
  if [".inf", ".Inf", ".INF"].any (·.toList = body) then true
  else if [".nan", ".NaN", ".NAN"].any (·.toList = cs) then true
  else
    match Text.cut '.' body with
    | (_, none) => false
    | ([], some fraction) =>
      body = cs && fraction.head?.any Char.isDigit && isFraction fraction
    | (whole, some fraction) =>
      (isNumber Char.isDigit whole && isFraction fraction) ||
        (isSexagesimal Char.isDigit whole && fraction.all (isDigitOr ['_']))

/-! ## Times -/

structure TimeParts where
  year : Nat
  month : Nat
  day : Nat
  clock : Option (Nat × Nat × Nat × Nat)
  /-- The offset in minutes, if there is one. -/
  offset : Option Int

def number (cs : List Char) : Nat := Nat.ofDigitChars 10 cs 0

/-- Between `least` and two digits. -/
def shortNumber? (least : Nat) (cs : List Char) : Option (Nat × List Char) :=
  let ds := (cs.take 2).takeWhile Char.isDigit
  if ds.length < least then none else some (number ds, cs.drop ds.length)

def expect? (c : Char) (cs : List Char) : Option (List Char) :=
  match cs with
  | x :: r => if x = c then some r else none
  | [] => none

def dropBlanks (cs : List Char) : List Char := cs.dropWhile fun c => c = ' ' || c = '\t'

/-- An offset behind a time: nothing, a letter, or sign, hours and perhaps minutes. -/
def offset? (cs : List Char) : Option (Option Int) :=
  if cs.isEmpty then some none
  else
    match dropBlanks cs with
    | ['Z'] => some (some 0)
    | sign :: r =>
      if sign = '+' || sign = '-' then do
        let (hours, r) ← shortNumber? 1 r
        let minutes ←
          if r.isEmpty then some 0
          else do
            let r ← expect? ':' r
            let (minutes, r) ← shortNumber? 2 r
            if r.isEmpty then some minutes else none
        let total : Int := (hours * 60 + minutes : Nat)
        some (some (if sign = '-' then -total else total))
      else none
    | [] => none

/-- Up to six digits of a fraction, and what follows all of its digits. -/
def fraction (cs : List Char) : Nat × List Char :=
  match cs with
  | '.' :: r =>
    let (ds, rest) := r.span Char.isDigit
    let ds := ds.take 6
    (number ds * tenTo (6 - ds.length), rest)
  | cs => (0, cs)

def timeParts? (cs : List Char) : Option TimeParts := do
  let year := cs.take 4
  if year.length < 4 || !year.all Char.isDigit then none
  let r ← expect? '-' (cs.drop 4)
  let (month, r) ← shortNumber? 1 r
  let r ← expect? '-' r
  let (day, r) ← shortNumber? 1 r
  if r.isEmpty then some ⟨number year, month, day, none, none⟩
  else
    let afterDate ←
      match r with
      | c :: rest =>
        if c = 'T' || c = 't' then some rest
        else if c = ' ' || c = '\t' then some (dropBlanks r)
        else none
      | [] => none
    let (hour, r) ← shortNumber? 1 afterDate
    let r ← expect? ':' r
    let (minute, r) ← shortNumber? 2 r
    let r ← expect? ':' r
    let (second, r) ← shortNumber? 2 r
    let (micro, r) := fraction r
    let offset ← offset? r
    some ⟨number year, month, day, some (hour, minute, second, micro), offset⟩

/-! ## The type of a scalar -/

def flagWords : List (String × Bool) :=
  [("yes", true), ("no", false), ("true", true), ("false", false), ("on", true), ("off", false)]

/-- A word in lower case, in upper case, or with a capital in front. -/
def isCased (word : String) (cs : List Char) : Bool :=
  let w := word.toList
  cs = w || cs = w.map Char.toUpper ||
    cs = (match w with
      | [] => []
      | c :: r => c.toUpper :: r)

def isNull (cs : List Char) : Bool := cs.isEmpty || cs = ['~'] || isCased "null" cs

/-- A plain date is a time only with two digits for month and day. -/
def isTime (cs : List Char) : Bool :=
  (timeParts? cs).any fun p => p.clock.isSome || cs.length = 10

def ofPlain (cs : List Char) : ScalarType :=
  if isNull cs then .null
  else if flagWords.any fun w => isCased w.1 cs then .flag
  else if isReal cs then .real
  else if isInteger cs then .integer
  else if cs = ['<', '<'] then .merge
  else if isTime cs then .time
  else if cs = ['='] then .default
  else .text

def ofTag? (tag : String) : Option ScalarType :=
  [("null", ScalarType.null), ("bool", .flag), ("int", .integer), ("float", .real),
    ("timestamp", .time), ("str", .text), ("merge", .merge), ("value", .default)].findSome?
    fun (name, type) => if tag = Node.standardTags ++ name then some type else none

end ScalarType

/-! ## Values -/

namespace ScalarValue

open ScalarType

def digitsTo (base : Nat) (cs : List Char) : Option Nat :=
  if cs.isEmpty then none
  else
    (cs.mapM fun c => (hexDigit? c).filter (· < base)).map fun ds =>
      ds.foldl (fun n d => n * base + d) 0

def tooManyDigits (count : Nat) : Problem := .noValue (Json.Cause.digits count).text

/-- Digits to a base, or what is said when they are none. The number of decimal ones is limited. -/
def wholeNumber (base : Nat) (cs : List Char) : Except Problem Nat :=
  match digitsTo base cs with
  | some n =>
    if base = 10 && Excess.maxDigits < cs.length then .error (tooManyDigits cs.length) else .ok n
  | none =>
    .error (.noValue ("invalid literal for int() with base " ++ toString base ++ ": " ++
      Text.literal (String.ofList cs)))

def sixtieths (parts : List Nat) : Nat := parts.foldl (fun n part => n * 60 + part) 0

def magnitude (cs : List Char) : Except Problem Nat :=
  match cs with
  | [] => .error .noDigits
  | ['0'] => .ok 0
  | '0' :: 'b' :: r => wholeNumber 2 r
  | '0' :: 'x' :: r => wholeNumber 16 r
  | '0' :: r => wholeNumber 8 ('0' :: r)
  | cs =>
    if cs.contains ':' then do
      let parts ← (Text.split ':' cs).mapM (wholeNumber 10)
      pure (sixtieths parts)
    else wholeNumber 10 cs

def isNegative (cs : List Char) : Bool := cs.head? = some '-'

def dropUnderscores (cs : List Char) : List Char := cs.filter (· ≠ '_')

def integer (cs : List Char) : Except Problem Value := do
  let cs := dropUnderscores cs
  let n ← magnitude (unsigned cs)
  pure (.int (if isNegative cs then -(n : Int) else n))

def decimal? (cs : List Char) : Option Binary64 :=
  let (whole, r) := cs.span Char.isDigit
  let (places, r) := match r with
    | '.' :: r => r.span Char.isDigit
    | r => ([], r)
  if whole.isEmpty && places.isEmpty then none
  else
    let value (e : Int) := Binary64.ofDecimal false (number (whole ++ places)) (e - places.length)
    match r with
    | [] => some (value 0)
    | r =>
      match Json.exponent? r with
      | some (e, []) => some (value e)
      | _ => none

def real? (cs : List Char) : Option Binary64 :=
  let words : List (String × Binary64) :=
    [("inf", .infinity false), ("infinity", .infinity false), ("nan", .nan)]
  (words.lookup (String.ofList cs)).or (decimal? cs)

def realNumber (cs : List Char) : Except Problem Binary64 :=
  match real? cs with
  | some x => .ok x
  | none =>
    .error (.noValue ("could not convert string to float: " ++ Text.literal (String.ofList cs)))

/-- The product of a number and a factor. Neither is negative, and the factor is not zero. -/
def times (x y : Binary64) : Binary64 :=
  match x, y with
  | .finite _ a, .finite _ b =>
    let (p, q) := (Binary64.value a, Binary64.value b)
    Binary64.ofRatio false (p.num * q.num) (p.den * q.den)
  | .nan, _ | _, .nan => .nan
  | _, _ => .infinity false

/-- The sum of two numbers that are not negative. -/
def plus (x y : Binary64) : Binary64 :=
  match x, y with
  | .finite _ a, .finite _ b =>
    let (p, q) := (Binary64.value a, Binary64.value b)
    Binary64.ofRatio false (p.num * q.den + q.num * p.den) (p.den * q.den)
  | .nan, _ | _, .nan => .nan
  | _, _ => .infinity false

/-- Parts to the base of sixty, the last one first. -/
def realSixtieths : Nat → Binary64 → List Binary64 → Except Problem Binary64
  | _, sum, [] => .ok sum
  | scale, sum, part :: rest =>
    match Binary64.ofRatio false scale 1 with
    | .infinity _ => .error .noReal
    | factor => realSixtieths (scale * 60) (plus sum (times part factor)) rest

def negate : Binary64 → Binary64
  | .nan => .nan
  | .infinity n => .infinity !n
  | .finite n rank => .finite (!n) rank

def real (cs : List Char) : Except Problem Value := do
  let cs := (dropUnderscores cs).map Char.toLower
  if cs.isEmpty then throw .noDigits
  let body := unsigned cs
  let x ←
    if body = ".inf".toList then pure (Binary64.infinity false)
    else if body = ".nan".toList then pure Binary64.nan
    else if body.contains ':' then do
      let parts ← (Text.split ':' body).mapM realNumber
      realSixtieths 1 .zero parts.reverse
    else realNumber body
  pure (.real (if isNegative cs then negate x else x))

def flag (cs : List Char) : Except Problem Value :=
  let word := String.ofList (cs.map Char.toLower)
  match flagWords.lookup word with
  | some b => .ok (.flag b)
  | none => .error (.noFlag word)

def noDate (cause : Date.Error) : Problem := .noValue cause.message

def dropLineFeed (cs : List Char) : List Char :=
  if cs.getLast? = some '\n' then cs.dropLast else cs

/-- A time, with perhaps a line feed behind it. A date alone counts as its text. -/
def time (cs : List Char) : Except Problem Value := do
  let some p := timeParts? (dropLineFeed cs) | throw .noTime
  match p.clock with
  | none =>
    let date ← (Date.ofFields p.year p.month p.day).mapError noDate
    pure (.text (String.ofList (Timestamp.dateChars date)))
  | some (hour, minute, second, micro) =>
    let offset ←
      match p.offset with
      | none => pure none
      | some minutes =>
        match Offset.ofMicros? (minutes * 60000000) with
        | some o => pure (some o)
        | none => throw (.noValue (Iso.Error.message (.offset (minutes * 60000000))))
    let date ← (Date.ofFields p.year p.month p.day).mapError noDate
    let clock ←
      (Clock.ofFields hour minute second micro).mapError fun e => Problem.noValue e.message
    pure (.time ⟨date, clock, offset⟩)

end ScalarValue

/-- The value of a scalar of a type. The keys with a meaning of their own are no values. -/
def scalarValue (type : ScalarType) (points : Points) : Except Problem Value :=
  let cs := points.map Char.ofNat
  match type with
  | .null => .ok .none
  | .flag => ScalarValue.flag cs
  | .integer => ScalarValue.integer cs
  | .real => ScalarValue.real cs
  | .time => ScalarValue.time cs
  | .text => .ok (Json.ofPoints points)
  | .merge | .default => .error .malformed

end Detection.Yaml
