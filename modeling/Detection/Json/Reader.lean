import Detection.Excess
import Detection.Mapping

/-! # Reading a JSON document

Two dialects are read. Files may nest as deep as there is room and may hold lone surrogates; a record
that is handed on to be checked nests up to a fixed depth and may hold none. Whole numbers may have
so many digits in a file, and so many characters in a record. Both dialects know words for the
infinities and for what is no number.
-/

namespace Detection.Json

structure Dialect where
  /-- How many arrays and objects may stand inside each other. -/
  maxDepth : Option Nat
  loneSurrogates : Bool
  isRecord : Bool

def Dialect.file (room : Option Nat := none) : Dialect := ⟨room, true, false⟩

def Dialect.record : Dialect := ⟨some 200, false, true⟩

inductive Cause where
  | value
  | propertyName
  | colon
  | comma
  | extraData
  | unterminatedString
  | controlCharacter
  | escape
  | unicodeEscape
  | byteOrderMark
  | depth
  /-- A file that goes deeper than there is room, at an object or at something else. -/
  | calls (atObject : Bool)
  | number
  | digits (count : Nat)
  /-- A leading surrogate without the escape of a trailing one. -/
  | escapeEnds
  /-- A trailing surrogate alone, or a leading one before anything but a trailing one. -/
  | loneSurrogate
  deriving DecidableEq, Repr

def Cause.text : Cause → String
  | .value => "Expecting value"
  | .propertyName => "Expecting property name enclosed in double quotes"
  | .colon => "Expecting ':' delimiter"
  | .comma => "Expecting ',' delimiter"
  | .extraData => "Extra data"
  | .unterminatedString => "Unterminated string starting at"
  | .controlCharacter => "Invalid control character at"
  | .escape => "Invalid \\escape"
  | .unicodeEscape => "Invalid \\uXXXX escape"
  | .byteOrderMark => "Unexpected UTF-8 BOM (decode using utf-8-sig)"
  | .depth => "recursion limit exceeded"
  | .calls atObject =>
    "maximum recursion depth exceeded while decoding a JSON " ++
      (if atObject then "object" else "array") ++ " from a unicode string"
  | .number => "number out of range"
  | .digits count =>
    "Exceeds the limit (" ++ toString Excess.maxDigits ++
      " digits) for integer string conversion: value has " ++ toString count ++
      " digits; use sys.set_int_max_str_digits() to increase the limit"
  | .escapeEnds => "unexpected end of hex escape"
  | .loneSurrogate => "lone leading surrogate in hex escape"

/-- Whether the reader says itself that the document is wrong. Where there is no room, or a number
has too many digits, something below it gives up. -/
def Cause.isReported : Cause → Bool
  | .calls _ | .digits _ => false
  | _ => true

/-- A cause, and how many characters were left where it was met. -/
structure Problem where
  cause : Cause
  left : Nat
  deriving DecidableEq, Repr

def refuse {α : Type} (cause : Cause) (cs : List Char) : Except Problem α :=
  .error ⟨cause, cs.length⟩

/-! ## White space and numbers -/

def isBlank (c : Char) : Bool := c = ' ' || c = '\t' || c = '\n' || c = '\r'

def skip (cs : List Char) : List Char := cs.dropWhile isBlank

def digitsOf (cs : List Char) : List Char × List Char := cs.span Char.isDigit

def exponent? (cs : List Char) : Option (Int × List Char) :=
  match cs with
  | c :: r =>
    if c = 'e' || c = 'E' then
      let (negative, r) := match r with
        | '-' :: r => (true, r)
        | '+' :: r => (false, r)
        | r => (false, r)
      match digitsOf r with
      | ([], _) => none
      | (ds, r) =>
        let n : Int := Nat.ofDigitChars 10 ds 0
        some (if negative then -n else n, r)
    else none
  | [] => none

def fraction? (cs : List Char) : Option (List Char × List Char) :=
  match cs with
  | '.' :: r =>
    match digitsOf r with
    | ([], _) => none
    | found => some found
  | _ => none

/-- A number: whole when it has neither fraction nor exponent, however large. -/
def number? (cs : List Char) : Option (Value × List Char) :=
  let (negative, body) := match cs with
    | '-' :: r => (true, r)
    | r => (false, r)
  let (whole, rest) := match body with
    | '0' :: r => (['0'], r)
    | r => digitsOf r
  if whole.isEmpty then none
  else
    let (places, rest, isWhole) := match fraction? rest with
      | some (ds, r) => (ds, r, false)
      | none => ([], rest, true)
    let (power, rest, isWhole) := match exponent? rest with
      | some (e, r) => (e, r, false)
      | none => (0, rest, isWhole)
    let n := Nat.ofDigitChars 10 (whole ++ places) 0
    if isWhole then some (.int (if negative then -(n : Int) else n), rest)
    else some (.real (Binary64.ofDecimal negative n (power - places.length)), rest)

def Dialect.tooDeep (d : Dialect) (cs : List Char) : Cause :=
  if d.isRecord then .depth else .calls (cs.head? = some '\x7b')

def Dialect.overlong? (d : Dialect) (v : Value) : Option Cause :=
  match v with
  | .int n =>
    if d.isRecord then if Excess.isShort n then none else some .number
    else if Excess.isLong n then some (.digits (toString n.natAbs).length) else none
  | _ => none

/-! ## Strings -/

def hexValue? (c : Char) : Option Nat :=
  if '0' ≤ c && c ≤ '9' then some (c.toNat - '0'.toNat)
  else if 'a' ≤ c && c ≤ 'f' then some (c.toNat - 'a'.toNat + 10)
  else if 'A' ≤ c && c ≤ 'F' then some (c.toNat - 'A'.toNat + 10)
  else none

def unit? (cs : List Char) : Option Nat :=
  match cs.mapM hexValue? with
  | some [a, b, c, d] => some (((a * 16 + b) * 16 + c) * 16 + d)
  | _ => none

def isLeading (n : Nat) : Bool := 0xD800 ≤ n && n < 0xDC00

def isTrailing (n : Nat) : Bool := 0xDC00 ≤ n && n < 0xE000

def joinSurrogates (high low : Nat) : Nat := 0x10000 + (high - 0xD800) * 0x400 + (low - 0xDC00)

/-- The code point of an escape in hexadecimal, read from behind its letter. A string never ends
with the fourth digit, so a character must follow it. -/
def hexEscape (d : Dialect) (cs : List Char) : Except Problem (Nat × List Char) :=
  let invalid : Except Problem (Nat × List Char) := .error ⟨.unicodeEscape, cs.length + 1⟩
  if (cs.drop 4).isEmpty then invalid
  else
    match unit? (cs.take 4) with
    | none => invalid
    | some high =>
      let rest := cs.drop 4
      if isLeading high then
        match rest with
        | '\\' :: 'u' :: next =>
          if (next.drop 4).isEmpty then
            if d.loneSurrogates then .ok (high, rest) else .error ⟨.unicodeEscape, next.length + 1⟩
          else
            match unit? (next.take 4) with
            | none => .error ⟨.unicodeEscape, next.length + 1⟩
            | some low =>
              if isTrailing low then .ok (joinSurrogates high low, next.drop 4)
              else if d.loneSurrogates then .ok (high, rest)
              else .error ⟨.loneSurrogate, (next.drop 3).length⟩
        | '\\' :: next => if d.loneSurrogates then .ok (high, rest) else refuse .escapeEnds next
        | _ => if d.loneSurrogates then .ok (high, rest) else refuse .escapeEnds rest
      else if isTrailing high && !d.loneSurrogates then .error ⟨.loneSurrogate, (cs.drop 3).length⟩
      else .ok (high, rest)

def escaped (d : Dialect) (opened : Nat) (cs : List Char) : Except Problem (Nat × List Char) :=
  match cs with
  | [] => .error ⟨.unterminatedString, opened⟩
  | 'u' :: r => hexEscape d r
  | '"' :: r => .ok (0x22, r)
  | '\\' :: r => .ok (0x5C, r)
  | '/' :: r => .ok (0x2F, r)
  | 'b' :: r => .ok (0x08, r)
  | 'f' :: r => .ok (0x0C, r)
  | 'n' :: r => .ok (0x0A, r)
  | 'r' :: r => .ok (0x0D, r)
  | 't' :: r => .ok (0x09, r)
  | _ :: _ => .error ⟨.escape, cs.length + 1⟩

/-- The code points up to the closing quote. `opened` characters were left at the opening one, and
every step takes one, so `fuel` for each character suffices. -/
def stringPoints (d : Dialect) (opened : Nat) :
    Nat → List Char → Except Problem (List Nat × List Char)
  | 0, _ => .error ⟨.unterminatedString, opened⟩
  | _ + 1, [] => .error ⟨.unterminatedString, opened⟩
  | fuel + 1, c :: r =>
    if c = '"' then .ok ([], r)
    else if c = '\\' then do
      let (n, rest) ← escaped d opened r
      let (ns, rest) ← stringPoints d opened fuel rest
      pure (n :: ns, rest)
    else if c.toNat < 0x20 then refuse .controlCharacter (c :: r)
    else do
      let (ns, rest) ← stringPoints d opened fuel r
      pure (c.toNat :: ns, rest)

def string (d : Dialect) (cs : List Char) : Except Problem (List Nat × List Char) :=
  stringPoints d (cs.length + 1) (cs.length + 1) cs

def isSurrogate (n : Nat) : Bool := 0xD800 ≤ n && n < 0xE000

/-- Text, or code points that are no text because a surrogate among them is alone. -/
def ofPoints (points : List Nat) : Value :=
  if points.any isSurrogate then .broken points else .text (String.ofList (points.map Char.ofNat))

/-! ## Values -/

def words : List (String × Value) :=
  [("null", .none), ("true", .flag true), ("false", .flag false), ("NaN", .real .nan),
    ("Infinity", .real (.infinity false)), ("-Infinity", .real (.infinity true))]

def word? (cs : List Char) : Option (Value × List Char) :=
  words.findSome? fun (w, v) =>
    if w.toList.isPrefixOf cs then some (v, cs.drop w.length) else none

mutual

/-- A value that starts here, inside `depth` arrays and objects. -/
def value (d : Dialect) (depth : Nat) : Nat → List Char → Except Problem (Value × List Char)
  | 0, cs => refuse .value cs
  | fuel + 1, cs =>
    if d.maxDepth.any (· < depth) then refuse (d.tooDeep cs) cs
    else
      match cs with
      | '"' :: r => do
        let (points, rest) ← string d r
        pure (ofPoints points, rest)
      | '[' :: r =>
        match skip r with
        | ']' :: rest => .ok (.list [], rest)
        | r => do
          let (items, rest) ← elements d (depth + 1) fuel r
          pure (.list items, rest)
      | '\x7b' :: r =>
        match skip r with
        | '\x7d' :: rest => .ok (.dict [], rest)
        | r => do
          let (entries, rest) ← members d (depth + 1) fuel [] r
          pure (.dict entries, rest)
      | cs =>
        match (word? cs).or (number? cs) with
        | some (v, rest) =>
          match d.overlong? v with
          | none => .ok (v, rest)
          | some cause => .error ⟨cause, cs.length - (Excess.maxDigits + 1)⟩
        | none => refuse .value cs

def elements (d : Dialect) (depth : Nat) : Nat → List Char → Except Problem (List Value × List Char)
  | 0, cs => refuse .value cs
  | fuel + 1, cs => do
    let (v, rest) ← value d depth fuel cs
    match skip rest with
    | ']' :: rest => pure ([v], rest)
    | ',' :: rest => do
      let (vs, rest) ← elements d depth fuel (skip rest)
      pure (v :: vs, rest)
    | rest => refuse .comma rest

/-- The members of an object up to its end, after those read so far; one starts here. -/
def members (d : Dialect) (depth : Nat) :
    Nat → Mapping → List Char → Except Problem (Mapping × List Char)
  | 0, _, cs => refuse .value cs
  | fuel + 1, sofar, cs =>
    match cs with
    | '"' :: r => do
      let (points, rest) ← string d r
      match skip rest with
      | ':' :: rest => do
        let (v, rest) ← value d depth fuel (skip rest)
        let entries := Mapping.put sofar (ofPoints points) v
        match skip rest with
        | '\x7d' :: rest => pure (entries, rest)
        | ',' :: rest => members d depth fuel entries (skip rest)
        | rest => refuse .comma rest
      | rest => refuse .colon rest
    | cs => refuse .propertyName cs

end

def read (d : Dialect) (cs : List Char) : Except Problem Value :=
  if cs.head? = some '\ufeff' then .error ⟨.byteOrderMark, cs.length⟩
  else
    match value d 0 (2 * cs.length + 2) (skip cs) with
    | .error p => .error p
    | .ok (v, rest) =>
      match skip rest with
      | [] => .ok v
      | rest => .error ⟨.extraData, rest.length⟩

/-! ## Where a problem is -/

structure Place where
  index : Nat
  line : Nat
  column : Nat

def Problem.place (p : Problem) (cs : List Char) : Place :=
  let index := cs.length - p.left
  let before := cs.take index
  ⟨index, 1 + before.count '\n', 1 + (before.reverse.takeWhile (· ≠ '\n')).length⟩

end Detection.Json
