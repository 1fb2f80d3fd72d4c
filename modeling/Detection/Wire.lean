import Detection.Country
import Detection.Time.Iso

/-! # Wire forms: what a record may write for values that have no form of their own

Addresses come as text, times as ISO 8601 text or nanoseconds since 1970, country codes and payloads
as text or as lists of bytes, categories as text. A value already of the right type is kept.
-/

namespace Detection.Wire

inductive Expected where
  | address
  | time
  | country
  | payload
  | category
  deriving DecidableEq, Repr

def Expected.phrase : Expected → String
  | .address => "an IP address as text"
  | .time => "ISO-8601 text or nanoseconds"
  | .country => "country code text or byte list"
  | .payload => "text or byte list"
  | .category => "an event category as text"

inductive Error where
  | type (expected : Expected) (typeName : String)
  | address (text : String)
  | iso (cause : Iso.Error)
  | count (cause : Timestamp.CountError)
  /-- A list with something other than whole numbers in it. -/
  | notBytes
  /-- A list of whole numbers of which one is no byte. -/
  | byteRange
  | category (text : Value)

def Error.message : Error → String
  | .type expected typeName => "expected " ++ expected.phrase ++ ", got " ++ typeName
  | .address text => Text.literal text ++ " does not appear to be an IPv4 or IPv6 address"
  | .iso cause => cause.message
  | .count cause => cause.message
  | .notBytes => "expected a list of byte values"
  | .byteRange => "expected a list of byte values: bytes must be in range(0, 256)"
  | .category text => "unknown event category " ++ text.literal

def address (v : Value) : Except Error Value :=
  match v with
  | .address a => .ok (.address a)
  | .text s =>
    match Address.parse? s with
    | some a => .ok (.address a)
    | none => .error (.address s)
  | v => .error (.type .address v.typeName)

def time (v : Value) : Except Error Value :=
  let ofNanos (n : Int) : Except Error Value :=
    match Timestamp.ofNanos n with
    | .ok t => .ok (.time t)
    | .error cause => .error (.count cause)
  match v with
  | .time t => .ok (.time t)
  | .int n => ofNanos n
  | .member m =>
    match m.number? with
    | some n => ofNanos n
    | none => .error (.type .time m.className)
  | .text s =>
    match Iso.parse s with
    | .ok t => .ok (.time t)
    | .error cause => .error (.iso cause)
  | v => .error (.type .time v.typeName)

def byte (v : Value) : Except Error UInt8 :=
  match v.integer? with
  | some n => if 0 ≤ n ∧ n < 256 then .ok n.toNat.toUInt8 else .error .byteRange
  | none => .error .notBytes

def byteList (items : List Value) : Except Error Value :=
  if items.all Value.isInteger then do
    let bs ← items.mapM byte
    pure (.bytes bs)
  else .error .notBytes

/-- Text becomes two bytes; a list of bytes is kept, text or not. -/
def country (v : Value) : Except Error Value :=
  match v with
  | .none => .ok .none
  | .bytes bs => .ok (.bytes bs)
  | .text s => .ok (.bytes (Country.encode (.text s)))
  | .list items => byteList items
  | v => .error (.type .country v.typeName)

def payload (v : Value) : Except Error Value :=
  match v with
  | .bytes bs => .ok (.bytes bs)
  | .text s => .ok (.bytes (Utf8.encode s))
  | .list items => byteList items
  | v => .error (.type .payload v.typeName)

def category (v : Value) : Except Error Value :=
  match v with
  | .none => .ok .none
  | .member (.category c) => .ok (.member (.category c))
  | .text s =>
    match Category.ofText? s with
    | some c => .ok (.member (.category c))
    | none => .error (.category (.text s))
  | .broken ps => .error (.category (.broken ps))
  | v => .error (.type .category v.typeName)

end Detection.Wire
