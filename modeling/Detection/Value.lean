import Detection.Address
import Detection.Decimal.Shortest
import Detection.Syslog.Priority
import Detection.Taxonomy
import Detection.Text.Literal
import Detection.Time.Timestamp

/-! # Values: what an attribute of an event, a setting or a record may hold

Attributes have declared types, but an event built by hand takes whatever it is given, and messages
show the value that was wrong; so one type holds every value.
-/

namespace Detection

inductive Member where
  | category (c : Category)
  | level (l : Level)
  | method (m : LearningMethod)
  | facility (f : Facility)
  | severity (s : Severity)
  deriving DecidableEq, Repr

namespace Member

def className : Member → String
  | .category _ => "EventCategory"
  | .level _ => "EventLevel"
  | .method _ => "LearningMethod"
  | .facility _ => "Facility"
  | .severity _ => "Severity"

def name : Member → String
  | .category c => c.name
  | .level l => l.name
  | .method m => m.name
  | .facility f => f.name
  | .severity s => s.name

/-- Levels, facilities and severities are numbers as well. -/
def number? : Member → Option Nat
  | .level l => some l.number
  | .facility f => some f.number
  | .severity s => some s.number
  | .category _ | .method _ => none

/-- Categories and learning methods stand for a title. -/
def title? : Member → Option String
  | .category c => some c.title
  | .method m => some m.title
  | .level _ | .facility _ | .severity _ => none

end Member

inductive Value where
  | none
  | flag (b : Bool)
  | int (n : Int)
  | real (x : Binary64)
  | text (s : String)
  /-- Code points of which at least one is a lone surrogate. -/
  | broken (points : List Nat)
  | bytes (bs : List UInt8)
  | buffer (bs : List UInt8)
  | address (a : Address)
  | time (t : Timestamp)
  | member (m : Member)
  | list (items : List Value)
  | tuple (items : List Value)
  | dict (entries : List (Value × Value))
  | score (policy score : Value)
  | command (command code reply : Value)
  | endpoint (addr port code : Value)
  | multiPort (addr : Value) (ports : List Value) (code : Value)
  | group (addrs ports codes : List Value)

namespace Value

def typeName : Value → String
  | .none => "NoneType"
  | .flag _ => "bool"
  | .int _ => "int"
  | .real _ => "float"
  | .text _ | .broken _ => "str"
  | .bytes _ => "bytes"
  | .buffer _ => "bytearray"
  | .address a => if a.version = 4 then "IPv4Address" else "IPv6Address"
  | .time _ => "datetime"
  | .member m => m.className
  | .list _ => "list"
  | .tuple _ => "tuple"
  | .dict _ => "dict"
  | .score _ _ => "TriageScore"
  | .command _ _ _ => "FtpCommand"
  | .endpoint _ _ _ => "Endpoint"
  | .multiPort _ _ _ => "MultiPortEndpoint"
  | .group _ _ _ => "EndpointGroup"

def fullTypeName (v : Value) : String :=
  match v with
  | .time _ => "datetime.datetime"
  | v => v.typeName

/-! ## Literals: values as messages show them -/

def flagLiteral (b : Bool) : String := if b then "True" else "False"

def memberLiteral (m : Member) : String :=
  let shown :=
    match m.number?, m.title? with
    | some n, _ => toString n
    | _, some t => Text.literal t
    | _, _ => m.name
  "<" ++ m.className ++ "." ++ m.name ++ ": " ++ shown ++ ">"

def offsetLiteral (o : Offset) : String :=
  if o.micros = 0 then "datetime.timezone.utc"
  else "datetime.timezone(" ++ durationLiteral o.micros ++ ")"

def timeLiteral (t : Timestamp) : String :=
  let c := t.clock
  let parts := [t.date.year, t.date.month, t.date.day, c.hour, c.minute] ++
    (if c.second = 0 && c.micro = 0 then [] else [c.second]) ++
    (if c.micro = 0 then [] else [c.micro])
  let zone := match t.offset with
    | Option.none => []
    | some o => ["tzinfo=" ++ offsetLiteral o]
  "datetime.datetime(" ++ ", ".intercalate (parts.map toString ++ zone) ++ ")"

def recordLiteral (name : String) (fields : List (String × String)) : String :=
  name ++ "(" ++ ", ".intercalate (fields.map fun (field, value) => field ++ "=" ++ value) ++ ")"

mutual

def literal : Value → String
  | .none => "None"
  | .flag b => flagLiteral b
  | .int n => toString n
  | .real x => x.text
  | .text s => Text.literal s
  | .broken ps => Text.brokenLiteral ps
  | .bytes bs => Text.bytesLiteral bs
  | .buffer bs => "bytearray(" ++ Text.bytesLiteral bs ++ ")"
  | .address a =>
    (if a.version = 4 then "IPv4Address" else "IPv6Address") ++ "(" ++ Text.literal a.text ++ ")"
  | .time t => timeLiteral t
  | .member m => memberLiteral m
  | .list items => "[" ++ ", ".intercalate (literals items) ++ "]"
  | .tuple items => tupleLiteral items
  | .dict entries => "\x7b" ++ ", ".intercalate (entryLiterals entries) ++ "\x7d"
  | .score p s => recordLiteral "TriageScore" [("policy_id", literal p), ("score", literal s)]
  | .command c k r =>
    recordLiteral "FtpCommand"
      [("command", literal c), ("reply_code", literal k), ("reply_msg", literal r)]
  | .endpoint a p c =>
    recordLiteral "Endpoint" [("addr", literal a), ("port", literal p), ("country_code", literal c)]
  | .multiPort a p c =>
    recordLiteral "MultiPortEndpoint"
      [("addr", literal a), ("ports", tupleLiteral p), ("country_code", literal c)]
  | .group a p c =>
    recordLiteral "EndpointGroup"
      [("addrs", tupleLiteral a), ("ports", tupleLiteral p), ("country_codes", tupleLiteral c)]

/-- A comma marks a tuple of one value. -/
def tupleLiteral : List Value → String
  | [x] => "(" ++ literal x ++ ",)"
  | xs => "(" ++ ", ".intercalate (literals xs) ++ ")"

def literals : List Value → List String
  | [] => []
  | v :: vs => literal v :: literals vs

def entryLiterals : List (Value × Value) → List String
  | [] => []
  | (k, v) :: es => (literal k ++ ": " ++ literal v) :: entryLiterals es

end

/-- A lone surrogate shows as its escape; the other code points as themselves. -/
def brokenText (points : List Nat) : String :=
  String.ofList <| points.flatMap fun n =>
    if 0xD800 ≤ n && n ≤ 0xDFFF then Text.numericEscape n else [Char.ofNat n]

/-- The plain text of a value: text as it is, most others as their literal. -/
def display : Value → String
  | .text s => s
  | .broken ps => brokenText ps
  | .address a => a.text
  | .time t => t.text.map fun c => if c = 'T' then ' ' else c
  | .member m =>
    match m.number? with
    | some n => toString n
    | Option.none => m.className ++ "." ++ m.name
  | .score p s => display p ++ ":" ++ literal s
  | .command c k r => display c ++ ":" ++ display k ++ ":" ++ display r
  | v => literal v

/-! ## Parts and tests -/

def truthy : Value → Bool
  | .none => false
  | .flag b => b
  | .int n => n ≠ 0
  | .real x => !x.isZero
  | .text s => !s.isEmpty
  | .broken ps => !ps.isEmpty
  | .bytes bs | .buffer bs => !bs.isEmpty
  | .list xs | .tuple xs => !xs.isEmpty
  | .dict es => !es.isEmpty
  | .member m => m.number? ≠ some 0
  | .group addrs _ _ => !addrs.isEmpty
  | .address _ | .time _ | .score _ _ | .command _ _ _ | .endpoint _ _ _ | .multiPort _ _ _ => true

def items? : Value → Option (List Value)
  | .list xs | .tuple xs => some xs
  | .text s => some (s.toList.map fun c => .text (String.singleton c))
  | .broken ps => some (ps.map fun n =>
      if 0xD800 ≤ n && n ≤ 0xDFFF then .broken [n] else .text (String.singleton (Char.ofNat n)))
  | .bytes bs | .buffer bs => some (bs.map fun b => .int b.toNat)
  | .dict es => some (es.map Prod.fst)
  | _ => Option.none

/-- Whole numbers and numbered members, but no flags. -/
def isInteger : Value → Bool
  | .int _ => true
  | .member m => m.number?.isSome
  | _ => false

/-- The number a value counts as: flags count as 0 and 1. -/
def integer? : Value → Option Int
  | .flag b => some (if b then 1 else 0)
  | .int n => some n
  | .real x => x.toInt?
  | .member m => m.number?.map Int.ofNat
  | _ => Option.none

end Value

end Detection
