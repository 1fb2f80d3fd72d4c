import Detection.Rendered

/-! # The header of a syslog line -/

namespace Detection.Syslog

def nil : String := "-"

structure RawHeader where
  facility : Value := .member (.facility .local0)
  severity : Value := .member (.severity .warning)
  timestamp : Value := .none
  hostname : Value := .none
  appName : Value := .none
  procid : Value := .none
  msgid : Value := .none
  structuredData : Value := .text nil

structure Header where
  facility : Facility
  severity : Severity
  timestamp : Option Timestamp
  hostname : Option String
  appName : Option String
  procid : Option String
  msgid : Option String
  structuredData : String
  deriving DecidableEq

inductive HeaderError where
  | facility (given : Value)
  | severity (given : Value)
  | length (field : String) (limit length : Nat)
  | characters (field : String) (given : Value)
  | notBracketed (given : Value)
  | lineBreak
  | noLength (typeName : String)
  | noParts (typeName : String)
  | notCharacter (typeName : String)
  | manyCharacters (length : Nat)
  | notTextButBytes
  | noAttribute (typeName part : String)
  | notText (place : Nat) (typeName : String)

def HeaderError.message : HeaderError → String
  | .facility given => given.literal ++ " is not a valid Facility"
  | .severity given => given.literal ++ " is not a valid Severity"
  | .length field limit n =>
    field ++ " must be 1 to " ++ toString limit ++ " characters, got " ++ toString n
  | .characters field given =>
    field ++ " must be printable US-ASCII without spaces: " ++ given.literal
  | .notBracketed given =>
    "structured_data must be '-' or bracketed elements: " ++ given.literal
  | .lineBreak => "structured_data must not contain line breaks or NUL"
  | .noLength typeName => "object of type " ++ Text.literal typeName ++ " has no len()"
  | .noParts typeName => Text.literal typeName ++ " object is not iterable"
  | .notCharacter typeName =>
    "ord() expected string of length 1, but " ++ typeName ++ " found"
  | .manyCharacters n =>
    "ord() expected a character, but string of length " ++ toString n ++ " found"
  | .notTextButBytes => "startswith first arg must be bytes or a tuple of bytes, not str"
  | .noAttribute typeName part =>
    Text.literal typeName ++ " object has no attribute " ++ Text.literal part
  | .notText place typeName =>
    "sequence item " ++ toString place ++ ": expected str instance, " ++ typeName ++ " found"

/-- Errors in what a field says. The others are values that cannot stand in a header at all. -/
def HeaderError.isExpected : HeaderError → Bool
  | .length _ _ _ | .characters _ _ | .notBracketed _ | .lineBreak => true
  | _ => false

/-! ## Checking -/

def facilityOf (v : Value) : Except HeaderError Facility :=
  match v.integer?.bind Facility.ofNumber? with
  | some f => .ok f
  | none => .error (.facility v)

def severityOf (v : Value) : Except HeaderError Severity :=
  match v.integer?.bind Severity.ofNumber? with
  | some s => .ok s
  | none => .error (.severity v)

def isVisible (n : Nat) : Bool := 33 ≤ n && n ≤ 126

def characterCode (v : Value) : Except HeaderError Nat :=
  match v with
  | .text s =>
    match s.toList with
    | [c] => .ok c.toNat
    | cs => .error (.manyCharacters cs.length)
  | .broken ps => match ps with
    | [n] => .ok n
    | ps => .error (.manyCharacters ps.length)
  | .bytes bs | .buffer bs => match bs with
    | [b] => .ok b.toNat
    | bs => .error (.manyCharacters bs.length)
  | v => .error (.notCharacter v.fullTypeName)

/-- Whether all parts are visible ASCII, up to the first that is not. -/
def visible : List Value → Except HeaderError Bool
  | [] => .ok true
  | v :: vs => do
    let n ← characterCode v
    if isVisible n then visible vs else pure false

/-- A header field is absent or has between one and `limit` visible characters. -/
def checkToken (field : String) (limit : Nat) (v : Value) : Except HeaderError Unit :=
  match v with
  | .none => .ok ()
  | .group addrs _ _ =>
    if addrs.isEmpty || limit < addrs.length then .error (.length field limit addrs.length)
    else .error (.noParts v.typeName)
  | v =>
    match v.items? with
    | none => .error (.noLength v.fullTypeName)
    | some parts =>
      if parts.isEmpty || limit < parts.length then .error (.length field limit parts.length)
      else
        match visible parts with
        | .error e => .error e
        | .ok true => .ok ()
        | .ok false => .error (.characters field v)

def isBracketed (cs : List Char) : Bool := cs.head? = some '[' && cs.getLast? = some ']'

def breaksLine (c : Char) : Bool := c = '\n' || c = '\r' || c = '\x00'

def checkStructuredData (v : Value) : Except HeaderError String :=
  match v with
  | .text s =>
    if s ≠ nil ∧ ¬isBracketed s.toList then .error (.notBracketed v)
    else if s.toList.any breaksLine then .error .lineBreak
    else .ok s
  | .bytes _ | .buffer _ => .error .notTextButBytes
  | v => .error (.noAttribute v.fullTypeName "startswith")

def token (place : Nat) (v : Value) : Except HeaderError (Option String) :=
  match v with
  | .none => .ok none
  | .text s => .ok (some s)
  | v => .error (.notText place v.fullTypeName)

def timestampOf (v : Value) : Except HeaderError (Option Timestamp) :=
  match v with
  | .none => .ok none
  | .time t => .ok (some t)
  | v => .error (.noAttribute v.fullTypeName "tzinfo")

/-- The limits are those RFC 5424 sets for each field. -/
def Header.check (raw : RawHeader) : Except HeaderError Header := do
  let facility ← facilityOf raw.facility
  let severity ← severityOf raw.severity
  checkToken "hostname" 255 raw.hostname
  checkToken "app_name" 48 raw.appName
  checkToken "procid" 128 raw.procid
  checkToken "msgid" 32 raw.msgid
  let structuredData ← checkStructuredData raw.structuredData
  let timestamp ← timestampOf raw.timestamp
  let hostname ← token 2 raw.hostname
  let appName ← token 3 raw.appName
  let procid ← token 4 raw.procid
  let msgid ← token 5 raw.msgid
  pure { facility, severity, timestamp, hostname, appName, procid, msgid, structuredData }

/-! ## Writing -/

namespace Header

def priority (h : Header) : Nat := Detection.priority h.facility h.severity

def timestampText (h : Header) : String :=
  match h.timestamp with
  | none => nil
  | some t => t.anchored.text

def text (h : Header) : String :=
  Text.joinTexts " "
    ["<" ++ toString h.priority ++ ">1", h.timestampText, h.hostname.getD nil, h.appName.getD nil,
      h.procid.getD nil, h.msgid.getD nil, h.structuredData]

end Header

end Detection.Syslog
