import Detection.Country
import Detection.Rendered

/-! # Collecting the pairs of an event in their canonical order

A builder takes leading fields, then one originator, one responder and the protocol, then any
number of further fields. A call that does not fit is refused and adds nothing, though it may have
moved the builder on. A side is added pair by pair: if the text of one of them cannot be made, the
pairs before it stay.
-/

namespace Detection

inductive Phase where
  | lead
  | originator
  | responder
  | proto
  | kind
  deriving DecidableEq, Repr

namespace Phase

def all : List Phase := [.lead, .originator, .responder, .proto, .kind]

def rank : Phase → Nat
  | .lead => 0
  | .originator => 1
  | .responder => 2
  | .proto => 3
  | .kind => 4

def word : Phase → String
  | .lead => "lead"
  | .originator => "originator"
  | .responder => "responder"
  | .proto => "proto"
  | .kind => "kind"

end Phase

abbrev Pair := String × String

namespace Builder

/-- The parts of a side's name in its pairs. -/
def sideWords : List String := ["addr", "addrs", "port", "ports", "country_code", "country_codes"]

/-- The names only sides and the protocol may use. -/
def canonicalNames : List String :=
  sideWords.map ("orig_" ++ ·) ++ sideWords.map ("resp_" ++ ·) ++ ["proto"]

inductive Refusal where
  | lateLead (name : String)
  | earlyField (name : String)
  | outOfOrder (phase : Phase)
  | notSide (label typeName : String)
  | canonical (name : String)
  | duplicate (name : String)
  | incomplete (missing : List Phase)
  | unmade (cause : Excess)
  deriving DecidableEq, Repr

def Refusal.reason : Refusal → String
  | .lateLead name => "leading field " ++ Text.literal name ++ " supplied after the endpoints"
  | .earlyField name => "field " ++ Text.literal name ++ " supplied before the endpoints and proto"
  | .outOfOrder phase => phase.word ++ " supplied out of order"
  | .notSide label typeName =>
    label ++ " side must be an Endpoint, MultiPortEndpoint or EndpointGroup, got " ++ typeName
  | .canonical name => Text.literal name ++ " is a canonical field and cannot be added directly"
  | .duplicate name => "duplicate field " ++ Text.literal name
  | .incomplete missing =>
    "missing canonical fields: " ++ Text.joinTexts ", " (missing.map Phase.word)
  | .unmade cause => cause.message

def Refusal.message (kindName : String) : Refusal → String
  | .unmade cause => cause.message
  | r => kindName ++ ": " ++ r.reason

end Builder

structure Builder where
  /-- How many calls may stand inside each other while a text is made, if there is a limit. -/
  room : Option Nat
  phase : Phase
  pairs : List Pair
  names : List String
  deriving DecidableEq, Repr

namespace Builder

def start (room : Option Nat := none) : Builder := ⟨room, .lead, [], []⟩

abbrev Outcome (α : Type) := Builder × Except Refusal α

def append (b : Builder) (name text : String) : Outcome Unit :=
  if name ∈ b.names then (b, .error (.duplicate name))
  else ({ b with pairs := b.pairs ++ [(name, text)], names := b.names ++ [name] }, .ok ())

abbrev Attempt := String × Except Excess String

def appendMade (b : Builder) : Attempt → Outcome Unit
  | (name, .ok text) => b.append name text
  | (_, .error cause) => (b, .error (.unmade cause))

/-- Appends pair by pair, until one is refused. -/
def appendAll (b : Builder) : List Attempt → Outcome Unit
  | [] => (b, .ok ())
  | a :: rest =>
    match b.appendMade a with
    | (b, .ok ()) => b.appendAll rest
    | (b, .error e) => (b, .error e)

def add (b : Builder) : Attempt → Outcome Unit
  | (name, .ok text) =>
    if name ∈ canonicalNames then (b, .error (.canonical name)) else b.append name text
  | (_, .error cause) => (b, .error (.unmade cause))

def text (room : Option Nat) (value : Value) (absent : Option String) : Except Excess String :=
  match value, absent with
  | .none, some a => .ok (Text.bare a)
  | v, _ => v.format room

def advance (b : Builder) (phase : Phase) : Outcome Unit :=
  if b.phase.rank + 1 = phase.rank then ({ b with phase }, .ok ())
  else (b, .error (.outOfOrder phase))

/-- The pairs of a side in the order in which they are made, if the value is one. Many codes are
decoded before anything else is done. -/
def sideAttempts? (room : Option Nat) (label : String) : Value → Option (List Attempt)
  | .endpoint addr port code =>
    some [(label ++ "_addr", addr.format room), (label ++ "_port", port.format room),
      (label ++ "_country_code", (Country.attempt room code).map Text.bare)]
  | .multiPort addr ports code =>
    some [(label ++ "_addr", addr.format room), (label ++ "_ports", (Value.list ports).format room),
      (label ++ "_country_code", (Country.attempt room code).map Text.bare)]
  | .group addrs ports codes =>
    let decoded := Country.attemptAll room codes
    some [(label ++ "_addrs", decoded.bind fun _ => (Value.list addrs).format room),
      (label ++ "_ports", (Value.list ports).format room),
      (label ++ "_country_codes", decoded.map fun cs => bracketed (cs.map Text.bare))]
  | _ => none

def addSide (b : Builder) (phase : Phase) (label : String) (side : Value) : Outcome Unit :=
  match b.advance phase with
  | (b, .error e) => (b, .error e)
  | (b, .ok ()) =>
    match sideAttempts? b.room label side with
    | none => (b, .error (.notSide label side.typeName))
    | some attempts => b.appendAll attempts

/-! ## The calls -/

def lead (b : Builder) (name : String) (value : Value) (absent : Option String) : Outcome Unit :=
  if b.phase = .lead then b.add (name, text b.room value absent)
  else (b, .error (.lateLead name))

def originator (b : Builder) (side : Value) : Outcome Unit := b.addSide .originator "orig" side

def responder (b : Builder) (side : Value) : Outcome Unit := b.addSide .responder "resp" side

def proto (b : Builder) (value : Value) : Outcome Unit :=
  match b.advance .proto with
  | (b, .error e) => (b, .error e)
  | (b, .ok ()) => b.appendMade ("proto", value.format b.room)

def field (b : Builder) (name : String) (value : Value) (absent : Option String) : Outcome Unit :=
  if b.phase.rank < Phase.proto.rank then (b, .error (.earlyField name))
  else { b with phase := .kind }.add (name, text b.room value absent)

def build (b : Builder) : Outcome (List Pair) :=
  if b.phase.rank < Phase.proto.rank then
    let missing := Phase.all.filter fun p => b.phase.rank < p.rank && p.rank ≤ Phase.proto.rank
    (b, .error (.incomplete missing))
  else (b, .ok b.pairs)

inductive Call where
  | lead (name : String) (value : Value) (absent : Option String)
  | originator (side : Value)
  | responder (side : Value)
  | proto (value : Value)
  | field (name : String) (value : Value) (absent : Option String)
  | build

/-- A call's outcome; only `build` answers with pairs. -/
def call (b : Builder) : Call → Outcome (Option (List Pair))
  | .lead name value absent => (b.lead name value absent).map id (Except.map fun _ => none)
  | .originator side => (b.originator side).map id (Except.map fun _ => none)
  | .responder side => (b.responder side).map id (Except.map fun _ => none)
  | .proto value => (b.proto value).map id (Except.map fun _ => none)
  | .field name value absent => (b.field name value absent).map id (Except.map fun _ => none)
  | .build => b.build.map id (Except.map some)

def run (b : Builder) : List Call → Builder × List (Except Refusal (Option (List Pair)))
  | [] => (b, [])
  | c :: cs =>
    let (b, answer) := b.call c
    let (b, answers) := b.run cs
    (b, answer :: answers)

end Builder

end Detection
