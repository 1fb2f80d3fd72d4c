import Detection.Value

/-! # Building the two sides of an event

A side is one host with a port, one host with several ports, or many hosts described by three
sequences that agree index by index. Ports are checked where there is one host, lengths where there
are many.
-/

namespace Detection.Side

inductive Error where
  | port (owner : String) (port : Value)
  | notSequence (typeName : String)
  /-- Sequences of different lengths, with their names. -/
  | misaligned (lengths : List (String × Nat))

def lengthsText (lengths : List (String × Nat)) : String :=
  Text.joinTexts ", " (lengths.map fun (name, n) => name ++ "=" ++ toString n)

def Error.message : Error → String
  | .port owner given => owner ++ " expects integer ports, got " ++ given.literal
  | .notSequence typeName => Text.literal typeName ++ " object is not iterable"
  | .misaligned lengths =>
    "Aggregate endpoint sequences are not aligned: " ++ lengthsText lengths

def sequence (v : Value) : Except Error (List Value) :=
  match v.items? with
  | some items => .ok items
  | none => .error (.notSequence v.fullTypeName)

def checkAligned (lengths : List (String × Nat)) : Except Error Unit :=
  match lengths with
  | [] => .ok ()
  | (_, n) :: rest => if rest.all (·.2 = n) then .ok () else .error (.misaligned lengths)

/-- A host whose port may be unknown. -/
def single (addr port code : Value) : Except Error Value :=
  match port with
  | .none => .ok (.endpoint addr port code)
  | _ =>
    if port.isInteger then .ok (.endpoint addr port code) else .error (.port "Endpoint" port)

/-- A host with several ports; none at all may be given as nothing. -/
def multiPort (addr ports code : Value) : Except Error Value := do
  let ps ←
    match ports with
    | .none => pure []
    | _ => sequence ports
  match ps.find? (!·.isInteger) with
  | some port => throw (.port "MultiPortEndpoint" port)
  | none => pure (.multiPort addr ps code)

/-- Many hosts: the `i`-th address, port and country code belong together. -/
def group (addrs ports codes : Value) : Except Error Value := do
  let as ← sequence addrs
  let ps ← sequence ports
  let cs ← sequence codes
  checkAligned [("addrs", as.length), ("ports", ps.length), ("country_codes", cs.length)]
  pure (.group as ps cs)

end Detection.Side
