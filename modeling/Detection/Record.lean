import Detection.Event
import Detection.Json.Reader
import Detection.Json.Writer
import Detection.Wire

/-! # Records: checking plain values against the fields of a kind

A record gives fields by name. It is written as a document and read back before its values are
checked, so that a value in it is always one a document can hold.
-/

namespace Detection.Record

/-! ## Checking one value -/

inductive Cause where
  | required
  | text
  | integer
  | number
  | flag
  | array
  | object
  | pairTooLong (length : Nat)
  | wire (cause : Wire.Error)

def Cause.message : Cause → String
  | .required => "Field required"
  | .text => "Input should be a valid string"
  | .integer => "Input should be a valid integer"
  | .number => "Input should be a valid number"
  | .flag => "Input should be a valid boolean"
  | .array => "Input should be a valid array"
  | .object => "Input should be an object"
  | .pairTooLong n => "Tuple should have at most 2 items after validation, not " ++ toString n
  | .wire cause => "Value error, " ++ cause.message

/-- What is wrong, and where: field, then index or part. -/
structure Issue where
  path : List String
  cause : Cause

def Issue.under (i : Issue) (step : String) : Issue := { i with path := step :: i.path }

abbrev Checked (α : Type) := Except (List Issue) α

def wrong {α : Type} (cause : Cause) : Checked α := .error [⟨[], cause⟩]

def Checked.under {α : Type} (c : Checked α) (step : String) : Checked α :=
  c.mapError (·.map (·.under step))

def both {α β : Type} (a : Checked α) (b : Checked β) : Checked (α × β) :=
  match a, b with
  | .ok x, .ok y => .ok (x, y)
  | .error is, .ok _ => .error is
  | .ok _, .error js => .error js
  | .error is, .error js => .error (is ++ js)

def allFrom {α : Type} (index : Nat) : List (Checked α) → Checked (List α)
  | [] => .ok []
  | c :: cs =>
    (both (c.under (toString index)) (allFrom (index + 1) cs)).map fun (x, xs) => x :: xs

def wired (r : Except Wire.Error Value) : Checked Value :=
  match r with
  | .ok v => .ok v
  | .error cause => wrong (.wire cause)

def checkText (v : Value) : Checked Value :=
  match v with
  | .text s => .ok (.text s)
  | _ => wrong .text

def checkInteger (v : Value) : Checked Value :=
  match v with
  | .int n => .ok (.int n)
  | _ => wrong .integer

/-- A whole number counts as the nearest floating one. -/
def checkNumber (v : Value) : Checked Value :=
  match v with
  | .real x => .ok (.real x)
  | .int n => .ok (.real (Binary64.ofInt n))
  | _ => wrong .number

/-- A part of an object, under its name. -/
def part (entries : Mapping) (name : String) (default : Option Value)
    (check : Value → Checked Value) : Checked Value :=
  match entries.get? (.text name), default with
  | some v, _ => (check v).under name
  | none, some v => .ok v
  | none, none => (wrong .required).under name

def checkScore (v : Value) : Checked Value :=
  match v with
  | .dict entries =>
    (both (part entries "policy_id" none checkInteger) (part entries "score" none checkNumber)).map
      fun (policy, score) => .score policy score
  | _ => wrong .object

def checkCommand (v : Value) : Checked Value :=
  match v with
  | .dict entries =>
    let blank := some (Value.text "")
    (both (part entries "command" none checkText)
      (both (part entries "reply_code" blank checkText)
        (part entries "reply_msg" blank checkText))).map
      fun (command, code, reply) => .command command code reply
  | _ => wrong .object

def checkTextPair (v : Value) : Checked Value :=
  match v with
  | .list items =>
    if 2 < items.length then wrong (.pairTooLong items.length)
    else
      let given := items.map checkText
      let absent := List.replicate (2 - items.length) (wrong .required)
      (allFrom 0 (given ++ absent)).map .tuple
  | _ => wrong .array

def check : FieldType → Value → Checked Value
  | .text, v => checkText v
  | .integer, v => checkInteger v
  | .number, v => checkNumber v
  | .flag, v =>
    match v with
    | .flag b => .ok (.flag b)
    | _ => wrong .flag
  | .address, v => wired (Wire.address v)
  | .time, v => wired (Wire.time v)
  | .country, v => wired (Wire.country v)
  | .payload, v => wired (Wire.payload v)
  | .category, v => wired (Wire.category v)
  | .textPair, v => checkTextPair v
  | .score, v => checkScore v
  | .command, v => checkCommand v
  | .optional inner, v =>
    match v with
    | .none => .ok .none
    | v => check inner v
  | .sequence item, v =>
    match v with
    | .list items => (allFrom 0 (items.map (check item))).map .tuple
    | _ => wrong .array

/-! ## Checking a record -/

def checkField (entries : Mapping) (f : Field) : Checked (String × Value) :=
  (part entries f.name f.default (check f.type)).map fun v => (f.name, v)

def checkFields (entries : Mapping) : List Field → Checked (List (String × Value))
  | [] => .ok []
  | f :: fs =>
    (both (checkField entries f) (checkFields entries fs)).map fun (x, xs) => x :: xs

/-! ## Values with a form in a document -/

structure NotText where
  byte : UInt8
  position : Nat
  deriving DecidableEq, Repr

def NotText.message (n : NotText) : String :=
  "'utf-8' codec can't decode byte 0x" ++ String.ofList (Text.hexDigits 2 n.byte.toNat) ++
    " in position " ++ toString n.position ++ ": invalid utf-8"

def bytesText (bs : List UInt8) : Except NotText Value :=
  match Utf8.decode bs with
  | .ok s => .ok (.text s)
  | .error f => .error ⟨bs.getD f.position 0, f.position⟩

/-- An offset in a document: none from universal time, or hours and minutes, seconds dropped. -/
def offsetChars (o : Offset) : List Char :=
  let seconds := o.micros.fdiv 1000000
  let minutes := seconds.tdiv 60
  let two (n : Nat) := Timestamp.padded 2 n
  if seconds = 0 then ['Z']
  else
    (if minutes < 0 then '-' else '+') ::
      two (minutes.natAbs / 60) ++ ':' :: two (minutes.natAbs % 60)

def timeText (t : Timestamp) : String :=
  let offset := match t.offset with
    | none => []
    | some o => offsetChars o
  String.ofList (({ t with offset := none } : Timestamp).chars ++ offset)

mutual

def plain : Value → Except NotText Value
  | .bytes bs | .buffer bs => bytesText bs
  | .address a => .ok (.text a.text)
  | .time t => .ok (.text (timeText t))
  | .member m =>
    match m.number?, m.title? with
    | some n, _ => .ok (.int n)
    | none, some t => .ok (.text t)
    | none, none => .ok (.text m.name)
  | .list items | .tuple items => do pure (.list (← plainAll items))
  | .dict entries => do pure (.dict (← plainEntries entries))
  | .score p s => do
    pure (Mapping.record [("policy_id", ← plain p), ("score", ← plain s)])
  | .command c k r => do
    pure (Mapping.record
      [("command", ← plain c), ("reply_code", ← plain k), ("reply_msg", ← plain r)])
  | .endpoint a p c => do
    pure (Mapping.record [("addr", ← plain a), ("port", ← plain p), ("country_code", ← plain c)])
  | .multiPort a p c => do
    pure (Mapping.record
      [("addr", ← plain a), ("ports", .list (← plainAll p)), ("country_code", ← plain c)])
  | .group a p c => do
    pure (Mapping.record [("addrs", .list (← plainAll a)), ("ports", .list (← plainAll p)),
      ("country_codes", .list (← plainAll c))])
  | v => .ok v

def plainAll : List Value → Except NotText (List Value)
  | [] => .ok []
  | v :: vs => do
    let x ← plain v
    let xs ← plainAll vs
    pure (x :: xs)

def plainEntries : Mapping → Except NotText (Mapping)
  | [] => .ok []
  | (k, v) :: es => do
    let x ← plain v
    let xs ← plainEntries es
    pure ((k, x) :: xs)

end

end Detection.Record
