import Detection.Builder
import Detection.Layout
import Detection.Side

/-! # Events: making them and showing their fields -/

namespace Detection

structure Event where
  kind : Kind
  attributes : List (String × Value)
  names_eq : attributes.map Prod.fst = kind.fieldNames

namespace Event

def get (e : Event) (name : String) : Value := (e.attributes.lookup name).getD .none

/-! ## Sides -/

def side (get : String → Value) (shape : SideShape) (label : String) : Except Side.Error Value :=
  match shape with
  | .single =>
    Side.single (get (label ++ "_addr")) (get (label ++ "_port")) (get (label ++ "_country_code"))
  | .multiPort =>
    Side.multiPort (get (label ++ "_addr")) (get (label ++ "_ports"))
      (get (label ++ "_country_code"))
  | .group =>
    Side.group (get (label ++ "_addrs")) (get (label ++ "_ports")) (get (label ++ "_country_codes"))

/-! ## Making an event -/

inductive MakeError where
  | missing (names : List String)
  | notSequence (typeName : String)
  | side (cause : Side.Error)
  | noSides

def MakeError.message : MakeError → String
  | .missing names => "missing fields: " ++ Text.joinTexts ", " names
  | .notSequence typeName => (Side.Error.notSequence typeName).message
  | .side cause => cause.message
  | .noSides => ""

def sequence (v : Value) : Except MakeError (List Value) :=
  match v.items? with
  | some items => .ok items
  | none => .error (.notSequence v.fullTypeName)

/-- Sequences are kept as tuples, pairs of a user and a password as well. Where a type allows
nothing, nothing stands for the default. -/
def settle (f : Field) (v : Value) : Except MakeError Value :=
  match f.type, v with
  | .sequence .textPair, v => do
    let pairs ← sequence v
    let pairs ← pairs.mapM sequence
    pure (.tuple (pairs.map .tuple))
  | .optional _, .none => pure (f.default.getD .none)
  | _, .list items => pure (.tuple items)
  | _, v => pure v

/-- Both sides must be well formed before an event is. -/
def checkSides (k : Kind) (get : String → Value) : Except MakeError Unit :=
  match k.sides? with
  | none => .error .noSides
  | some s => do
    let _ ← (side get s.originator "orig").mapError .side
    let _ ← (side get s.responder "resp").mapError .side
    pure ()

def given (args : List (String × Value)) (f : Field) : Option Value :=
  (args.lookup f.name).or f.default

def settleAll (args : List (String × Value)) : List Field → Except MakeError (List (String × Value))
  | [] => .ok []
  | f :: fs => do
    let v ← settle f ((given args f).getD .none)
    let rest ← settleAll args fs
    pure ((f.name, v) :: rest)

theorem map_fst_settleAll {args : List (String × Value)} {fs : List Field}
    {vs : List (String × Value)} (h : settleAll args fs = .ok vs) :
    vs.map Prod.fst = fs.map Field.name := by
  induction fs generalizing vs with
  | nil => cases h; rfl
  | cons f fs ih =>
    simp only [settleAll, bind, Except.bind] at h
    split at h
    · cases h
    · split at h
      · cases h
      · rename_i hrest
        cases h
        simp [ih hrest]

def make (k : Kind) (args : List (String × Value)) : Except MakeError Event :=
  let missing := k.fields.filter fun f => (given args f).isNone
  if missing.isEmpty then
    match h : settleAll args k.fields with
    | .error e => .error e
    | .ok attributes => do
      let event : Event := ⟨k, attributes, map_fst_settleAll h⟩
      checkSides k event.get
      pure event
  else .error (.missing (missing.map Field.name))

/-! ## Showing an event -/

inductive RenderError where
  | refused (cause : Builder.Refusal)
  | side (cause : Side.Error)
  | noSides
  | notSequence (typeName : String)
  | noHexForm (typeName : String)
  | noFormat (typeName : String)
  | tooFew (count : Nat)
  | tooMany

def RenderError.message (k : Kind) : RenderError → String
  | .refused cause => cause.message k.name
  | .side cause => cause.message
  | .noSides => ""
  | .notSequence typeName => (Side.Error.notSequence typeName).message
  | .noHexForm typeName =>
    "Unknown format code 'x' for object of type " ++ Text.literal typeName
  | .noFormat typeName => "unsupported format string passed to " ++ typeName ++ ".__format__"
  | .tooFew count => "not enough values to unpack (expected 2, got " ++ toString count ++ ")"
  | .tooMany => "too many values to unpack (expected 2)"

def parts (v : Value) : Except RenderError (List Value) :=
  match v.items? with
  | some items => .ok items
  | none => .error (.notSequence v.fullTypeName)

/-- At least two hexadecimal digits, after a sign where there is one. -/
def hexNumber (n : Int) : List Char :=
  if n < 0 then '-' :: Text.hexDigits 1 n.natAbs else Text.hexDigits 2 n.toNat

def hexPart (v : Value) : Except RenderError (List Char) :=
  match v with
  | .int n => .ok (hexNumber n)
  | .flag b => .ok (hexNumber (if b then 1 else 0))
  | .member m =>
    match m.number? with
    | some n => .ok (hexNumber n)
    | none => .error (.noHexForm "str")
  | .text _ | .broken _ => .error (.noHexForm "str")
  | .real _ => .error (.noHexForm "float")
  | .time _ => .ok "02x".toList
  | v => .error (.noFormat v.typeName)

def colonHex (v : Value) : Except RenderError Value := do
  let ps ← (← parts v).mapM hexPart
  pure (.text (String.ofList (Text.join [':'] ps)))

def displayed (v : Value) : Except RenderError String :=
  (v.displayed none).mapError fun cause => .refused (.unmade cause)

def commandLine (v : Value) : Except RenderError Value := do
  let cs ← (← parts v).mapM displayed
  pure (.text (Text.joinTexts ";" cs))

def credential (v : Value) : Except RenderError Value := do
  match ← parts v with
  | [user, password] => do pure (.text ((← displayed user) ++ ":" ++ (← displayed password)))
  | ps => if ps.length < 2 then throw (.tooFew ps.length) else throw .tooMany

def credentials (v : Value) : Except RenderError Value := do
  let ps ← (← parts v).mapM credential
  pure (.list ps)

def shownValue (form : Shown) (v : Value) : Except RenderError Value :=
  match form with
  | .plain => .ok v
  | .colonHex => colonHex v
  | .commandLine => commandLine v
  | .credentials => credentials v

def accept {α : Type} : Builder.Outcome α → Except RenderError Builder
  | (b, .ok _) => .ok b
  | (_, .error cause) => .error (.refused cause)

def addSlot (e : Event) (b : Builder) (slot : Slot) : Except RenderError Builder := do
  let v ← shownValue slot.shown (e.get slot.source)
  accept (b.field slot.label v none)

/-- Stands for the category of an event without one. -/
def uncategorised : String := "Unspecified"

def pairs (e : Event) : Except RenderError (List Pair) := do
  let some s := e.kind.sides? | throw .noSides
  let b ← accept (Builder.start.lead "category" (e.get "category") (some uncategorised))
  let b ← accept (b.lead "sensor" (e.get "sensor") none)
  let b ← accept (b.originator (← (side e.get s.originator "orig").mapError .side))
  let b ← accept (b.responder (← (side e.get s.responder "resp").mapError .side))
  let b ← accept (b.proto (e.get "proto"))
  let b ← e.kind.layout.foldlM (addSlot e) b
  let b ← accept (b.field "confidence" (e.get "confidence") none)
  let b ← accept (b.field "triage_scores" (e.get "triage_scores") none)
  match b.build with
  | (_, .ok pairs) => pure pairs
  | (_, .error cause) => throw (.refused cause)

def countryNotes (e : Event) : List String :=
  let codes (label : String) (shape : SideShape) : List Value :=
    match shape with
    | .single | .multiPort => [e.get (label ++ "_country_code")]
    | .group => ((e.get (label ++ "_country_codes")).items?).getD []
  match e.kind.sides? with
  | none => []
  | some s => (codes "orig" s.originator ++ codes "resp" s.responder).flatMap Country.notes

end Event

end Detection
