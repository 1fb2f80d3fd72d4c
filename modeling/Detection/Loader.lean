import Detection.Record

/-! # Loading events from records -/

namespace Detection

inductive LoadError where
  | notObject (typeName : String)
  | missingKind
  | unhashable (typeName : String)
  | unknownKind (kind : Value)
  | unknownField (kind : Kind) (key : Value)
  | notText (kind : Kind) (cause : Record.NotText)
  | document (kind : Kind) (cause : Json.Cause) (column : Nat)
  | unwritten (kind : Kind)
  | invalid (kind : Kind) (issues : List Record.Issue)
  | make (cause : Event.MakeError)
  /-- No text could be made where nothing is ready for that. -/
  | unmade (cause : Excess)

namespace LoadError

def issueText (k : Kind) (i : Record.Issue) : String :=
  Text.joinTexts "." (k.name :: i.path) ++ ": " ++ i.cause.message

def message : LoadError → String
  | .notObject typeName => "Event must be an object, got " ++ typeName
  | .missingKind => "Event is missing its 'kind'"
  | .unhashable typeName => "unhashable type: " ++ Text.literal typeName
  | .unknownKind kind => "Unknown event kind: " ++ kind.display
  | .unknownField k key => k.name ++ " has no field " ++ key.literal
  | .notText k cause => k.name ++ ": " ++ cause.message
  | .document k cause column =>
    k.name ++ ": Invalid JSON: " ++ cause.text ++ " at line 1 column " ++ toString column
  | .unwritten k => k.name ++ ": " ++ Excess.digits.message
  | .invalid k issues => Text.joinTexts "; " (issues.map (issueText k))
  | .make cause => cause.message
  | .unmade cause => cause.message

end LoadError

namespace Event

mutual

/-- The type of the first part that keeps a value from being looked up, if there is one. -/
def unhashable? : Value → Option String
  | .list _ => some "list"
  | .dict _ => some "dict"
  | .buffer _ => some "bytearray"
  | .tuple items => unhashableAmong? items
  | .score p s => (unhashable? p).or (unhashable? s)
  | .command c k r => (unhashable? c).or ((unhashable? k).or (unhashable? r))
  | .endpoint a p c => (unhashable? a).or ((unhashable? p).or (unhashable? c))
  | .multiPort a p c => (unhashable? a).or ((unhashableAmong? p).or (unhashable? c))
  | .group a p c => (unhashableAmong? a).or ((unhashableAmong? p).or (unhashableAmong? c))
  | _ => none

def unhashableAmong? : List Value → Option String
  | [] => none
  | v :: vs => (unhashable? v).or (unhashableAmong? vs)

end

def unknownKind (room : Option Nat) (kind : Value) : LoadError :=
  match kind.displayExcess? room with
  | none => .unknownKind kind
  | some cause => .unmade cause

def findKind (kind : Value) (room : Option Nat := none) : Except LoadError Kind :=
  match unhashable? kind with
  | some typeName => .error (.unhashable typeName)
  | none =>
    match kind with
    | .text s =>
      match Kind.find? s with
      | some k => .ok k
      | none => .error (.unknownKind kind)
    | kind => .error (unknownKind room kind)

/-- Words that name no attribute. -/
def reserved : List String :=
  ["False", "None", "True", "and", "as", "assert", "async", "await", "break", "class", "continue",
    "def", "del", "elif", "else", "except", "finally", "for", "from", "global", "if", "import",
    "in", "is", "lambda", "nonlocal", "not", "or", "pass", "raise", "return", "try", "while", "with",
    "yield"]

/-- The attribute a key means; a reserved word means the attribute with an underscore behind it. -/
def attributeName (key : String) : String := if key ∈ reserved then key ++ "_" else key

def fieldName? (k : Kind) (key : Value) : Option String :=
  match key with
  | .text s => if attributeName s ∈ k.fieldNames then some (attributeName s) else none
  | _ => none

def named (k : Kind) : Mapping → Mapping → Except LoadError Mapping
  | sofar, [] => .ok sofar
  | sofar, (key, v) :: rest =>
    match fieldName? k key with
    | some name => named k (sofar.put (.text name) v) rest
    | none => .error (.unknownField k key)

/-- Too long a number in a record is refused like a bad value; when there is no room left, all is
over. -/
def unwritten (k : Kind) : Excess → LoadError
  | .digits => .unwritten k
  | .calls doing => .unmade (.calls doing)

def written (room : Option Nat) (k : Kind) (v : Value) : Except LoadError (List Char) :=
  match Json.excess? room v with
  | none => .ok (Json.write v)
  | some cause => .error (unwritten k cause)

/-- The entries of a record once they have been written as a document and read back. -/
def throughDocument (k : Kind) (entries : Mapping) (room : Option Nat := none) :
    Except LoadError Mapping := do
  let plain ← (Record.plainEntries entries).mapError (.notText k)
  let document ← written room k (.dict plain)
  match Json.read .record document with
  | .ok (.dict entries) => pure entries
  | .ok _ => pure []
  | .error p => throw (.document k p.cause (p.place document).column)

def ofEntries (k : Kind) (entries : Mapping) (room : Option Nat := none) :
    Except LoadError Event := do
  let entries ← named k [] entries
  let entries ← throughDocument k entries room
  match Record.checkFields entries k.fields with
  | .error issues => throw (.invalid k issues)
  | .ok attributes => (make k attributes).mapError .make

/-- The event of a record. `room` limits the calls inside each other that showing and writing take;
without it they are as many as are needed. -/
def ofRecord (record : Value) (room : Option Nat := none) : Except LoadError Event :=
  match record with
  | .dict entries =>
    match Mapping.get? entries (.text "kind") with
    | none | some .none => .error .missingKind
    | some kind => do
      let k ← findKind kind room
      ofEntries k (Mapping.erase entries (.text "kind")) room
  | v => .error (.notObject v.typeName)

/-- The events of a document that holds one record or a list of records. -/
def ofDocument (document : Value) : Except LoadError (List Event) :=
  match document with
  | .list records => records.mapM fun record => ofRecord record
  | record => do pure [← ofRecord record]

end Event

end Detection
