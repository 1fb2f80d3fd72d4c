import Detection.Value

/-! # Fields: the names, types and defaults an event kind declares -/

namespace Detection

inductive FieldType where
  | text
  | integer
  | number
  | flag
  | address
  | time
  | country
  | payload
  | category
  | textPair
  | score
  | command
  | optional (inner : FieldType)
  | sequence (item : FieldType)
  deriving DecidableEq, Repr

structure Field where
  name : String
  type : FieldType
  /-- The value of a field that is not given; a field without one must be given. -/
  default : Option Value

namespace Field

def required (type : FieldType) (name : String) : Field := { name, type, default := none }

def text (name : String) : Field := { name, type := .text, default := some (.text "") }

def texts (name : String) : Field := { name, type := .sequence .text, default := some (.tuple []) }

def integer (name : String) : Field := { name, type := .integer, default := some (.int 0) }

def integers (name : String) : Field :=
  { name, type := .sequence .integer, default := some (.tuple []) }

def flag (name : String) : Field := { name, type := .flag, default := some (.flag false) }

def payload (name : String) : Field := { name, type := .payload, default := some (.bytes []) }

def address (name : String) : Field :=
  { name, type := .address, default := some (.address .unspecified) }

def addresses (name : String) : Field :=
  { name, type := .sequence .address, default := some (.tuple []) }

def optional (type : FieldType) (name : String) : Field :=
  { name, type := .optional type, default := some .none }

def time (name : String) : Field := required .time name

end Field

end Detection
