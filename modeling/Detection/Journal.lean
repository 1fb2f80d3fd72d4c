/-! # What a run notes about itself -/

namespace Detection

/-- How much a note matters, as a number: settings may ask for any of them. -/
inductive Weight where
  | debug
  | info
  | warning
  | error
  deriving DecidableEq, Repr

def Weight.number : Weight → Nat
  | .debug => 10
  | .info => 20
  | .warning => 30
  | .error => 40

def Weight.word : Weight → String
  | .debug => "DEBUG"
  | .info => "INFO"
  | .warning => "WARNING"
  | .error => "ERROR"

structure Note where
  weight : Weight
  text : String
  deriving DecidableEq, Repr

end Detection
