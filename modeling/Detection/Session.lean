import Detection.EventFile
import Detection.Line
import Detection.Log
import Detection.SettingsFile
import Detection.Terminal

/-! # One run of the program: what it knows, what it changes and how it fails -/

namespace Detection

structure Machine where
  name : String
  process : Nat
  stamp : String
  day : String
  /-- What the log shows of the way to an error nobody expected. -/
  trace : String
  isTerminal : Bool
  /-- What reads the settings documents. -/
  reader : DocumentReader

inductive Failure where
  | settings (cause : SettingsError)
  | log (cause : LogError)
  | events (cause : EventFileError)
  | noSuchName (name : String)
  | header (cause : Syslog.HeaderError)
  | render (kind : Kind) (cause : Event.RenderError)
  | write (cause : WriteError)
  | title

namespace Failure

def message : Failure → String
  | .settings cause => cause.message
  | .log cause => cause.message
  | .events cause => cause.message
  | .noSuchName name =>
    "Unknown syslog facility or severity in configuration: " ++ Text.literal name
  | .header cause => cause.message
  | .render kind cause => cause.message kind
  | .write cause => cause.message
  | .title => "'NoneType' object has no attribute 'set_title'"

end Failure

structure Session where
  machine : Machine
  files : Files
  touched : List (List String)
  log : Log
  out : String
  err : String

/-- A step of a run. What it did before it failed stays done. -/
abbrev Run := ExceptT Failure (StateM Session)

namespace Run

inductive Stream where
  | out
  | err
  deriving DecidableEq, Repr

def put (stream : Stream) (text : String) : Run Unit :=
  modify fun s =>
    match stream with
    | .out => { s with out := s.out ++ text }
    | .err => { s with err := s.err ++ text }

/-- Writes a line. Where no terminal shows it, its codes are left out. -/
def print (stream : Stream) (line : String) : Run Unit := do
  if (← get).machine.isTerminal then put stream (line ++ "\n")
  else
    match Terminal.plain? line with
    | some line => put stream (line ++ "\n")
    | none => throw .title

def extend (place : List String) (text : String) : Run Unit :=
  modify fun s =>
    let isThere := (s.files.entry? place).isSome
    { s with
      files := s.files.extend place (Utf8.encode text)
      touched := if isThere && text.isEmpty then s.touched else place :: s.touched }

def write (line : String) : Run Unit := do
  let log := (← get).log
  if log.console then put .err line
  match log.file? with
  | some place => extend place line
  | none => pure ()

def noteWith (after : String) (n : Note) : Run Unit := do
  let s ← get
  if s.log.keeps n.weight then
    if !s.log.isNowhere then write (Log.line s.machine.stamp n ++ after)
    else if Weight.warning.number ≤ n.weight.number then
      let text := n.text ++ "\n" ++ after
      put .err (if s.machine.isTerminal then text else (Terminal.plain? text).getD "")

def note (weight : Weight) (text : String) : Run Unit := noteWith "" ⟨weight, text⟩

def noteTraced (text : String) : Run Unit := do
  noteWith ((← get).machine.trace ++ "\n") ⟨.error, text⟩

def setLeast (n : Nat) : Run Unit := modify fun s => { s with log := { s.log with least := n } }

def ofExcept {ε α : Type} (failure : ε → Failure) (r : Except ε α) : Run α :=
  match r with
  | .ok a => pure a
  | .error e => throw (failure e)

end Run

end Detection
