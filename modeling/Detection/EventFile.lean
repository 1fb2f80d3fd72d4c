import Detection.Files
import Detection.Journal
import Detection.Loader

/-! # Loading the events of a file -/

namespace Detection

inductive EventFileError where
  | missing (path : String)
  | read (cause : ReadError)
  | malformed (name : String) (cause : Json.Cause) (place : Json.Place)
  | record (cause : LoadError)

namespace EventFileError

def placeText (p : Json.Place) : String :=
  "line " ++ toString p.line ++ " column " ++ toString p.column ++
    " (char " ++ toString p.index ++ ")"

def message : EventFileError → String
  | .missing path => "Events file not found: " ++ path
  | .read cause => cause.message
  | .malformed name cause place =>
    if cause.isReported then
      "Invalid JSON in " ++ name ++ ": " ++ cause.text ++ ": " ++ placeText place
    else cause.text
  | .record cause => cause.message

/-- Errors that are noted where they arise, before they are handled. -/
def isNoted : EventFileError → Bool
  | .missing _ => true
  | .malformed _ cause _ => cause.isReported
  | .record (.make (.side _)) => true
  | .record _ | .read _ => false

/-- Errors that come from what the file holds, or from its not being there. -/
def isExpected : EventFileError → Bool
  | .missing _ | .read (.missing _) => true
  | .malformed _ cause _ => cause.isReported
  | .record (.make (.side (.misaligned _))) => true
  | .read _ | .record (.make _) | .record (.unhashable _) | .record (.unmade _) => false
  | .record _ => true

end EventFileError

def documentOf (name : String) (cs : List Char) : Except EventFileError Value :=
  match Json.read (.file Excess.usualRoom) cs with
  | .ok v => .ok v
  | .error p => .error (.malformed name p.cause (p.place cs))

def eventsOf (files : Files) (path : String) : Except EventFileError (List Event) := do
  let p := Path.ofText path
  if files.isThere p then
    let text ← (files.readText p).mapError .read
    let document ← documentOf p.name text
    (Event.ofDocument document).mapError .record
  else throw (.missing path)

def loadEvents (files : Files) (path : String) : List Note × Except EventFileError (List Event) :=
  match eventsOf files path with
  | .ok events =>
    let text :=
      "Loaded " ++ toString events.length ++ " events from " ++ (Path.ofText path).name
    ([⟨.info, text⟩], .ok events)
  | .error cause => (if cause.isNoted then [⟨.error, cause.message⟩] else [], .error cause)

end Detection
