import Detection.Files
import Detection.Settings

/-! # Settings in files

What a document stands for is left to a reader, which may be any.
-/

namespace Detection

/-- Why a reader gives no value: the document is malformed, something in it is no value, or the
reader fails with an error of another name. -/
inductive DocumentError where
  | malformed (details : String)
  | noValue (message : String)
  | other (name message : String)

/-- From the name of a file and the text in it, its value. -/
abbrev DocumentReader := String → List Char → Except DocumentError Value

inductive SettingsError where
  | missing (path : String)
  | read (cause : ReadError)
  | document (path : String) (cause : DocumentError)
  | notMapping (path : String)

namespace SettingsError

def message : SettingsError → String
  | .missing path => "Configuration file not found: " ++ path
  | .read cause => cause.message
  | .document path (.malformed details) => "Invalid YAML in " ++ path ++ details
  | .document _ (.noValue message) | .document _ (.other _ message) => message
  | .notMapping path => "Invalid configuration in " ++ path ++ ": expected a mapping"

/-- Errors a run reports and ends with. The others end it at once. -/
def isReported : SettingsError → Bool
  | .read (.missing _) | .read (.notText _) => true
  | .read (.directory _) | .read (.notDirectory _) => false
  | .document _ (.other _ _) => false
  | .missing _ | .document _ _ | .notMapping _ => true

end SettingsError

namespace Settings

/-- A document is read piece by piece. What its bytes end with inside a character is a piece of its
own, so positions there start anew. -/
def settleFailure (e : ReadError) : ReadError :=
  match e with
  | .notText cause => if cause.flaw = .ending then .notText { cause with position := 0 } else e
  | e => e

def ofDocument (path : String) (v : Value) : Except SettingsError Settings :=
  match v with
  | .dict m => .ok (ofFile path m)
  | v => if v.truthy then .error (.notMapping path) else .ok (ofFile path [])

section

variable (reader : DocumentReader) (files : Files)

def readFile (p : Path) : Except SettingsError Settings := do
  let text ← (files.readText p).mapError fun e => .read (settleFailure e)
  let v ← (reader p.text text).mapError (.document p.text)
  ofDocument p.text v

/-- The file that is looked for when no other is named. -/
def usualPath : Path := .ofText "config.yaml"

def load : Except SettingsError Settings :=
  if files.isThere usualPath then readFile reader files usualPath else .ok builtIn

def reload (path : String) : Except SettingsError Settings :=
  let p := Path.ofText path
  if files.isThere p then readFile reader files p else .error (.missing path)

end

/-! ## Changing settings -/

inductive Origin where
  | usual
  | named (path : String)
  deriving DecidableEq, Repr

variable (reader : DocumentReader)

def ofOrigin (files : Files) : Origin → Except SettingsError Settings
  | .usual => load reader files
  | .named path => reload reader files path

/-- New settings take the place of the old ones. Where there are none, the old ones stay. -/
def replace (s : Settings) (files : Files) (origin : Origin) :
    Settings × Except SettingsError Unit :=
  match ofOrigin reader files origin with
  | .ok s' => (s', .ok ())
  | .error cause => (s, .error cause)

/-! ## Using settings -/

/-- What is done with settings: they are replaced, or something is read from them. -/
inductive Use where
  | replace (files : Files) (origin : Origin)
  | value (path : String) (default : Value)
  | all
  | source

def use (s : Settings) : Use → Settings × Except SettingsError Value
  | .replace files origin =>
    match s.replace reader files origin with
    | (s', r) => (s', r.map fun _ => .none)
  | .value path default => (s, .ok (s.get path default))
  | .all => (s, .ok (.dict s.values))
  | .source => (s, .ok ((s.source.map Value.text).getD .none))

def after (s : Settings) (uses : List Use) : Settings :=
  uses.foldl (fun s u => (s.use reader u).1) s

end Settings

end Detection
