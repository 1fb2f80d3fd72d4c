import Detection.CommandLine.Request
import Detection.CommandLine.Usage
import Detection.Grid
import Detection.Session

/-! # The program: it renders the events of a file -/

namespace Detection.Program

open CommandLine (Request Form)

/-! ## The table of kinds -/

def heading (title : String) : List String :=
  let line := String.ofList (List.replicate 60 '=')
  ["\n" ++ cyan ++ line, title, line ++ plainStyle]

def kindRows : List (List String) :=
  let kinds := Kind.registered.mergeSort fun a b => a.name ≤ b.name
  kinds.map fun k =>
    [k.name, k.description, k.level.name.map Char.toLower, k.learningMethod.title]

def kindTable : List String :=
  heading "Supported Event Kinds" ++
    Grid.lines ["Kind", "Description", "Level", "Learning Method"] kindRows

/-! ## Rendering -/

/-- The first of two values that holds anything. -/
def orElse (given : Option String) (v : Value) : Value :=
  match given with
  | some s => if s.isEmpty then v else .text s
  | none => v

def named {α : Type} (ofName? : String → Option α) (v : Value) : Except Failure α :=
  let name := Text.upper v.display
  match ofName? name with
  | some a => .ok a
  | none => .error (.noSuchName name)

/-- The header of an event's line. What the command line gives prevails over the settings. -/
def header (m : Machine) (s : Settings) (r : Request) (e : Event) :
    Except Failure Syslog.Header := do
  let level := e.kind.level.name.map Char.toLower
  let facility ←
    match r.facility with
    | some f => pure f
    | none => named Facility.ofName? (s.get "syslog.facility" (.text "local0"))
  let severity ←
    named Severity.ofName? (s.get ("syslog.severity_by_level." ++ level) (.text "warning"))
  let process := s.get "syslog.procid" .none
  let host := s.get "syslog.hostname" .none
  (Syslog.Header.check
    { facility := .member (.facility facility)
      severity := .member (.severity severity)
      timestamp := e.get "time"
      hostname := orElse r.hostname (if host.truthy then host else .text m.name)
      appName := orElse r.appName (s.get "syslog.app_name" (.text "eventrender"))
      procid := .text (if process.truthy then process.display else toString m.process)
      msgid := .text e.kind.name }).mapError .header

def rendered (e : Event) (line : Except Event.RenderError String) : Run String := do
  for text in e.countryNotes do Run.note .debug text
  Run.ofExcept (.render e.kind) line

def eventLines (s : Settings) (r : Request) (color : Bool) (e : Event) : Run (List String) := do
  let shown ←
    if r.form = .syslog then pure []
    else
      let line ← rendered e e.displayLine
      pure [if color then e.colourise line else line]
  let logged ←
    if r.form = .display then pure []
    else
      let h ← Run.ofExcept id (header (← get).machine s r e)
      pure [← rendered e (e.syslogLine h)]
  pure (shown ++ logged)

def deliver (lines : List String) : Option String → Run Unit
  | none => for line in lines do Run.print .out line
  | some path => do
    let place ← Run.ofExcept .write ((← get).files.placeToWrite path)
    Run.extend place (String.join (lines.map (· ++ "\n")))
    Run.note .info ("Appended " ++ toString lines.length ++ " lines to " ++ path)

def loadedEvents (path : String) : Run (List Event) := do
  let (notes, r) := loadEvents (← get).files path
  for n in notes do Run.note n.weight n.text
  Run.ofExcept .events r

/-! ## A run -/

structure Report where
  note : String
  label : String
  isExpected : Bool

def report : Failure → Report
  | .settings _ => ⟨"Failed to load configuration", "Config Error", true⟩
  | .events cause =>
    if cause.isExpected then ⟨"Failed to load events", "Load Error", true⟩
    else ⟨"Unexpected error", "Error", false⟩
  | .noSuchName _ => ⟨"Invalid syslog header", "Header Error", true⟩
  | .header cause =>
    if cause.isExpected then ⟨"Invalid syslog header", "Header Error", true⟩
    else ⟨"Unexpected error", "Error", false⟩
  | .log _ | .render _ _ | .write _ | .title => ⟨"Unexpected error", "Error", false⟩

def alert (f : Failure) : String :=
  red ++ "[!] " ++ (report f).label ++ ":" ++ plainStyle ++ " " ++ f.message

def tell (f : Failure) (quiet : Bool) : Run Nat := do
  let about := report f
  let text := about.note ++ ": " ++ f.message
  if about.isExpected then Run.note .error text else Run.noteTraced text
  if !quiet then Run.print .err (alert f)
  pure 1

def render (s : Settings) (r : Request) (path : String) : Run Nat := do
  let color := r.color.getD (s.get "display.color" (.flag false)).truthy
  Run.note .info ("Rendering " ++ path ++ " as " ++ r.form.name)
  if s.source.isNone then Run.note .debug "config.yaml not found, using built-in defaults"
  let events ← loadedEvents path
  let lines ← events.mapM (eventLines s r (color && r.output.isNone))
  deliver lines.flatten r.output
  Run.note .info ("Rendered " ++ toString events.length ++ " events")
  pure 0

/-- Reports an error that is expected where it arises. The others, and what goes wrong with the first
report, are reported behind it; nothing watches over that report. -/
def reporting (quiet : Bool) (run : Run Nat) : Run Nat :=
  let guarded := tryCatch run fun f => if (report f).isExpected then tell f quiet else throw f
  tryCatch guarded (tell · quiet)

def refuse (cause : CommandLine.Refusal) : Run Nat := do
  Run.put .err
    (CommandLine.usage ++ CommandLine.programName ++ ": error: " ++ cause.message ++ "\n")
  pure 2

def serve (s : Settings) (r : Request) : Run Nat := do
  if r.verbose then Run.setLeast Weight.debug.number
  else if r.quiet then Run.setLeast Weight.warning.number
  if r.listKinds then
    for line in kindTable do Run.print .out line
    pure 0
  else
    match r.eventsFile with
    | none | some "" => refuse .noEventsFile
    | some path => reporting r.quiet (render s r path)

def settingsFor (s : Settings) (r : Request) : Run (Except SettingsError Settings) := do
  match r.config with
  | none | some "" => pure (.ok s)
  | some path =>
    let session ← get
    pure (Settings.reload session.machine.reader session.files path)

def openLog (s : Settings) : Run Unit := do
  let session ← get
  let (files, log) ← Run.ofExcept .log (Log.ofSettings session.files s session.machine.day)
  let isNew := fun place => (session.files.entry? place).isNone
  set { session with files, log, touched := log.file?.toList.filter isNew }
  Run.note .debug "Logging system initialized"

def run (args : List String) : Run Nat := do
  let session ← get
  let s ← Run.ofExcept .settings (Settings.load session.machine.reader session.files)
  openLog s
  match CommandLine.Outcome.ofArguments args with
  | .help => do
    Run.put .out CommandLine.help
    pure 0
  | .refused cause => refuse cause
  | .request r =>
    match ← settingsFor s r with
    | .ok s => serve s r
    | .error cause =>
      if cause.isReported then tell (.settings cause) false
      else throw (.settings cause)

/-- The paths a run may look at, as far as the usual settings tell. -/
def paths (files : Files) (m : Machine) (args : List String) : List Path :=
  let named :=
    match CommandLine.Outcome.ofArguments args with
    | .request r => [r.config, r.eventsFile, r.output].filterMap (·.map Path.ofText)
    | _ => []
  match Settings.load m.reader files with
  | .error _ => named
  | .ok s =>
    match Log.directoryOf (s.get "paths.logs_dir" (.text "logs")) with
    | .ok directory => Log.fileOf directory m.day :: named
    | .error _ => named

def start (m : Machine) (files : Files) (args : List String) : Except Failure Nat × Session :=
  (run args).run
    { machine := m, files, touched := [], log := ⟨30, false, none⟩, out := "", err := "" }

def series (files : Files) : List (Machine × List String) → List (Except Failure Nat × Session)
  | [] => []
  | (m, args) :: rest =>
    let run := start m files args
    run :: series run.2.files rest

end Detection.Program
