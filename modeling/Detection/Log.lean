import Detection.Excess
import Detection.Files
import Detection.Journal
import Detection.Settings
import Detection.Text.Upper

/-! # The log of a run: which notes are kept, and where -/

namespace Detection

structure Log where
  /-- The number of the lightest notes that are kept. -/
  least : Nat
  console : Bool
  file? : Option (List String)

inductive LogError where
  /-- A word that names a format where a level is named. -/
  | formatLevel
  /-- A word that names the styles of formats there. -/
  | stylesLevel
  | unmade (cause : Excess)
  | size (typeName : String)
  | limit (typeName : String)
  | name (typeName : String)
  | byteName
  | write (cause : WriteError)

def LogError.message : LogError → String
  | .formatLevel => "Unknown level: '%(levelname)s:%(name)s:%(message)s'"
  | .stylesLevel =>
    "Level not an integer or a valid string: \x7b" ++
      "'%': (<class 'logging.PercentStyle'>, '%(levelname)s:%(name)s:%(message)s'), " ++
      "'\x7b': (<class 'logging.StrFormatStyle'>, " ++
      "'\x7blevelname\x7d:\x7bname\x7d:\x7bmessage\x7d'), " ++
      "'$': (<class 'logging.StringTemplateStyle'>, " ++
      "'$\x7blevelname\x7d:$\x7bname\x7d:$\x7bmessage\x7d')\x7d"
  | .unmade cause => cause.message
  | .size typeName => "unsupported operand type(s) for *: " ++ Text.literal typeName ++ " and 'int'"
  | .limit typeName =>
    "'>' not supported between instances of " ++ Text.literal typeName ++ " and 'int'"
  | .name typeName => "expected str, bytes or os.PathLike object, not " ++ typeName
  | .byteName =>
    "argument should be a str object or an os.PathLike object returning str, not <class 'bytes'>"
  | .write cause => cause.message

namespace Log

/-! ## Levels -/

def levels : List (String × Nat) :=
  [("CRITICAL", 50), ("FATAL", 50), ("ERROR", 40), ("WARN", 30), ("WARNING", 30), ("INFO", 20),
    ("DEBUG", 10), ("NOTSET", 30)]

/-- The number of a level by its name in any case. Every other value counts as `INFO`, but for two
words that name something else beside the levels. -/
def levelNumber (v : Value) : Except LogError Nat := do
  let name := Text.upper (← (v.displayed none).mapError .unmade)
  if name = "BASIC_FORMAT" then throw .formatLevel
  else if name = "_STYLES" then throw .stylesLevel
  else pure ((levels.lookup name).getD 20)

/-! ## Opening a log -/

/-- A size counts in megabytes, so it must be something that can be multiplied. -/
def checkSize (v : Value) : Except LogError Unit :=
  match v with
  | .flag _ | .int _ | .real _ | .text _ | .broken _ | .bytes _ | .list _ => .ok ()
  | v => .error (.size v.fullTypeName)

def checkLimit (v : Value) : Except LogError Unit :=
  match v with
  | .flag _ | .int _ | .real _ => .ok ()
  | v => .error (.limit v.fullTypeName)

def directoryOf (v : Value) : Except LogError Path :=
  match v with
  | .text s => .ok (.ofText s)
  | .bytes _ => .error .byteName
  | v => .error (.name v.fullTypeName)

def fileOf (directory : Path) (day : String) : Path :=
  directory.append ("eventrender_" ++ day ++ ".log")

/-- The log file of a day, and the files with its directory and the file itself among them. -/
def openFile (files : Files) (s : Settings) (day : String) :
    Except LogError (Files × List String) := do
  let directory ← directoryOf (s.get "paths.logs_dir" (.text "logs"))
  let files ← (files.makeDirectories directory).mapError .write
  checkLimit (s.get "logging.max_log_size_mb" (.int 10))
  let place ← (files.placeToWrite (fileOf directory day).text).mapError .write
  pure (files.extend place [], place)

def ofSettings (files : Files) (s : Settings) (day : String) : Except LogError (Files × Log) := do
  checkSize (s.get "logging.max_log_size_mb" (.int 10))
  let least ← levelNumber (s.get "logging.level" (.text "INFO"))
  let log : Log :=
    { least
      console := (s.get "logging.console_output" (.flag true)).truthy
      file? := none }
  if (s.get "logging.file_output" (.flag false)).truthy then
    let (files, place) ← openFile files s day
    pure (files, { log with file? := some place })
  else pure (files, log)

/-! ## Writing -/

def keeps (log : Log) (w : Weight) : Bool := log.least ≤ w.number

/-- A log that is kept nowhere still shows warnings. -/
def isNowhere (log : Log) : Bool := !log.console && log.file?.isNone

def line (stamp : String) (n : Note) : String :=
  let word := n.weight.word
  stamp ++ " | " ++ word ++ String.ofList (List.replicate (8 - word.length) ' ') ++
    " | eventrender | " ++ n.text ++ "\n"

end Log

end Detection
