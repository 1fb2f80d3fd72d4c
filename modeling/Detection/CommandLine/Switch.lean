import Detection.Syslog.Priority
import Detection.Text.Quoted

/-! # The switches of the command line -/

namespace Detection.CommandLine

inductive Form where
  | display
  | syslog
  | both
  deriving DecidableEq, Repr

namespace Form

def all : List Form := [.display, .syslog, .both]

def name : Form → String
  | .display => "display"
  | .syslog => "syslog"
  | .both => "both"

def ofName? (s : String) : Option Form := all.find? (·.name = s)

end Form

def facilityWord (f : Facility) : String := f.name.map Char.toLower

def facilityOfWord? (s : String) : Option Facility := Facility.all.find? (facilityWord · = s)

inductive Switch where
  | help
  | form
  | output
  | config
  | hostname
  | appName
  | facility
  | color
  | listKinds
  | verbose
  | quiet
  deriving DecidableEq, Repr

namespace Switch

def all : List Switch :=
  [.help, .form, .output, .config, .hostname, .appName, .facility, .color, .listKinds, .verbose,
    .quiet]

def names : Switch → List String
  | .help => ["-h", "--help"]
  | .form => ["-f", "--format"]
  | .output => ["-o", "--output"]
  | .config => ["--config"]
  | .hostname => ["--hostname"]
  | .appName => ["--app-name"]
  | .facility => ["--facility"]
  | .color => ["--color", "--no-color"]
  | .listKinds => ["--list-kinds"]
  | .verbose => ["--verbose", "-v"]
  | .quiet => ["--quiet", "-q"]

def title (s : Switch) : String := "/".intercalate s.names

def choices? : Switch → Option (List String)
  | .form => some (Form.all.map Form.name)
  | .facility => some (Facility.all.map facilityWord)
  | _ => none

def placeholder? (s : Switch) : Option String :=
  match s with
  | .form | .facility => s.choices?.map fun cs => "\x7b" ++ ",".intercalate cs ++ "\x7d"
  | .output => some "OUTPUT"
  | .config => some "CONFIG"
  | .hostname => some "HOSTNAME"
  | .appName => some "APP_NAME"
  | .help | .color | .listKinds | .verbose | .quiet => none

def takesValue (s : Switch) : Bool := s.placeholder?.isSome

def explanation : Switch → String
  | .help => "show this help message and exit"
  | .form => "Output form (default: display)"
  | .output => "Append rendered lines to this file instead of stdout"
  | .config => "Path to an alternative config.yaml"
  | .hostname => "Syslog HOSTNAME (default: syslog.hostname or this host's name)"
  | .appName => "Syslog APP-NAME (default: syslog.app_name)"
  | .facility => "Syslog facility (default: syslog.facility)"
  | .color => "Colourise display output (default: display.color)"
  | .listKinds => "List the supported event kinds and exit"
  | .verbose => "Enable verbose output"
  | .quiet => "Suppress non-essential output"

end Switch

structure Named where
  switch : Switch
  name : String
  deriving DecidableEq, Repr

def allNamed : List Named := Switch.all.flatMap fun s => s.names.map fun n => ⟨s, n⟩

def named? (name : String) : Option Named := allNamed.find? (·.name = name)

end Detection.CommandLine
